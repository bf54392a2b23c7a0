import BootImage.Bench.Board
import BootImage.Bench.Checksums
import BootImage.Bench.Launchers
import BootImage.Bench.Scripted
import BootImage.Bench.Unpacker
import BootImage.Json.Config
import BootImage.Pipeline.Boot
import BootImage.Selection
import BootImage.Proofs.BlockCopy
import BootImage.Proofs.PartitionTable
import BootImage.Proofs.Acquisition
import BootImage.Proofs.Preparation
import BootImage.Proofs.Delivery
import BootImage.Proofs.Outcome
import BootImage.Proofs.History
import BootImage.Proofs.Registration
import BootImage.Proofs.Twin
import BootImage.Proofs.TwinAcquisition
import BootImage.Proofs.Independence
import BootImage.Proofs.Burst
import BootImage.Proofs.Corruption
import BootImage.Proofs.Custody
import BootImage.Proofs.Card
import BootImage.Proofs.Lookup
import BootImage.Proofs.Offering
import BootImage.Proofs.Strategies
import BootImage.Proofs.Stages
import BootImage.Proofs.Bounds
import BootImage.Proofs.Sessions
import BootImage.Proofs.Tampering
import BootImage.Proofs.WireForm
import BootImage.Proofs.CopyAnswers
import BootImage.Proofs.Fallback
import BootImage.Proofs.Simulation
import BootImage.Proofs.FlashCalls
import BootImage.Proofs.NorFlash
import BootImage.Proofs.JsonTokens
import BootImage.Proofs.JsonObject
import BootImage.Proofs.JsonForm
import BootImage.Proofs.EntryRow
import BootImage.Proofs.Reads
import BootImage.Proofs.SelectedMedium
import BootImage.Proofs.VectorBoots
import BootImage.Proofs.TwoStepCopy
import BootImage.Proofs.UnpackGate
import BootImage.Proofs.ChecksumGate
import BootImage.Proofs.SetName
import BootImage.Proofs.NumberForm
import BootImage.Proofs.Takes
import BootImage.Proofs.Normalization
import BootImage.Proofs.StoredMedium
import BootImage.Proofs.HeaderLayout
