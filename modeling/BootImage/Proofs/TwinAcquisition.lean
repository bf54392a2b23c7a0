import BootImage.Proofs.Acquisition
import BootImage.Proofs.Twin

/-!
# Acquisitions side by side

A copy reads into regions that hold the bytes of earlier attempts, and a read that fails may leave
anything there. If the device answers by place and length alone (`Device.AnswersBy`), none of that
is ever looked at: acquisitions from workspaces that differ in their scratch headers and in the
content of their targets are twins, and where they give an image they give the same one.

* `findPartition_twin` — lookups in a partition table, by induction on the blocks that are left.
* `BlockCopy.acquire_twin` — copies. The header that gates was read in this attempt, and the image
  lies within the bytes that were read in this attempt.
* `Source.acquire_twin` — acquisitions by any strategy.
-/

namespace BootImage

open Attempt Ran

/-! ### Devices that answer by place and length -/

/-- An answer is this one. If it is a fault, anything may be in the buffer. -/
def ReadAnswer.Is {δ : Type} (answer : ReadAnswer δ) : Except String Bytes → Prop
  | .ok bytes => answer.fault = none ∧ answer.buffer = bytes
  | .error fault => answer.fault = some fault

namespace Device

variable {δ : Type} [Device δ]

/-- Whatever is read before, and whatever is in the buffer, a read of a number of bytes from an
offset of a medium has this answer. A read that succeeds fills the buffer. -/
def AnswersBy (answer : BlockMedium → (offset length : Nat) → Except String Bytes) (d : δ) : Prop :=
  ∀ d', Reaches d d' → ∀ medium offset buffer,
    (read d' medium offset buffer).Is (answer medium offset buffer.length)

variable {answer : BlockMedium → (offset length : Nat) → Except String Bytes} {d d' : δ}

/-- After reads a device answers as before. -/
theorem AnswersBy.reaches (h : AnswersBy answer d) (hr : Reaches d d') : AnswersBy answer d' :=
  fun d'' hd' => h d'' (hr.trans hd')

/-- Two devices that answer alike. -/
def Twins (answer : BlockMedium → (offset length : Nat) → Except String Bytes) (d d' : δ) : Prop :=
  AnswersBy answer d ∧ AnswersBy answer d'

/-- What two answers to a read of so many bytes have in common. -/
structure SameAnswer (length : Nat) (a a' : Bytes × Option String) : Prop where
  fault : a.2 = a'.2
  bytes : a.2 = none → a.1 = a'.1
  length_left : a.1.length = length
  length_right : a'.1.length = length

/-- Two reads of as many bytes from the same place have the same fault or the same bytes. -/
theorem fetch_twin (h : Twins answer d d') (medium : BlockMedium) (offset : Nat)
    {buffer buffer' : Bytes} (hlen : buffer.length = buffer'.length) :
    Twin (Twins answer) (fun a a' _ _ => SameAnswer buffer.length a a')
      ((fetch medium offset buffer).run d) ((fetch medium offset buffer').run d') := by
  have hr := h.1 d .refl medium offset buffer
  have hr' := h.2 d' .refl medium offset buffer'
  rw [← hlen] at hr'
  have hleft := length_read d medium offset buffer
  have hright := (length_read d' medium offset buffer').trans hlen.symm
  rw [run_fetch, run_fetch, ← hlen]
  refine .ok ⟨h.1.reaches (.read _ _ _ .refl), h.2.reaches (.read _ _ _ .refl)⟩ ?_
  rcases hanswer : answer medium offset buffer.length with fault | bytes
  · rw [hanswer] at hr hr'
    have hfault : (read d medium offset buffer).fault = some fault := hr
    have hfault' : (read d' medium offset buffer').fault = some fault := hr'
    refine ⟨hfault.trans hfault'.symm, fun hnone => ?_, hleft, hright⟩
    cases hfault.symm.trans hnone
  · rw [hanswer] at hr hr'
    exact ⟨hr.1.trans hr'.1.symm, fun _ => hr.2.trans hr'.2.symm, hleft, hright⟩

end Device

variable {δ ω : Type} [Device δ]
  {answer : BlockMedium → (offset length : Nat) → Except String Bytes}

/-! ### Lookups -/

section lookup

/-- The check of a table's header looks at the header only. -/
theorem TableHeader.check_blind {σ : Type} (h : TableHeader) :
    Blind (h.check : Attempt σ Bool) := by
  unfold TableHeader.check
  split_ifs
  · exact (Blind.log _).bind fun _ => .pure _
  · exact (Blind.log _).bind fun _ => .pure _
  · exact (Blind.log _).bind fun _ => .pure _
  · exact .pure _

/-- Twins read the same header. -/
theorem TableHeader.read_twin (medium : BlockMedium) {d d' : δ} (h : Device.Twins answer d d') :
    Twin (Device.Twins answer) Equal ((TableHeader.read medium).run d)
      ((TableHeader.read medium).run d') := by
  unfold TableHeader.read
  refine (Device.fetch_twin h medium blockSize rfl).bind ?_
  rintro ⟨block, fault⟩ ⟨block', fault'⟩ d d' hd ⟨hfault, hblock, -, -⟩
  obtain rfl : fault = fault' := hfault
  cases fault with
  | some fault => exact .ofBlind (.failWith _ _) hd
  | none =>
    obtain rfl : block = block' := hblock rfl
    exact .ofBlind ((Blind.cut _ _).bind fun _ => .pure _) hd

/-- The same slots are handed to visitors that have collected the same. -/
theorem visitSlots_twin (visit : ω → PartitionEntry → ω) (ss : List Bytes) {s s' : δ × ω}
    (hs : Device.Twins answer s.1 s'.1 ∧ s.2 = s'.2) :
    Twin (fun st st' => Device.Twins answer st.1 st'.1 ∧ st.2 = st'.2) Equal
      ((visitSlots visit ss).run s) ((visitSlots visit ss).run s') := by
  induction ss generalizing s s' with
  | nil => exact .ok hs rfl
  | cons slot ss ih =>
    refine Twin.blindly (.cut _ _) hs ?_
    intro bytes
    have hs' : Device.Twins answer s.1 s'.1 ∧ visit s.2 (PartitionEntry.ofBytes bytes) =
        visit s'.2 (PartitionEntry.ofBytes bytes) := ⟨hs.1, congrArg (visit · _) hs.2⟩
    exact ih hs'

/-- Walks over the blocks, by induction on how many are left. The buffer of the first walk and that
of the second have the same bytes, since the read before left them there. -/
theorem EntryArray.walk_twin (array : EntryArray) (visit : ω → PartitionEntry → ω) (blocks : Nat)
    (remaining offset : Nat) (register : UInt32) (buffer : Bytes) {s s' : δ × ω}
    (hs : Device.Twins answer s.1 s'.1 ∧ s.2 = s'.2) :
    Twin (fun st st' => Device.Twins answer st.1 st'.1 ∧ st.2 = st'.2) Equal
      ((array.walk visit blocks remaining offset register buffer).run s)
      ((array.walk visit blocks remaining offset register buffer).run s') := by
  induction blocks generalizing remaining offset register buffer s s' with
  | zero => exact .ok hs rfl
  | succ blocks ih =>
    unfold EntryArray.walk
    have hfetch : Twin (fun st st' => Device.Twins answer st.1 st'.1 ∧ st.2 = st'.2)
        (fun a a' _ _ => Device.SameAnswer buffer.length a a')
        ((Attempt.on Prod.fst (fun (st : δ × ω) d => (d, st.2))
          (Device.fetch array.medium offset buffer)).run s)
        ((Attempt.on Prod.fst (fun (st : δ × ω) d => (d, st.2))
          (Device.fetch array.medium offset buffer)).run s') :=
      (Device.fetch_twin hs.1 array.medium offset rfl).on (fun _ _ h => ⟨h, hs.2⟩)
        (fun _ _ _ _ _ h => h)
    refine hfetch.bind ?_
    rintro ⟨block, fault⟩ ⟨block', fault'⟩ s s' hs ⟨hfault, hblock, -, -⟩
    obtain rfl : fault = fault' := hfault
    cases fault with
    | some fault => exact .ofBlind (.failWith _ _) hs
    | none =>
      obtain rfl : block = block' := hblock rfl
      refine Twin.blindly (.word _) hs fun length => ?_
      refine Twin.blindly (.cut _ _) hs fun used => ?_
      refine (visitSlots_twin visit _ hs).bind ?_
      intro _ _ s s' hs _
      refine Twin.blindly (.difference _ _) hs fun remaining => ?_
      refine Twin.blindly ?_ hs fun next => ih _ _ _ _ hs
      unfold nextBlock
      split_ifs
      · exact .pure _
      · exact .stop _

/-- They visit the same entries. -/
theorem TableHeader.visitEntries_twin (h : TableHeader) (medium : BlockMedium)
    (visit : ω → PartitionEntry → ω) {s s' : δ × ω}
    (hs : Device.Twins answer s.1 s'.1 ∧ s.2 = s'.2) :
    Twin (fun st st' => Device.Twins answer st.1 st'.1 ∧ st.2 = st'.2) Equal
      ((h.visitEntries medium visit).run s) ((h.visitEntries medium visit).run s') := by
  rw [TableHeader.visitEntries_eq]
  split_ifs
  · refine (EntryArray.walk_twin _ visit _ _ _ _ _ hs).bind ?_
    rintro register _ s s' hs rfl
    refine .ofBlind ?_ hs
    split_ifs
    · exact .pure _
    · exact .failWith _ _
  · exact .ofBlind (.stop _) hs
  · exact .ofBlind (.failWith _ _) hs
  · exact .ofBlind (.failWith _ _) hs

/-- **Lookups in a partition table are twins.** -/
theorem findPartition_twin (medium : BlockMedium) (partitionType : Guid) {d d' : δ}
    (h : Device.Twins answer d d') :
    Twin (Device.Twins answer) Equal ((findPartition medium partitionType).run d)
      ((findPartition medium partitionType).run d') := by
  unfold findPartition
  refine (TableHeader.read_twin medium h).bind ?_
  rintro header _ d d' hd rfl
  refine Twin.blindly header.check_blind hd fun accepted => ?_
  cases accepted with
  | false => exact .ofBlind (.stop _) hd
  | true =>
    have hvisit : Twin (fun st st' => Device.Twins answer st.1 st'.1 ∧ st.2 = st'.2) Equal
        ((header.visitEntries medium (Extent.keepFirst partitionType)).run (d, none))
        ((header.visitEntries medium (Extent.keepFirst partitionType)).run (d', none)) :=
      header.visitEntries_twin medium _ ⟨hd, rfl⟩
    refine hvisit.accumulating.bind ?_
    rintro ⟨_, found⟩ _ d d' hd rfl
    cases found with
    | none => exact .ofBlind (.stop _) hd
    | some extent => exact .ofBlind (.pure _) hd

end lookup

/-! ### Copies -/

/-- Workspaces whose devices answer alike, and whose targets have the same length. -/
structure Workspace.Twins (answer : BlockMedium → (offset length : Nat) → Except String Bytes)
    (w w' : Workspace δ) : Prop where
  device : Device.Twins answer w.device w'.device
  length_target : w.target.length = w'.target.length

section copies

variable {w w' : Workspace δ}

/-- The check of a magic word looks at the header only. -/
theorem Header.checkMagic_blind {σ : Type} (h : Header) :
    Blind (h.checkMagic : Attempt σ Bool) := by
  unfold Header.checkMagic
  split_ifs
  · exact .pure _
  · exact (Blind.log _).bind fun _ => .pure _

/-- So does the step that fails by it. -/
theorem Header.requireMagic_blind {σ : Type} (h : Header) :
    Blind (h.requireMagic : Attempt σ Unit) := by
  unfold Header.requireMagic
  refine h.checkMagic_blind.bind fun accepted => ?_
  cases accepted with
  | false => exact .stop _
  | true => exact .pure _

/-- So does logging the details. -/
theorem Header.logDetails_blind {σ : Type} (h : Header) :
    Blind (h.logDetails : Attempt σ Unit) := ⟨.ok (), h.details, fun _ => rfl⟩

namespace BlockCopy

variable (c : BlockCopy)

/-- A header that could be read is the same, whatever was in the scratch header before. -/
theorem readScratch_twin (hw : Workspace.Twins answer w w') :
    Twin (Workspace.Twins answer) (fun _ _ w w' => w.scratch = w'.scratch)
      (c.readScratch.run w) (c.readScratch.run w') := by
  have hlen : w.scratch.bytes.length = w'.scratch.bytes.length := by
    rw [Header.length_bytes, Header.length_bytes]
  have hfetch : Twin (Workspace.Twins answer)
      (fun a a' _ _ => Device.SameAnswer w.scratch.bytes.length a a')
      ((Workspace.onDevice (Device.fetch c.medium c.offset.toNat w.scratch.bytes)).run w)
      ((Workspace.onDevice (Device.fetch c.medium c.offset.toNat w'.scratch.bytes)).run w') :=
    (Device.fetch_twin hw.device c.medium c.offset.toNat hlen).on
      (fun _ _ h => ⟨h, hw.length_target⟩) (fun _ _ _ _ _ h => h)
  refine Twin.getting (hfetch.bind ?_)
  rintro ⟨buffer, fault⟩ ⟨buffer', fault'⟩ w w' hw ⟨hfault, hbuffer, -, -⟩
  obtain rfl : fault = fault' := hfault
  cases fault with
  | some fault => exact .stopped ⟨hw.device, hw.length_target⟩
  | none =>
    obtain rfl : buffer = buffer' := hbuffer rfl
    exact .ok ⟨hw.device, hw.length_target⟩ rfl

/-- The read of an image that the target has room for. -/
theorem run_readTarget_of_le {length : Nat} (hroom : length ≤ w.target.length) :
    (c.readTarget length).run w =
      (Workspace.onDevice (Device.fetch c.medium c.offset.toNat (w.target.take length)) >>=
        fun a => modify (fun w => { w with target := a.1 ++ w.target.drop length }) >>=
          fun _ => c.checkRead length a.2).run w := by
  have hcut : (cut w.target length : Attempt (Workspace δ) Bytes) = pure (w.target.take length) :=
    cut_of_le hroom
  rw [readTarget, run_bind, run_get, continueWith_ok, hcut, pure_bind]
  rfl

/-- An image that could be read is the same, whatever was in the target before. -/
theorem readTarget_twin {length : Nat} (hroom : length ≤ w.target.length)
    (hw : Workspace.Twins answer w w') :
    Twin (Workspace.Twins answer)
      (fun _ _ w w' => length ≤ w.target.length ∧ w.target.take length = w'.target.take length)
      ((c.readTarget length).run w) ((c.readTarget length).run w') := by
  have hroom' : length ≤ w'.target.length := hw.length_target ▸ hroom
  have hlen : (w.target.take length).length = (w'.target.take length).length := by
    rw [List.length_take_of_le hroom, List.length_take_of_le hroom']
  have hfetch : Twin (Workspace.Twins answer)
      (fun a a' v _ => Device.SameAnswer length a a' ∧ length ≤ v.target.length)
      ((Workspace.onDevice (Device.fetch c.medium c.offset.toNat (w.target.take length))).run w)
      ((Workspace.onDevice (Device.fetch c.medium c.offset.toNat (w'.target.take length))).run
        w') := by
    refine (Device.fetch_twin hw.device c.medium c.offset.toNat hlen).on
      (fun _ _ h => ⟨h, hw.length_target⟩) ?_
    intro a a' t t' _ hsame
    rw [List.length_take_of_le hroom] at hsame
    exact ⟨hsame, hroom⟩
  rw [c.run_readTarget_of_le hroom, c.run_readTarget_of_le hroom']
  refine hfetch.bind ?_
  rintro ⟨buffer, fault⟩ ⟨buffer', fault'⟩ v v' hv ⟨⟨hfault, hbuffer, hleft, hright⟩, hroom⟩
  obtain rfl : fault = fault' := hfault
  have htwins : Workspace.Twins answer { v with target := buffer ++ v.target.drop length }
      { v' with target := buffer' ++ v'.target.drop length } := by
    refine ⟨hv.device, ?_⟩
    have hlength := hv.length_target
    simp only [List.length_append, List.length_drop] at hleft hright ⊢
    omega
  -- A read that failed may leave anything in the buffer; only its length is then known.
  cases fault with
  | some fault => exact .stopped htwins
  | none =>
    obtain rfl : buffer = buffer' := hbuffer rfl
    refine .ok htwins ⟨?_, ?_⟩
    · show length ≤ (buffer ++ v.target.drop length).length
      rw [List.length_append]
      exact Nat.le_trans (Nat.le_of_eq hleft.symm) (Nat.le_add_right _ _)
    · have hleft' : buffer.length = length := hleft
      show (buffer ++ _).take length = (buffer ++ _).take length
      rw [List.take_left' hleft', List.take_left' hleft']

/-- **Copies are twins.** The image that they give is the same. -/
theorem acquire_twin (hw : Workspace.Twins answer w w') :
    Twin (Workspace.Twins answer)
      (fun n n' w w' => n = n' ∧ n ≤ w.target.length ∧ w.target.take n = w'.target.take n)
      (c.acquire.run w) (c.acquire.run w') := by
  unfold acquire
  refine Twin.blindly (.log _) hw fun _ => ?_
  refine Twin.blindly (.log _) hw fun _ => ?_
  refine (c.readScratch_twin hw).bind ?_
  intro _ _ w w' hw hscratch
  refine Twin.getting ?_
  rw [← hscratch, ← hw.length_target]
  refine Twin.blindly w.scratch.requireMagic_blind hw fun _ => ?_
  refine Twin.blindly w.scratch.logDetails_blind hw fun _ => ?_
  by_cases hroom : w.scratch.length.toNat ≤ w.target.length
  · rw [if_pos hroom]
    refine Twin.blindly (.log _) hw fun _ => ?_
    refine (c.readTarget_twin hroom hw).bind ?_
    intro _ _ w w' hw hbytes
    exact .ok hw ⟨rfl, hbytes⟩
  · rw [if_neg hroom]
    exact .stopped hw

end BlockCopy

/-- The choice of the first block looks at the result of the lookup only. -/
theorem TableCopy.firstLba_blind {σ : Type} (found : Except Error Extent) :
    Blind (firstLba found : Attempt σ UInt64) := by
  cases found with
  | ok extent => exact (Blind.log _).bind fun _ => .pure _
  | error cause => exact (Blind.log _).bind fun _ => .pure _

/-- Copies from a partition are twins. -/
theorem TableCopy.acquire_twin (c : TableCopy) (hw : Workspace.Twins answer w w') :
    Twin (Workspace.Twins answer)
      (fun n n' w w' => n = n' ∧ n ≤ w.target.length ∧ w.target.take n = w'.target.take n)
      (c.acquire.run w) (c.acquire.run w') := by
  have hfind : Twin (Workspace.Twins answer) Equal
      ((Workspace.onDevice (findPartition c.medium c.partitionType)).run w)
      ((Workspace.onDevice (findPartition c.medium c.partitionType)).run w') :=
    (findPartition_twin c.medium c.partitionType hw.device).on
      (fun _ _ h => ⟨h, hw.length_target⟩) (fun _ _ _ _ _ h => h)
  unfold acquire
  refine hfind.caught.bind ?_
  rintro found _ w w' hw rfl
  exact Twin.blindly (firstLba_blind found) hw fun lba => BlockCopy.acquire_twin _ hw

/-! ### Acquisitions -/

/-- The same location, with the same bytes at it. -/
def Location.Same (l l' : Location) (target target' : Bytes) : Prop :=
  l = l' ∧ l.Fits target ∧ l.bytes target = l'.bytes target'

/-- **Acquisitions are twins.** The image that they give is the same. -/
theorem Source.acquire_twin (source : Source) (hw : Workspace.Twins answer w w') :
    Twin (Workspace.Twins answer) (fun l l' w w' => l.Same l' w.target w'.target)
      (source.acquire.run w) (source.acquire.run w') := by
  cases source with
  | linked image =>
    refine Twin.blindly (.ofExcept _) hw fun header => ?_
    refine Twin.blindly header.requireMagic_blind hw fun _ => ?_
    refine Twin.blindly header.logDetails_blind hw fun _ => ?_
    exact .ok hw ⟨rfl, trivial, rfl⟩
  | mapped window =>
    refine Twin.blindly (.log _) hw fun _ => ?_
    refine Twin.blindly (.ofExcept _) hw fun header => ?_
    refine Twin.blindly header.requireMagic_blind hw fun _ => ?_
    exact .ok hw ⟨rfl, trivial, rfl⟩
  | copied copy =>
    refine (copy.acquire_twin hw).bind ?_
    rintro n _ w w' hw ⟨rfl, hfits, hbytes⟩
    exact .ok hw ⟨rfl, hfits, hbytes⟩
  | partitioned copy =>
    refine (copy.acquire_twin hw).bind ?_
    rintro n _ w w' hw ⟨rfl, hfits, hbytes⟩
    exact .ok hw ⟨rfl, hfits, hbytes⟩

end copies

end BootImage
