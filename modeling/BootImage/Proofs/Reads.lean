import BootImage.Proofs.EntryRow
import BootImage.Proofs.Fallback
import BootImage.Proofs.Stages

/-!
# What an attempt reads

Counts and lengths on a medium can say anything, and any read can fail. Still an attempt reads no
medium but the one that is selected, and it makes few reads: one for each step of a copy, and before
a copy from a partition one for the header of the table and at most 32 for its entries.

* `reads_findPartition`, `Source.reads_acquire` — what a lookup reads, and an acquisition by each of
  the strategies. A visit of entries reads a row of blocks, and follows that row.
* `trace_boot_of_uses` — the acquisition comes first in an attempt, and what comes after it reads
  nothing.
* `history_reads_selected` — the reads of each request of a history (`Pipeline.ReadsSelected`).
-/

namespace BootImage

open Attempt

/-! ### Reads of blocks and of copies -/

/-- The reads of a copy: that of the header and, if the copy gets so far, that of the image, both at
the same offset. -/
inductive CopyReads (medium : BlockMedium) (offset : UInt64) : List (BlockMedium × Nat × Nat) → Prop
  | header : CopyReads medium offset [(medium, offset.toNat, Header.size)]
  | image (length : Nat) :
      CopyReads medium offset [(medium, offset.toNat, Header.size), (medium, offset.toNat, length)]

/-- The reads of a copy from a partition: that of the block with the header of the table, those of
consecutive blocks of entries, of which there are at most 32, and those of a copy. -/
inductive TableCopyReads (medium : BlockMedium) : List (BlockMedium × Nat × Nat) → Prop
  | lookup (first : Nat) {count : Nat} (hcount : count ≤ 32) {offset : UInt64}
      {copy : List (BlockMedium × Nat × Nat)} (hcopy : CopyReads medium offset copy) :
      TableCopyReads medium
        ((medium, blockSize, blockSize) :: blockReads medium first count ++ copy)

section reads

variable {medium : BlockMedium} {offset : UInt64} {reads : List (BlockMedium × Nat × Nat)}
  {read : BlockMedium × Nat × Nat}

/-- All reads of blocks are of the one medium. -/
theorem medium_of_mem_blockReads {first count : Nat} (h : read ∈ blockReads medium first count) :
    read.1 = medium := by
  obtain ⟨block, -, rfl⟩ := List.mem_map.mp h
  rfl

/-- So are those of a copy. -/
theorem CopyReads.medium_of_mem (h : CopyReads medium offset reads) (hmem : read ∈ reads) :
    read.1 = medium := by
  cases h with
  | header => simp_all
  | image length =>
    simp only [List.mem_cons, List.not_mem_nil, or_false] at hmem
    rcases hmem with rfl | rfl
    · rfl
    · rfl

/-- A copy makes two reads at most. -/
theorem CopyReads.length_le (h : CopyReads medium offset reads) : reads.length ≤ 2 := by
  cases h with
  | header => simp
  | image length => simp

/-- A copy from a partition reads its medium only. -/
theorem TableCopyReads.medium_of_mem (h : TableCopyReads medium reads) (hmem : read ∈ reads) :
    read.1 = medium := by
  obtain ⟨first, hcount, hcopy⟩ := h
  rw [List.cons_append] at hmem
  rcases List.mem_cons.mp hmem with rfl | hmem
  · rfl
  rcases List.mem_append.mp hmem with hmem | hmem
  · exact medium_of_mem_blockReads hmem
  · exact hcopy.medium_of_mem hmem

/-- It makes 35 reads at most: one of the header, 32 of the entries and two of the copy. -/
theorem TableCopyReads.length_le (h : TableCopyReads medium reads) : reads.length ≤ 35 := by
  obtain ⟨first, hcount, hcopy⟩ := h
  have hlen := hcopy.length_le
  simp only [List.cons_append, List.length_cons, List.length_append, length_blockReads]
  omega

end reads

/-! ### The reads of a run -/

section runs

variable {σ α β : Type} {x : Attempt σ α} {f : α → Attempt σ β} {s : σ}

/-- A second part adds its reads to those of the first. -/
theorem reads_bind_of_ok {a : α} (h : (x.run s).result = .ok a) :
    ((x >>= f).run s).reads = (x.run s).reads ++ ((f a).run (x.run s).state).reads := by
  rw [run_bind_of_ok h]
  exact List.filterMap_append

/-- A composition whose first part stops makes the reads of that part. -/
theorem reads_bind_of_error {stop : Stop} (h : (x.run s).result = .error stop) :
    ((x >>= f).run s).reads = (x.run s).reads := by
  rw [run_bind_of_error h]
  rfl

/-- A step that reads nothing. -/
def Silent (x : Attempt σ α) : Prop := ∀ s, (x.run s).reads = []

/-- A second part that reads nothing adds nothing. -/
theorem reads_bind_of_silent (hf : ∀ a, Silent (f a)) :
    ((x >>= f).run s).reads = (x.run s).reads := by
  rcases h : (x.run s).result with stop | a
  · exact reads_bind_of_error h
  · rw [reads_bind_of_ok h, hf, List.append_nil]

/-- Steps without reads compose to one without reads. -/
theorem Silent.bind (hx : Silent x) (hf : ∀ a, Silent (f a)) : Silent (x >>= f) := by
  intro s
  rw [reads_bind_of_silent hf]
  exact hx s

/-- A value takes no read. -/
theorem silent_pure (a : α) : Silent (pure a : Attempt σ α) := fun _ => rfl

/-- A message takes none. -/
theorem silent_log (message : Message) : Silent (log message : Attempt σ Unit) := fun _ => rfl

/-- Nor does a value or failure that is there already. -/
theorem silent_ofExcept (value : Except Error α) :
    Silent (Attempt.ofExcept value : Attempt σ α) := by
  intro s
  cases value with
  | ok a => rfl
  | error cause => rfl

/-- Nor does the check of the magic word. -/
theorem Header.silent_requireMagic (h : Header) : Silent (h.requireMagic : Attempt σ Unit) := by
  intro s
  unfold requireMagic checkMagic
  split_ifs
  · rfl
  · rfl

/-- Nor does logging the details of a header. -/
theorem Header.silent_logDetails (h : Header) : Silent (h.logDetails : Attempt σ Unit) :=
  fun _ => rfl

/-- An image that is used where it is takes no reads. -/
theorem Source.silent_acquireLinked (image : Bytes) :
    Silent (acquireLinked image : Attempt σ Location) := by
  unfold acquireLinked
  apply (silent_ofExcept _).bind
  intro header
  apply header.silent_requireMagic.bind
  intro _
  exact header.silent_logDetails.bind fun _ => silent_pure _

/-- Nor does a mapped window. -/
theorem Source.silent_acquireMapped (window : Bytes) :
    Silent (acquireMapped window : Attempt σ Location) := by
  unfold acquireMapped
  apply (silent_log _).bind
  intro _
  apply (silent_ofExcept _).bind
  intro header
  exact header.silent_requireMagic.bind fun _ => silent_pure _

/-- Nor does the check of a table's header. -/
theorem TableHeader.silent_check (h : TableHeader) : Silent (h.check : Attempt σ Bool) := by
  intro s
  unfold TableHeader.check
  split_ifs
  · rfl
  · rfl
  · rfl
  · rfl

end runs

variable {δ ω : Type} [Device δ]

/-! ### The reads of a lookup -/

namespace TableHeader

/-- A visit reads consecutive blocks, from the one that the header names on, and few of them. -/
theorem reads_visitEntries (h : TableHeader) (medium : BlockMedium)
    (visit : ω → PartitionEntry → ω) (s : δ × ω) :
    ∃ count ≤ 32, ((h.visitEntries medium visit).run s).reads =
      blockReads medium h.entriesLba.toNat count := by
  by_cases hwalk : h.Walkable
  · have hrow := h.endsSoundly_row medium s.1
    exact ⟨_, hrow.reads_le.trans (arrayBlocks_le hwalk),
      (visitEntries_of_walkable visit hwalk s).2.1⟩
  · exact ⟨0, Nat.zero_le _, (visitEntries_of_not_walkable visit hwalk s).2.1⟩

/-- The header of a table is read with one read, of the second block. -/
theorem reads_read (medium : BlockMedium) (d : δ) :
    ((TableHeader.read medium).run d).reads = [(medium, blockSize, blockSize)] := by
  unfold TableHeader.read
  rw [reads_bind_of_silent]
  · rw [Device.run_fetch, List.length_replicate]
    rfl
  · rintro ⟨block, _ | fault⟩ d'
    · unfold cut
      dsimp only
      split_ifs
      · rfl
      · rfl
    · rfl

end TableHeader

/-- **A lookup reads the block of the table's header, and consecutive blocks of entries.** -/
theorem reads_findPartition (medium : BlockMedium) (partitionType : Guid) (d : δ) :
    ∃ first, ∃ count ≤ 32, ((findPartition medium partitionType).run d).reads =
      (medium, blockSize, blockSize) :: blockReads medium first count := by
  unfold findPartition
  rcases hread : ((TableHeader.read medium).run d).result with stop | header
  · rw [reads_bind_of_error hread, TableHeader.reads_read]
    exact ⟨0, 0, Nat.zero_le _, rfl⟩
  rw [reads_bind_of_ok hread, TableHeader.reads_read]
  generalize ((TableHeader.read medium).run d).state = d₁
  rcases hcheck : (header.check.run d₁).result with stop | accepted
  · rw [reads_bind_of_error hcheck, TableHeader.silent_check]
    exact ⟨0, 0, Nat.zero_le _, rfl⟩
  rw [reads_bind_of_ok hcheck, header.silent_check, List.nil_append]
  generalize (header.check.run d₁).state = d₂
  cases accepted with
  | false => exact ⟨0, 0, Nat.zero_le _, rfl⟩
  | true =>
    obtain ⟨count, hcount, hreads⟩ := header.reads_visitEntries medium
      (Extent.keepFirst partitionType) (d₂, none)
    refine ⟨header.entriesLba.toNat, count, hcount, ?_⟩
    rw [if_pos rfl, reads_bind_of_silent]
    · exact congrArg ((medium, blockSize, blockSize) :: ·) hreads
    · rintro ⟨_, _ | extent⟩ d₃
      · rfl
      · rfl

/-! ### The reads of an acquisition -/

/-- The reads of a copy are those of its header and of its image. -/
theorem BlockCopy.reads_acquire (c : BlockCopy) (w : Workspace δ) :
    CopyReads c.medium c.offset (c.acquire.run w).reads := by
  by_cases h : c.GoesOn w
  · rw [(c.acquire_of_goesOn w h).2.1]
    exact .image _
  · rw [(c.acquire_of_not_goesOn w h).2.1]
    exact .header

/-- A copy from a partition makes the reads of a lookup first. -/
theorem TableCopy.reads_acquire (c : TableCopy) (w : Workspace δ) :
    TableCopyReads c.medium (c.acquire.run w).reads := by
  obtain ⟨first, count, hcount, hlookup⟩ := reads_findPartition c.medium c.partitionType w.device
  have hcopy := (c.following w).reads_acquire (c.afterLookup w)
  have hreport : (report (c.lookedUp w).result).filterMap Event.read? = [] := by
    rcases (c.lookedUp w).result with (cause | _ | _) | extent
    · rfl
    · rfl
    · rfl
    · rfl
  have hreads : (c.acquire.run w).reads =
      (c.lookedUp w).reads ++ ((c.following w).acquire.run (c.afterLookup w)).reads := by
    rw [run_acquire]
    simp only [Ran.reads, List.filterMap_append, hreport, List.nil_append]
  rw [hreads, show (c.lookedUp w).reads = _ from hlookup]
  exact .lookup first hcount hcopy

/-- The reads of an acquisition by each of the strategies. -/
def Source.Reads (reads : List (BlockMedium × Nat × Nat)) : Source → Prop
  | linked _ | mapped _ => reads = []
  | copied c => CopyReads c.medium c.offset reads
  | partitioned c => TableCopyReads c.medium reads

/-- No strategy makes more than 35 reads. -/
theorem Source.Reads.length_le {source : Source} {reads : List (BlockMedium × Nat × Nat)}
    (h : source.Reads reads) : reads.length ≤ 35 := by
  cases source with
  | linked image =>
    obtain rfl : reads = [] := h
    simp
  | mapped window =>
    obtain rfl : reads = [] := h
    simp
  | copied c => exact (CopyReads.length_le h).trans (by decide)
  | partitioned c => exact TableCopyReads.length_le h

/-- **What an acquisition reads.** An image that is used where it is takes no reads. -/
theorem Source.reads_acquire (source : Source) (w : Workspace δ) :
    source.Reads (source.acquire.run w).reads := by
  cases source with
  | linked image => exact silent_acquireLinked image w
  | mapped window => exact silent_acquireMapped window w
  | copied c =>
    have hreads : ((acquire (.copied c)).run w).reads = (c.acquire.run w).reads :=
      reads_bind_of_silent fun _ => silent_pure _
    rw [hreads]
    exact c.reads_acquire w
  | partitioned c =>
    have hreads : ((acquire (.partitioned c)).run w).reads = (c.acquire.run w).reads :=
      reads_bind_of_silent fun _ => silent_pure _
    rw [hreads]
    exact c.reads_acquire w

/-! ### The reads of an attempt -/

/-- Where a trace begins with events none of which changes the stage, and goes on without a read, no
read follows a change of stage. -/
theorem reads_after_change {start rest earlier later : List Event} {old new : Stage}
    (hstart : changes start = []) (hrest : rest.filterMap Event.read? = [])
    (htrace : start ++ rest = earlier ++ .logged (.stage old new) :: later) :
    later.filterMap Event.read? = [] := by
  rcases List.append_eq_append_iff.mp htrace with ⟨middle, -, hrest'⟩ | ⟨middle, hstart', hlater⟩
  · rw [hrest', List.filterMap_append, List.append_eq_nil_iff] at hrest
    exact hrest.2
  cases middle with
  | nil =>
    rw [List.nil_append] at hlater
    rw [← hlater] at hrest
    exact hrest
  | cons e middle =>
    obtain ⟨rfl, -⟩ := List.cons_eq_cons.mp hlater
    have hchange : (old, new) ∈ changes start := by
      rw [hstart', changes_append]
      exact List.mem_append_right _ List.mem_cons_self
    rw [hstart] at hchange
    cases hchange

namespace Pipeline

variable {ζ ℓ : Type} [Decompressor ζ] {q : Pipeline δ ζ ℓ} {source : Source}

/-- A preparation begins with its acquisition, and reads nothing after that. -/
theorem trace_prepared_of_uses (huses : q.Uses source) :
    ∃ rest, q.prepared.trace = (q.acquisition source).trace ++ rest ∧
      rest.filterMap Event.read? = [] := by
  have hcourse := preparation_prepared q
  generalize q.prepared = ran at hcourse ⊢
  cases hcourse with
  | noMedium hsel =>
    obtain ⟨medium, hsel', -⟩ := huses
    cases hsel.symm.trans hsel'
  | unavailable hsel hsource =>
    obtain ⟨medium, hsel', hsource'⟩ := huses
    cases hsel.symm.trans hsel'
    cases hsource.symm.trans hsource'
  | unacquired huses' hacq =>
    obtain rfl := huses.unique huses'
    exact ⟨[], (List.append_nil _).symm, rfl⟩
  | headerless huses' hacq hlen =>
    obtain rfl := huses.unique huses'
    exact ⟨_, rfl, rfl⟩
  | plain hacq hmagic =>
    obtain rfl := huses.unique hacq.uses
    exact ⟨_, rfl, rfl⟩
  | noStaging hacq hmagic hmove =>
    obtain rfl := huses.unique hacq.uses
    exact ⟨_, List.append_assoc .., rfl⟩
  | noDecompressor hacq hmagic hmove hz =>
    obtain rfl := huses.unique hacq.uses
    exact ⟨_, List.append_assoc .., rfl⟩
  | refused hcan hclaim =>
    obtain rfl := huses.unique hcan.uses
    simp only [arrival, unpackCall, List.append_assoc]
    exact ⟨_, rfl, rfl⟩
  | unpacked hcan hclaim haccept =>
    obtain rfl := huses.unique hcan.uses
    simp only [arrival, unpackCall, List.append_assoc]
    exact ⟨_, rfl, rfl⟩

/-- Without a source for the selected medium a preparation does nothing that could be seen. -/
theorem trace_prepared_of_no_source (hnone : ∀ source, ¬ q.Uses source) :
    q.prepared.trace = [] := by
  have hcourse := preparation_prepared q
  generalize q.prepared = ran at hcourse ⊢
  cases hcourse with
  | noMedium hsel => rfl
  | unavailable hsel hsource => rfl
  | unacquired huses hacq => exact absurd huses (hnone _)
  | headerless huses hacq hlen => exact absurd huses (hnone _)
  | plain hacq hmagic => exact absurd hacq.uses (hnone _)
  | noStaging hacq hmagic hmove => exact absurd hacq.uses (hnone _)
  | noDecompressor hacq hmagic hmove hz => exact absurd hacq.uses (hnone _)
  | refused hcan hclaim => exact absurd hcan.uses (hnone _)
  | unpacked hcan hclaim haccept => exact absurd hcan.uses (hnone _)

variable [Launcher ℓ]

/-- A validation computes and logs. -/
theorem reads_checked (q : Pipeline δ ζ ℓ) (c : Candidate) : (q.checked c).reads = [] := by
  refine (checked_keeps q c).filterMap_eq_nil ?_
  rintro e ⟨medium, offset, length⟩ hread
  rw [Event.read?_eq_some.mp hread]
  exact id

/-- An attempt begins with its preparation, and reads nothing after that. -/
theorem trace_attempt (q : Pipeline δ ζ ℓ) :
    ∃ rest, ((attempt : Attempt (Pipeline δ ζ ℓ) Unit).run q).trace = q.prepared.trace ++ rest ∧
      rest.filterMap Event.read? = [] := by
  have hcourse := attempted q
  generalize (attempt : Attempt (Pipeline δ ζ ℓ) Unit).run q = ran at hcourse
  cases hcourse with
  | unprepared hprep => exact ⟨[], (List.append_nil _).symm, rfl⟩
  | @invalid c cause hprep hvalid hcheck => exact ⟨_, rfl, reads_checked q c⟩
  | @launched c hprep hvalid =>
    have hreads : (q.launching c).filterMap Event.read? =
        q.prepared.trace.filterMap Event.read? :=
      filterMap_launching q c (fun _ => rfl) (fun _ _ => rfl) (fun _ _ => rfl) (fun _ => rfl)
    simp only [launching, List.append_assoc] at hreads ⊢
    refine ⟨_, rfl, ?_⟩
    rw [List.filterMap_append] at hreads
    exact List.append_right_eq_self.mp hreads

/-- So does a call of `boot`, which logs before it and after it. -/
theorem trace_boot (q : Pipeline δ ζ ℓ) :
    ∃ rest, (boot.run q).trace = .logged .starting :: q.prepared.trace ++ rest ∧
      rest.filterMap Event.read? = [] := by
  obtain ⟨report, stage, htrace, hreport, -⟩ := boot_of_attempt q
  obtain ⟨rest, hattempt, hrest⟩ := trace_attempt q
  have hsilent : report.filterMap Event.read? = [] := by
    apply List.filterMap_eq_nil_iff.mpr
    intro e he
    obtain ⟨message, rfl⟩ := hreport e he
    rfl
  refine ⟨rest ++ report, ?_, ?_⟩
  · rw [htrace, hattempt]
    simp only [List.cons_append, List.append_assoc]
  · rw [List.filterMap_append, hrest, hsilent, List.append_nil]

/-- **The acquisition comes first in an attempt, and what comes after it reads nothing.** -/
theorem trace_boot_of_uses (huses : q.Uses source) :
    ∃ rest, (boot.run q).trace = (.logged .starting :: (q.acquisition source).trace) ++ rest ∧
      rest.filterMap Event.read? = [] := by
  obtain ⟨rest, hboot, hrest⟩ := trace_boot q
  obtain ⟨rest', hprepared, hrest'⟩ := trace_prepared_of_uses huses
  refine ⟨rest' ++ rest, ?_, ?_⟩
  · rw [hboot, hprepared]
    simp only [List.cons_append, List.append_assoc]
  · rw [List.filterMap_append, hrest', hrest, List.append_nil]

/-- The reads of an attempt are those of its acquisition. -/
theorem reads_boot_of_uses (huses : q.Uses source) :
    (boot.run q).reads = (q.acquisition source).reads := by
  obtain ⟨rest, htrace, hrest⟩ := trace_boot_of_uses huses
  rw [Ran.reads, htrace, List.filterMap_append, hrest, List.append_nil]
  rfl

/-- Without a strategy nothing is read. -/
theorem reads_boot_of_no_source (hnone : ∀ source, ¬ q.Uses source) : (boot.run q).reads = [] := by
  obtain ⟨rest, htrace, hrest⟩ := trace_boot q
  rw [Ran.reads, htrace, trace_prepared_of_no_source hnone, List.filterMap_append, hrest]
  rfl

/-- After the first change of stage, be it to that of failed attempts, an attempt reads nothing. -/
theorem nothing_read_after_change {earlier later : List Event} {old new : Stage}
    (htrace : (boot.run q).trace = earlier ++ .logged (.stage old new) :: later) :
    later.filterMap Event.read? = [] := by
  by_cases hsource : ∃ source, q.Uses source
  · obtain ⟨source, huses⟩ := hsource
    obtain ⟨rest, hboot, hrest⟩ := trace_boot_of_uses huses
    have hstart : changes (.logged .starting :: (q.acquisition source).trace) = [] :=
      changes_acquisition q source
    exact reads_after_change hstart hrest (hboot.symm.trans htrace)
  · obtain ⟨rest, hboot, hrest⟩ := trace_boot q
    rw [trace_prepared_of_no_source (not_exists.mp hsource)] at hboot
    have hstart : changes [.logged .starting] = [] := rfl
    exact reads_after_change hstart hrest (hboot.symm.trans htrace)

/-! ### Reads and the selected medium -/

/-- What the reads of an attempt are, given the state in which it starts and its run. -/
structure ReadsSelected (q : Pipeline δ ζ ℓ) (ran : Ran (Pipeline δ ζ ℓ) Bool) : Prop where
  /-- Every read is of the block medium of the selected medium. -/
  onMedium : ∀ read ∈ ran.reads, ∃ medium, q.selected = some medium ∧ medium.block? = some read.1
  /-- Nothing is read if no medium is selected, or if the selected one is not available. -/
  unavailable : q.selected.bind q.sourceFor = none → ran.reads = []
  /-- Nothing is read for the linked image. -/
  payload : q.selected = some .payload → ran.reads = []
  /-- QSPI flash that is used in place is not read, and is otherwise copied from its start. -/
  qspi : q.selected = some .qspi → ∀ use, q.config.qspi = some use →
    if use.inPlace then ran.reads = [] else CopyReads .qspi 0 ran.reads
  /-- A card is searched for a partition, or copied from its start. -/
  mmc : q.selected = some .mmc → ∀ use, q.config.mmc = some use →
    if use.useTable then TableCopyReads .mmc ran.reads else CopyReads .mmc 0 ran.reads
  /-- SPI flash is copied from the offset that is configured. -/
  spiFlash : q.selected = some .spiFlash → ∀ use, q.config.spiFlash = some use →
    CopyReads .spiFlash use.offset ran.reads
  /-- There are few reads. -/
  atMost : ran.reads.length ≤ 35
  /-- No read follows a change of stage, so none is made by a step after the acquisition, whether
  that step fails or not, nor by the failure of the acquisition. -/
  nothingLater : ∀ earlier later old new,
    ran.trace = earlier ++ .logged (.stage old new) :: later → later.filterMap Event.read? = []

omit [Device δ] [Decompressor ζ] [Launcher ℓ] in
/-- The reads by the strategy for a medium are of its block medium. -/
theorem block?_of_reads {medium : BootMedium} {reads : List (BlockMedium × Nat × Nat)}
    {read : BlockMedium × Nat × Nat} (hsource : q.sourceFor medium = some source)
    (hreads : source.Reads reads) (hmem : read ∈ reads) : medium.block? = some read.1 := by
  cases medium with
  | payload =>
    unfold sourceFor at hsource
    split_ifs at hsource
    obtain ⟨image, -, rfl⟩ := Option.map_eq_some_iff.mp hsource
    obtain rfl : reads = [] := hreads
    cases hmem
  | qspi =>
    obtain ⟨use, -, huse⟩ := Option.bind_eq_some_iff.mp hsource
    split_ifs at huse
    · obtain ⟨window, -, rfl⟩ := Option.map_eq_some_iff.mp huse
      obtain rfl : reads = [] := hreads
      cases hmem
    · cases huse
      rw [CopyReads.medium_of_mem hreads hmem]
      rfl
  | mmc =>
    obtain ⟨use, -, rfl⟩ := Option.map_eq_some_iff.mp hsource
    split_ifs at hreads
    · rw [TableCopyReads.medium_of_mem hreads hmem]
      rfl
    · rw [CopyReads.medium_of_mem hreads hmem]
      rfl
  | spiFlash =>
    obtain ⟨use, -, rfl⟩ := Option.map_eq_some_iff.mp hsource
    rw [CopyReads.medium_of_mem hreads hmem]
    rfl

/-- The reads of an attempt are as its strategy makes them. -/
theorem reads_boot (huses : q.Uses source) : source.Reads (boot.run q).reads := by
  rw [reads_boot_of_uses huses]
  exact source.reads_acquire q.toWorkspace

/-- An attempt reads nothing, or what the strategy for its medium reads. -/
theorem reads_boot_cases (q : Pipeline δ ζ ℓ) : (boot.run q).reads = [] ∨
    ∃ medium source, q.selected = some medium ∧ q.sourceFor medium = some source ∧
      source.Reads (boot.run q).reads := by
  by_cases hsource : ∃ source, q.Uses source
  · obtain ⟨source, huses⟩ := hsource
    have hreads := reads_boot huses
    obtain ⟨medium, hsel, hsource⟩ := huses
    exact .inr ⟨medium, source, hsel, hsource, hreads⟩
  · exact .inl (reads_boot_of_no_source (not_exists.mp hsource))

/-- **An attempt reads the selected medium only, and makes few reads**, whatever the device answers
and wherever the attempt ends. -/
theorem boot_reads_selected (q : Pipeline δ ζ ℓ) : q.ReadsSelected (boot.run q) where
  onMedium := by
    intro read hmem
    rcases reads_boot_cases q with hnone | ⟨medium, source, hsel, hsource, hreads⟩
    · rw [hnone] at hmem
      cases hmem
    · exact ⟨medium, hsel, block?_of_reads hsource hreads hmem⟩
  unavailable := by
    intro hnone
    apply reads_boot_of_no_source
    rintro source ⟨medium, hsel, hsource⟩
    rw [hsel, Option.bind_some, hsource] at hnone
    cases hnone
  payload := by
    intro hsel
    rcases reads_boot_cases q with hnone | ⟨medium, source, hsel', hsource, hreads⟩
    · exact hnone
    · cases hsel.symm.trans hsel'
      apply List.eq_nil_iff_forall_not_mem.mpr
      intro read hmem
      cases block?_of_reads hsource hreads hmem
  qspi := by
    intro hsel use huse
    split_ifs with hinPlace
    · rcases reads_boot_cases q with hnone | ⟨medium, source, hsel', hsource, hreads⟩
      · exact hnone
      · cases hsel.symm.trans hsel'
        simp only [sourceFor, huse, Option.bind_some, hinPlace, if_true] at hsource
        obtain ⟨window, -, rfl⟩ := Option.map_eq_some_iff.mp hsource
        exact hreads
    · have huses : q.Uses (.copied ⟨.qspi, 0⟩) :=
        ⟨.qspi, hsel, by simp [sourceFor, huse, hinPlace]⟩
      exact reads_boot huses
  mmc := by
    intro hsel use huse
    split_ifs with htable
    · have huses : q.Uses (.partitioned ⟨.mmc, use.partitionType⟩) :=
        ⟨.mmc, hsel, by simp [sourceFor, huse, htable]⟩
      exact reads_boot huses
    · have huses : q.Uses (.copied ⟨.mmc, 0⟩) := ⟨.mmc, hsel, by simp [sourceFor, huse, htable]⟩
      exact reads_boot huses
  spiFlash := by
    intro hsel use huse
    have huses : q.Uses (.copied ⟨.spiFlash, use.offset⟩) :=
      ⟨.spiFlash, hsel, by simp [sourceFor, huse]⟩
    exact reads_boot huses
  atMost := by
    rcases reads_boot_cases q with hnone | ⟨medium, source, -, -, hreads⟩
    · rw [hnone]
      exact Nat.zero_le _
    · exact hreads.length_le
  nothingLater := fun _ _ _ _ => nothing_read_after_change

/-- A selection reads nothing. -/
theorem reads_select (medium : BootMedium) (q : Pipeline δ ζ ℓ) :
    ((serve (.select medium)).run q).reads = [] := by
  apply List.filterMap_eq_nil_iff.mpr
  intro e he
  rw [eq_of_mem_trace_select he]
  rfl

/-- **No request reads a medium that is not selected.** In any history an attempt reads the block
medium that is selected when it starts and no other, at most 35 times and as the configuration says,
and a selection reads nothing. -/
theorem history_reads_selected (p : Pipeline δ ζ ℓ) (requests : List Request)
    {record : Record δ ζ ℓ} (hmem : record ∈ p.history requests) :
    record.before.config = p.config ∧
      (record.request = .boot → record.before.ReadsSelected record.ran) ∧
      ∀ medium, record.request = .select medium → record.ran.reads = [] := by
  obtain ⟨hevolves, hran⟩ := evolves_of_mem_history hmem
  obtain ⟨q, request, ran⟩ := record
  obtain rfl : ran = (serve request).run q := hran
  refine ⟨hevolves.config, ?_, ?_⟩
  · rintro rfl
    exact boot_reads_selected q
  · rintro medium rfl
    exact reads_select medium q

/-- A board whose flash cannot be read, and whose card starts with an image and has no table. -/
def flashlessBoard : Pipeline Bench.Media Bench.Unpacker Bench.BenchLauncher :=
  let media := Bench.Media.none.set .mmc (some (claiming 272).bytes)
  let config : BootConfig :=
    { BootConfig.default with spiFlash := some ⟨1024⟩, mmc := some MmcConfig.default }
  (new media (.custom false) config (List.replicate 300 0xFF)).withCrc (Bench.constantChecksum 0)

/-- The second attempt of this board, after one from the flash and the selection of the card. -/
def cardBoot : Record Bench.Media Bench.Unpacker Bench.BenchLauncher :=
  let q := flashlessBoard.after [.boot, .select .mmc]
  ⟨q, .boot, (serve .boot).run q⟩

/-- The attempt from the flash makes one read, and none of the card. The attempt from the card looks
for a table, and then copies from the start of the card. -/
theorem cardBoot_reads_card : cardBoot ∈ flashlessBoard.history [.boot, .select .mmc, .boot] ∧
    (boot.run flashlessBoard).reads = [(.spiFlash, 1024, 272)] ∧
    TableCopyReads .mmc cardBoot.ran.reads ∧
    cardBoot.ran.reads = [(.mmc, 512, 512), (.mmc, 0, 272), (.mmc, 0, 272)] := by
  have hmem : cardBoot ∈ flashlessBoard.history [.boot, .select .mmc, .boot] :=
    List.mem_cons_of_mem _ (List.mem_cons_of_mem _ List.mem_cons_self)
  obtain ⟨hconfig, hboot, -⟩ := history_reads_selected flashlessBoard [.boot, .select .mmc, .boot]
    hmem
  have huse : cardBoot.before.config.mmc = some MmcConfig.default := congrArg BootConfig.mmc hconfig
  have hselected : cardBoot.before.selected = some .mmc := by decide +kernel
  exact ⟨hmem, by decide +kernel, (hboot rfl).mmc hselected _ huse, by decide +kernel⟩

end Pipeline

end BootImage
