import BootImage.Proofs.CopyAnswers
import BootImage.Proofs.PartitionTable

/-!
# A lookup depends on the answers to its reads

A lookup reads whole blocks, each from an offset that is a multiple of a block. On two devices of
different kinds that answer such reads alike (`Device.BlocksAlike`) it therefore finds the same
partition, or fails for the same cause. The devices may put a fault in different words, which are
logged, so what is compared are results and reads and not the whole of the traces.

* `Ran.Matches` — two runs with alike states, the same reads and the same or related values, and how
  this composes (`Ran.Matches.bind`).
* `EntryArray.walk_matches` — the walk over the entries, by induction on the blocks that are left.
* `findPartition_matches` — the lookup as a whole.
-/

namespace BootImage

open Attempt

/-! ### Runs on states of two kinds -/

/-- Two runs that leave alike states and made the same reads, and that stop for the same reason or
have related values. -/
inductive Ran.Matches {σ τ α β : Type} (alike : σ → τ → Prop) (both : α → β → Prop) :
    Ran σ α → Ran τ β → Prop
  | ok {a : α} {b : β} {t t' : List Event} {s : σ} {s' : τ} (hs : alike s s') (ha : both a b)
      (ht : t.filterMap Event.read? = t'.filterMap Event.read?) :
      Matches alike both ⟨.ok a, t, s⟩ ⟨.ok b, t', s'⟩
  | stopped {why : Stop} {t t' : List Event} {s : σ} {s' : τ} (hs : alike s s')
      (ht : t.filterMap Event.read? = t'.filterMap Event.read?) :
      Matches alike both ⟨.error why, t, s⟩ ⟨.error why, t', s'⟩

namespace Ran.Matches

variable {σ τ α β α' β' : Type} {alike : σ → τ → Prop} {both : α → β → Prop}
  {r : Ran σ α} {r' : Ran τ β}

/-- Runs that match make the same reads. -/
theorem reads (h : r.Matches alike both r') : r.reads = r'.reads := by
  cases h with
  | ok hs ha ht => exact ht
  | stopped hs ht => exact ht

/-- Matching runs whose values are equal have equal results. -/
theorem result {r' : Ran τ α} (h : r.Matches alike Eq r') : r.result = r'.result := by
  cases h with
  | ok hs ha ht => exact congrArg Except.ok ha
  | stopped hs ht => rfl

/-- Runs go on matching when the same reads come before them. -/
theorem prepend (h : r.Matches alike both r') (t t' : List Event)
    (ht : t.filterMap Event.read? = t'.filterMap Event.read?) :
    Matches alike both ⟨r.result, t ++ r.trace, r.state⟩ ⟨r'.result, t' ++ r'.trace, r'.state⟩ := by
  cases h with
  | ok hs ha htail =>
    exact .ok hs ha (by rw [List.filterMap_append, List.filterMap_append, ht, htail])
  | stopped hs htail =>
    exact .stopped hs (by rw [List.filterMap_append, List.filterMap_append, ht, htail])

/-- **Composition.** The second parts go on from alike states with related values. -/
theorem bind {x : Attempt σ α} {x' : Attempt τ β} {f : α → Attempt σ α'} {f' : β → Attempt τ β'}
    {s : σ} {s' : τ} {both' : α' → β' → Prop} (hx : (x.run s).Matches alike both (x'.run s'))
    (hf : ∀ a b s s', alike s s' → both a b → ((f a).run s).Matches alike both' ((f' b).run s')) :
    ((x >>= f).run s).Matches alike both' ((x' >>= f').run s') := by
  rw [run_bind, run_bind]
  generalize x.run s = r, x'.run s' = r' at hx
  cases hx with
  | @ok a b t t' s s' hs ha ht =>
    rw [continueWith_ok, continueWith_ok]
    exact (hf a b s s' hs ha).prepend t t' ht
  | stopped hs ht =>
    rw [continueWith_error, continueWith_error]
    exact .stopped hs ht

/-- Runs with an accumulator that end with the same one. -/
theorem accumulating {ω : Type} {initial : ω} {x : Attempt (σ × ω) α} {x' : Attempt (τ × ω) α}
    {s : σ} {s' : τ}
    (h : (x.run (s, initial)).Matches (fun st st' => alike st.1 st'.1 ∧ st.2 = st'.2) Eq
      (x'.run (s', initial))) :
    ((Attempt.accumulating initial x).run s).Matches alike Eq
      ((Attempt.accumulating initial x').run s') := by
  rw [run_accumulating, run_accumulating]
  generalize x.run (s, initial) = r, x'.run (s', initial) = r' at h
  cases h with
  | ok hs ha ht => exact .ok hs.1 (congrArg₂ Prod.mk ha hs.2) ht
  | stopped hs ht => exact .stopped hs.1 ht

end Ran.Matches

/-! ### Reads of whole blocks -/

variable {δ δ' ω : Type} [Device δ] [Device δ']

/-- Devices that are alike answer the read of a block of a medium alike, and stay alike. -/
structure Device.BlocksAlike (medium : BlockMedium) (alike : δ → δ' → Prop) : Prop where
  answer : ∀ {d d'}, alike d d' → ∀ {offset buffer}, blockSize ∣ offset →
    buffer.length = blockSize → (read d medium offset buffer).Like (read d' medium offset buffer)
  next : ∀ {d d'}, alike d d' → ∀ {offset buffer}, blockSize ∣ offset →
    buffer.length = blockSize →
      alike (read d medium offset buffer).device (read d' medium offset buffer).device

/-- Reads that both gave a block, which is the same one, or that both failed. -/
inductive Device.SameBlock : Bytes × Option String → Bytes × Option String → Prop
  | read {block : Bytes} (hlen : block.length = blockSize) : SameBlock (block, none) (block, none)
  | failed (buffer buffer' : Bytes) (fault fault' : String) :
      SameBlock (buffer, some fault) (buffer', some fault')

omit [Device δ] [Device δ'] in
/-- Like answers to the read of a block. -/
theorem ReadAnswer.Like.sameBlock {a : ReadAnswer δ} {a' : ReadAnswer δ'} (h : a.Like a')
    (hlen : a.buffer.length = blockSize) :
    Device.SameBlock (a.buffer, a.fault) (a'.buffer, a'.fault) := by
  rcases hfault : a.fault with _ | fault
  · rw [h.fault.mp hfault, ← h.buffer]
    exact .read hlen
  · rcases hfault' : a'.fault with _ | fault'
    · cases hfault.symm.trans (h.fault.mpr hfault')
    · exact .failed _ _ fault fault'

section lookup

variable {medium : BlockMedium} {alike : δ → δ' → Prop}
  (hblocks : Device.BlocksAlike medium alike)

include hblocks

/-- Reads of whole blocks match. -/
theorem Device.fetch_matches {d : δ} {d' : δ'} (hd : alike d d') {offset : Nat} {buffer : Bytes}
    (hoffset : blockSize ∣ offset) (hbuffer : buffer.length = blockSize) :
    ((fetch medium offset buffer).run d).Matches alike SameBlock
      ((fetch medium offset buffer).run d') := by
  have hlike := hblocks.answer hd hoffset hbuffer
  rw [run_fetch, run_fetch]
  refine .ok (hblocks.next hd hoffset hbuffer) (hlike.sameBlock ?_) rfl
  exact (length_read d medium offset buffer).trans hbuffer

/-- So do reads of the header of a table. -/
theorem TableHeader.read_matches {d : δ} {d' : δ'} (hd : alike d d') :
    ((TableHeader.read medium).run d).Matches alike Eq ((TableHeader.read medium).run d') := by
  unfold TableHeader.read
  refine (Device.fetch_matches hblocks hd (Nat.dvd_refl _) List.length_replicate).bind ?_
  intro a a' d d' hd hblock
  cases hblock with
  | failed => exact .stopped hd rfl
  | @read block hlen =>
    have hcut : ∀ {σ : Type}, (cut block TableHeader.size : Attempt σ Bytes) =
        pure (block.take TableHeader.size) := fun {_} => cut_of_le (hlen ▸ by decide)
    simp only [hcut, pure_bind]
    exact .ok hd rfl rfl

omit [Device δ] [Device δ'] hblocks in
/-- So do the checks of one header. -/
theorem TableHeader.check_matches (h : TableHeader) {d : δ} {d' : δ'} (hd : alike d d') :
    ((h.check : Attempt δ Bool).run d).Matches alike Eq ((h.check : Attempt δ' Bool).run d') := by
  unfold TableHeader.check
  split_ifs <;> exact .ok hd rfl rfl

/-- Walks over the blocks, by induction on how many are left. The block after one whose offset is a
multiple of a block is at such an offset again. -/
theorem EntryArray.walk_matches {array : EntryArray} (hmedium : array.medium = medium)
    (hfits : array.Fits) (visit : ω → PartitionEntry → ω) (blocks : Nat) {remaining offset : Nat}
    {register : UInt32} {buffer : Bytes} (hoffset : blockSize ∣ offset)
    (hbuffer : buffer.length = blockSize) {s : δ × ω} {s' : δ' × ω}
    (hs : alike s.1 s'.1 ∧ s.2 = s'.2) :
    ((array.walk visit blocks remaining offset register buffer).run s).Matches
      (fun st st' => alike st.1 st'.1 ∧ st.2 = st'.2) Eq
      ((array.walk visit blocks remaining offset register buffer).run s') := by
  induction blocks generalizing remaining offset register buffer s s' with
  | zero => exact .ok hs rfl rfl
  | succ blocks ih =>
    obtain ⟨d, collected⟩ := s
    obtain ⟨d', collected'⟩ := s'
    obtain ⟨hd, rfl⟩ : alike d d' ∧ collected = collected' := hs
    have hnext := hblocks.next hd hoffset hbuffer
    have hblock := (hblocks.answer hd hoffset hbuffer).sameBlock
      ((Device.length_read d medium offset buffer).trans hbuffer)
    rw [run_walk_succ hfits _ _ _ _ hbuffer, run_walk_succ hfits _ _ _ _ hbuffer, hmedium,
      continueWith_ok, continueWith_ok]
    refine Ran.Matches.prepend ?_ _ _ rfl
    generalize Device.read d medium offset buffer = answer at hnext hblock
    generalize Device.read d' medium offset buffer = answer' at hnext hblock
    obtain ⟨fault, block, d⟩ := answer
    obtain ⟨fault', block', d'⟩ := answer'
    cases hblock with
    | failed => exact .stopped ⟨hnext, rfl⟩ rfl
    | read hlen =>
      refine Ran.Matches.prepend ?_ [] [] rfl
      unfold nextBlock
      split_ifs
      · exact ih (Nat.dvd_add hoffset (Nat.dvd_refl _)) hlen ⟨hnext, rfl⟩
      · exact .stopped ⟨hnext, rfl⟩ rfl

/-- So do visits of the entries. -/
theorem TableHeader.visitEntries_matches (h : TableHeader) (visit : ω → PartitionEntry → ω)
    {s : δ × ω} {s' : δ' × ω} (hs : alike s.1 s'.1 ∧ s.2 = s'.2) :
    ((h.visitEntries medium visit).run s).Matches (fun st st' => alike st.1 st'.1 ∧ st.2 = st'.2) Eq
      ((h.visitEntries medium visit).run s') := by
  rw [visitEntries_eq, visitEntries_eq]
  split_ifs with hlayout
  · refine Ran.Matches.bind (EntryArray.walk_matches hblocks rfl (fits_array hlayout medium) visit _
      (Nat.dvd_mul_left _ _) List.length_replicate hs) ?_
    rintro register _ s s' hs rfl
    split_ifs
    · exact .ok hs rfl rfl
    · exact .stopped hs rfl
  · exact .stopped hs rfl
  · exact .stopped hs rfl
  · exact .stopped hs rfl

/-- **Lookups on two devices that answer reads of whole blocks alike have the same result and make
the same reads.** -/
theorem findPartition_matches (partitionType : Guid) {d : δ} {d' : δ'} (hd : alike d d') :
    ((findPartition medium partitionType).run d).Matches alike Eq
      ((findPartition medium partitionType).run d') := by
  unfold findPartition
  refine (TableHeader.read_matches hblocks hd).bind ?_
  rintro header _ d d' hd rfl
  refine (header.check_matches hd).bind ?_
  rintro accepted _ d d' hd rfl
  cases accepted with
  | false => exact .stopped hd rfl
  | true =>
    have hvisit : Ran.Matches (fun st st' => alike st.1 st'.1 ∧ st.2 = st'.2) Eq
        ((header.visitEntries medium (Extent.keepFirst partitionType)).run (d, none))
        ((header.visitEntries medium (Extent.keepFirst partitionType)).run (d', none)) :=
      header.visitEntries_matches hblocks _ ⟨hd, rfl⟩
    refine hvisit.accumulating.bind ?_
    rintro ⟨_, found⟩ _ d d' hd rfl
    cases found with
    | none => exact .stopped hd rfl
    | some extent => exact .ok hd rfl rfl

end lookup

end BootImage
