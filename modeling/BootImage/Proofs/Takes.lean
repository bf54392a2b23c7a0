import BootImage.Proofs.NumberForm

/-!
# What a reader takes

A reader takes off a string what it reads, and leaves the rest. `Takes` says of a reader which
strings it takes off as which value, and in which it finds a malformed number, without saying how it
goes about it. Both compose as readers do, so what a reader takes is put together from what its
parts take.

* `Takes.bind`, `Takes.choose` — one part after the other, and a value that is made of what was
  read.
* `takes_nat32`, `takes_option`, `takes_guid` — numbers, optional values and identifiers, and the
  forms that these have.
* `OptionForm.shortest` — the form that is written of an optional value, if that of the value is the
  shortest.
-/

namespace BootImage

namespace Wire

variable {α β : Type}

/-- What a reader makes of strings: it takes off the forms of values, and those only, and it finds a
malformed number in the strings that are told, and in those only. -/
structure Takes (reader : Reader α) (form : α → Bytes → Prop) (malformed : Bytes → Prop) :
    Prop where
  ok_iff : ∀ s a rest, reader.run s = .ok (a, rest) ↔ ∃ u, form a u ∧ s = u ++ rest
  badVarint_iff : ∀ s, reader.run s = .error .badVarint ↔ malformed s

/-! ### Composition -/

/-- The forms may be said in other words. -/
theorem Takes.congr {reader : Reader α} {form form' : α → Bytes → Prop}
    {malformed malformed' : Bytes → Prop} (h : Takes reader form malformed)
    (hform : ∀ a u, form a u ↔ form' a u) (hmalformed : ∀ s, malformed s ↔ malformed' s) :
    Takes reader form' malformed' where
  ok_iff s a rest := by simp only [h.ok_iff, hform]
  badVarint_iff s := by rw [h.badVarint_iff, hmalformed]

/-- A composition reads what its parts read one after the other. -/
theorem run_bind_eq_ok {x : Reader α} {f : α → Reader β} {s rest : Bytes} {b : β} :
    (x >>= f).run s = .ok (b, rest) ↔
      ∃ a s', x.run s = .ok (a, s') ∧ (f a).run s' = .ok (b, rest) := by
  rw [StateT.run_bind]
  rcases x.run s with e | ⟨a, s'⟩
  · exact ⟨fun h => (nomatch h), fun ⟨_, _, h, _⟩ => (nomatch h)⟩
  · exact ⟨fun h => ⟨a, s', rfl, h⟩, fun ⟨_, _, h, h'⟩ => by cases h; exact h'⟩

/-- It fails where the first part does, or where the second part does after it. -/
theorem run_bind_eq_error {x : Reader α} {f : α → Reader β} {s : Bytes} {e : WireError} :
    (x >>= f).run s = .error e ↔
      x.run s = .error e ∨ ∃ a s', x.run s = .ok (a, s') ∧ (f a).run s' = .error e := by
  rw [StateT.run_bind]
  rcases x.run s with e' | ⟨a, s'⟩
  · show (Except.error e' : Except WireError (β × Bytes)) = .error e ↔ _
    constructor
    · intro h
      cases h
      exact .inl rfl
    · rintro (h | ⟨_, _, h, _⟩)
      · cases h
        rfl
      · cases h
  · refine ⟨fun h => .inr ⟨a, s', rfl, h⟩, ?_⟩
    rintro (h | ⟨_, _, h, h'⟩)
    · cases h
    · cases h
      exact h'

/-- **Composition.** One part is taken off after the other. A number is malformed in the first part,
or in the second part after a form of the first. -/
theorem Takes.bind {x : Reader α} {f : α → Reader β} {form : α → Bytes → Prop}
    {form' : α → β → Bytes → Prop} {malformed : Bytes → Prop} {malformed' : α → Bytes → Prop}
    (hx : Takes x form malformed) (hf : ∀ a, Takes (f a) (form' a) (malformed' a)) :
    Takes (x >>= f) (fun b u => ∃ a u₁ u₂, form a u₁ ∧ form' a b u₂ ∧ u = u₁ ++ u₂)
      (fun s => malformed s ∨ ∃ a u rest, form a u ∧ malformed' a rest ∧ s = u ++ rest) where
  ok_iff s b rest := by
    simp only [run_bind_eq_ok, hx.ok_iff, (hf _).ok_iff]
    constructor
    · rintro ⟨a, _, ⟨u₁, h₁, rfl⟩, u₂, h₂, rfl⟩
      exact ⟨u₁ ++ u₂, ⟨a, u₁, u₂, h₁, h₂, rfl⟩, (List.append_assoc ..).symm⟩
    · rintro ⟨_, ⟨a, u₁, u₂, h₁, h₂, rfl⟩, rfl⟩
      exact ⟨a, u₂ ++ rest, ⟨u₁, h₁, List.append_assoc ..⟩, u₂, h₂, rfl⟩
  badVarint_iff s := by
    simp only [run_bind_eq_error, hx.ok_iff, hx.badVarint_iff, (hf _).badVarint_iff]
    refine or_congr Iff.rfl ⟨?_, ?_⟩
    · rintro ⟨a, rest, ⟨u, h₁, rfl⟩, h₂⟩
      exact ⟨a, u, rest, h₁, h₂, rfl⟩
    · rintro ⟨a, u, rest, h₁, h₂, rfl⟩
      exact ⟨a, rest, ⟨u, h₁, rfl⟩, h₂⟩

/-- A value that is made of what was read, if it can be made. -/
def orRefuse (e : WireError) : Option β → Reader β
  | some b => pure b
  | none => refuse e

/-- A value that is made of what was read has the forms of what was read. -/
theorem Takes.choose {x : Reader α} {f : α → Reader β} {form : α → Bytes → Prop}
    {malformed : Bytes → Prop} (hx : Takes x form malformed) (make : α → Option β) {e : WireError}
    (he : e ≠ .badVarint) (hf : ∀ a, f a = orRefuse e (make a)) :
    Takes (x >>= f) (fun b u => ∃ a, make a = some b ∧ form a u) malformed := by
  have hstep : ∀ a, Takes (f a) (fun b u => make a = some b ∧ u = []) (fun _ => False) := by
    intro a
    rw [hf]
    cases make a with
    | none =>
      refine ⟨fun s b rest => ⟨fun h => (nomatch h), fun ⟨_, ⟨h, _⟩, _⟩ => (nomatch h)⟩,
        fun s => ?_⟩
      refine ⟨fun h => he ?_, False.elim⟩
      injection h
    | some b =>
      refine ⟨fun s b' rest => ⟨?_, ?_⟩, fun s => ⟨fun h => (nomatch h), False.elim⟩⟩
      · intro h
        cases h
        exact ⟨[], ⟨rfl, rfl⟩, rfl⟩
      · rintro ⟨_, ⟨hb, rfl⟩, rfl⟩
        cases hb
        rfl
  refine (hx.bind hstep).congr (fun b u => ⟨?_, ?_⟩) (fun s => by simp)
  · rintro ⟨a, u₁, _, h, ⟨hmake, rfl⟩, rfl⟩
    exact ⟨a, hmake, by rwa [List.append_nil]⟩
  · rintro ⟨a, hmake, h⟩
    exact ⟨a, u, [], h, ⟨hmake, rfl⟩, (List.append_nil u).symm⟩

/-- The same if it can always be made. -/
theorem Takes.make {x : Reader α} {form : α → Bytes → Prop} {malformed : Bytes → Prop}
    (hx : Takes x form malformed) (g : α → β) :
    Takes (x >>= fun a => pure (g a)) (fun b u => ∃ a, g a = b ∧ form a u) malformed := by
  have hread := hx.choose (f := fun a => pure (g a)) (fun a => some (g a)) (e := .noValue) nofun
    fun _ => rfl
  exact hread.congr (fun b u => by simp only [Option.some.injEq]) fun s => Iff.rfl

/-! ### Bytes, numbers and marks -/

/-- Numbers of 32 bits are taken in any form of up to five bytes. -/
theorem takes_nat32 : Takes nat32 (NumberForm 5 UInt32.size) (Overlong 5 15) where
  ok_iff _ _ _ := nat32_eq_ok
  badVarint_iff _ := varint_eq_badVarint

/-- Numbers of 64 bits are taken in any form of up to ten bytes. -/
theorem takes_nat64 : Takes nat64 (NumberForm 10 UInt64.size) (Overlong 10 1) where
  ok_iff _ _ _ := nat64_eq_ok
  badVarint_iff _ := varint_eq_badVarint

/-- A byte has one form. -/
theorem takes_byte : Takes byte (fun b u => u = [b]) (fun _ => False) where
  ok_iff s b rest := by
    cases s with
    | nil => exact ⟨fun h => (nomatch h), fun ⟨_, hu, h⟩ => by rw [hu] at h; cases h⟩
    | cons c s =>
      constructor
      · intro h
        cases h
        exact ⟨[b], rfl, rfl⟩
      · rintro ⟨_, rfl, h⟩
        cases h
        rfl
  badVarint_iff s := by
    cases s with
    | nil => exact ⟨fun h => (nomatch h), False.elim⟩
    | cons c s => exact ⟨fun h => (nomatch h), False.elim⟩

/-- So have bytes whose number is known. -/
theorem takes_bytes (n : Nat) :
    Takes (bytes n) (fun t u => t.length = n ∧ u = t) (fun _ => False) where
  ok_iff s t rest := by
    constructor
    · intro h
      have h : bytes n s = .ok (t, rest) := h
      unfold bytes at h
      split_ifs at h with hle
      cases h
      exact ⟨_, ⟨List.length_take_of_le hle, rfl⟩, (List.take_append_drop n s).symm⟩
    · rintro ⟨u, ⟨rfl, rfl⟩, rfl⟩
      exact (exact_bytes u).reads rest
  badVarint_iff s := by
    refine ⟨fun h => ?_, False.elim⟩
    have h : bytes n s = .error .badVarint := h
    unfold bytes at h
    split_ifs at h
    cases h

/-- So has a truth value. -/
theorem takes_bool : Takes bool (fun b u => u = ofBool b) (fun _ => False) := by
  have hmarks := takes_byte.choose
    (f := fun b => if b = 0 then pure false else if b = 1 then pure true else refuse .badBool)
    (fun b => if b = 0 then some false else if b = 1 then some true else none)
    (e := .badBool) nofun (fun b => by split_ifs <;> rfl)
  refine hmarks.congr (fun b u => ⟨?_, ?_⟩) fun s => Iff.rfl
  · rintro ⟨c, hc, rfl⟩
    split_ifs at hc with h0 h1
    · cases hc
      rw [h0]
      rfl
    · cases hc
      rw [h1]
      rfl
  · rintro rfl
    cases b with
    | false => exact ⟨0, rfl, rfl⟩
    | true => exact ⟨1, rfl, rfl⟩

/-- The forms of an optional value. -/
inductive OptionForm (form : α → Bytes → Prop) : Option α → Bytes → Prop
  | none : OptionForm form none [0]
  | some {a : α} {u : Bytes} (h : form a u) : OptionForm form (some a) (1 :: u)

/-- The first byte says whether there is a value. -/
theorem run_option_cons (reader : Reader α) (b : UInt8) (s : Bytes) :
    (option reader).run (b :: s) =
      if b = 0 then .ok (none, s)
      else if b = 1 then (reader.run s).map fun p => (some p.1, p.2)
      else .error .badOption := by
  have hrun : (option reader).run (b :: s) =
      (if b = 0 then pure none
        else if b = 1 then reader >>= fun a => pure (some a)
        else refuse .badOption : Reader (Option α)).run s := rfl
  rw [hrun]
  split_ifs
  · rfl
  · rw [StateT.run_bind]
    rcases reader.run s with e | ⟨a, rest⟩ <;> rfl
  · rfl

/-- A mark, and after the mark 1 a value. -/
theorem takes_option {reader : Reader α} {form : α → Bytes → Prop} {malformed : Bytes → Prop}
    (h : Takes reader form malformed) :
    Takes (option reader) (OptionForm form) (fun s => ∃ t, malformed t ∧ s = 1 :: t) where
  ok_iff s o rest := by
    constructor
    · intro hread
      cases s with
      | nil => cases hread
      | cons b s =>
        rw [run_option_cons] at hread
        -- The first byte says none, some, or neither, and the last of these is refused.
        split_ifs at hread with h0 h1
        · cases hread
          exact ⟨[b], h0 ▸ .none, rfl⟩
        · rcases hvalue : reader.run s with e | ⟨a, rest'⟩
          · rw [hvalue] at hread
            cases hread
          · rw [hvalue] at hread
            cases hread
            obtain ⟨u, hu, rfl⟩ := (h.ok_iff _ _ _).mp hvalue
            exact ⟨b :: u, h1 ▸ .some hu, rfl⟩
    · rintro ⟨_, hform, rfl⟩
      cases hform with
      | none => rfl
      | @some a u hu =>
        have hvalue := (h.ok_iff _ _ rest).mpr ⟨u, hu, rfl⟩
        rw [List.cons_append, run_option_cons, if_neg (by decide), if_pos rfl, hvalue]
        rfl
  badVarint_iff s := by
    constructor
    · intro hread
      cases s with
      | nil => cases hread
      | cons b s =>
        rw [run_option_cons] at hread
        split_ifs at hread with h0 h1
        · refine ⟨s, (h.badVarint_iff s).mp ?_, by rw [h1]⟩
          rcases hvalue : reader.run s with e | ⟨a, rest⟩
          · rw [hvalue] at hread
            cases hread
            rfl
          · rw [hvalue] at hread
            cases hread
        · cases hread
    · rintro ⟨t, ht, rfl⟩
      rw [run_option_cons, if_neg (by decide), if_pos rfl, (h.badVarint_iff t).mpr ht]
      rfl

/-- The index of an alternative. -/
theorem takes_oneOf (alternatives : List α) :
    Takes (oneOf alternatives)
      (fun a u => ∃ i, alternatives[i]? = some a ∧ NumberForm 5 UInt32.size i u) (Overlong 5 15) :=
  takes_nat32.choose (fun i => alternatives[i]?) (e := .noValue) nofun
    fun i => by cases alternatives[i]? <;> rfl

/-! ### Identifiers -/

/-- The forms of an identifier: the length of its text, and its text with letters in either case. -/
def GuidForm (g : Guid) (u : Bytes) : Prop :=
  ∃ length text, NumberForm 10 UInt64.size 36 length ∧ text.map toLower = g.text ∧
    u = length ++ text

/-- A text that is an identifier's but for the case of letters is ASCII, and has 36 bytes. -/
theorem isAscii_of_toLower {s : Bytes} {g : Guid} (h : s.map toLower = g.text) : IsAscii s := by
  intro b hb
  have hlower : (toLower b).toNat < 128 := g.isAscii_text _ (h ▸ List.mem_map_of_mem hb)
  unfold toLower at hlower
  split_ifs at hlower with hupper
  · rw [toNat_add_of_upper hupper] at hlower
    omega
  · exact hlower

/-- What is the text of a GUID but for case has 36 bytes. -/
theorem length_of_toLower {s : Bytes} {g : Guid} (h : s.map toLower = g.text) : s.length = 36 := by
  rw [← List.length_map (f := toLower), h, g.length_text]

/-- A text has its length in front, in any form. -/
theorem takes_text : Takes text
    (fun s u => ∃ length, NumberForm 10 UInt64.size s.length length ∧ (Utf8.decode? s).isSome ∧
      u = length ++ s) (Overlong 10 1) := by
  refine Takes.congr (takes_nat64.bind fun n =>
    (takes_bytes n).choose (fun t => (Utf8.decode? t).map fun _ => t) (e := .badUtf8) nofun
      fun t => ?_) (fun s u => ⟨?_, ?_⟩) (fun s => ?_)
  · cases Utf8.decode? t <;> rfl
  · rintro ⟨n, length, _, hlength, ⟨t, hs, rfl, rfl⟩, rfl⟩
    obtain ⟨cs, hcs, rfl⟩ := Option.map_eq_some_iff.mp hs
    exact ⟨length, hlength, by rw [hcs]; rfl, rfl⟩
  · rintro ⟨length, hlength, hdecode, rfl⟩
    obtain ⟨cs, hcs⟩ := Option.isSome_iff_exists.mp hdecode
    exact ⟨s.length, length, s, hlength, ⟨s, by rw [hcs]; rfl, rfl, rfl⟩, rfl⟩
  · simp

/-- A GUID may be written in either case. -/
theorem takes_guid : Takes guid GuidForm (Overlong 10 1) := by
  refine Takes.congr (takes_text.choose Guid.ofText? (e := .noValue) nofun fun s => ?_)
    (fun g u => ⟨?_, ?_⟩) (fun s => Iff.rfl)
  · cases Guid.ofText? s <;> rfl
  · rintro ⟨s, hs, length, hlength, -, rfl⟩
    have htext := Guid.ofText?_eq_some.mp hs
    rw [length_of_toLower htext] at hlength
    exact ⟨length, s, hlength, htext, rfl⟩
  · rintro ⟨length, s, hlength, htext, rfl⟩
    obtain ⟨cs, hcs⟩ := Utf8.run_of_isAscii (isAscii_of_toLower htext)
    refine ⟨s, Guid.ofText?_eq_some.mpr htext, length, ?_, ?_, rfl⟩
    · rwa [length_of_toLower htext]
    · rw [Utf8.decode?, hcs]
      rfl

/-! ### The shortest form -/

/-- The form that is written of a value is not longer than any other, and another one that is not
longer is like it. -/
def Shortest (form : α → Bytes → Prop) (write : α → Bytes) (alike : α → Bytes → Prop) : Prop :=
  ∀ a u, form a u → (write a).length ≤ u.length ∧ ((write a).length = u.length → alike a u)

/-- An optional value is written as short as its value is. -/
theorem OptionForm.shortest {form alike : α → Bytes → Prop} {write : α → Bytes}
    (h : Shortest form write alike) :
    Shortest (OptionForm form) (ofOption write) (OptionForm alike) := by
  intro o u ho
  cases ho with
  | none => exact ⟨Nat.le_refl _, fun _ => .none⟩
  | some hform =>
    obtain ⟨hle, halike⟩ := h _ _ hform
    exact ⟨Nat.succ_le_succ hle, fun hlen => .some (halike (Nat.succ.inj hlen))⟩

/-- An optional value whose value is as it is written is as it is written. -/
theorem OptionForm.eq_ofOption {write : α → Bytes} {o : Option α} {u : Bytes}
    (h : OptionForm (fun a u => u = write a) o u) : u = ofOption write o := by
  cases h with
  | none => rfl
  | some h => rw [h, ofOption]

end Wire

end BootImage
