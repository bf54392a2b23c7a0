import BootImage.Json.Object
import BootImage.Proofs.JsonTokens
import Mathlib.Data.List.Pairwise
import Mathlib.Data.List.Perm.Basic

/-!
# JSON objects with their members in any order

An object is written by its wanted members and by members with other names, in any order
(`Json.IsObject`). Reading it goes through drafts: each member has a slot (`Json.Slot`), which says
what it puts in the draft and that the draft must lack it before. Slots are apart if the order in
which they are filled does not matter (`Json.Slot.Apart`), and slots that are apart end in the same
draft in any order.

* `Json.run_members` — the loop over the members, by induction on them.
* `Json.reads_object` — so an object is read as what its wanted members say.
-/

namespace BootImage.Json

variable {ρ α : Type}

/-! ### How objects are written -/

/-- A member as it is written: what stands between the quotes of its key, and the tokens of its
value. -/
structure Member where
  key : Bytes
  value : List Bytes
  deriving DecidableEq

/-- The tokens of a member. -/
def Member.tokens (m : Member) : List Bytes := quoted m.key :: [ascii ':'] :: m.value

/-- The comma before a member, unless it is the first. -/
def separator (first : Bool) : List Bytes := if first then [] else [[ascii ',']]

/-- The tokens of an object after its opening bracket, or after its first members. -/
def tokensFrom (first : Bool) : List Member → List Bytes
  | [] => [[closeBrace]]
  | m :: ms => separator first ++ (m.tokens ++ tokensFrom false ms)

/-- The tokens of an object. -/
def objectTokens (ms : List Member) : List Bytes := [openBrace] :: tokensFrom true ms

/-- A wanted member: its name, and the tokens that may be its value. -/
structure Field where
  name : Bytes
  value : List Bytes → Prop

/-- A member that is a wanted one. Its name may be written with escapes. -/
structure Member.Writes (f : Field) (m : Member) : Prop where
  name : Means m.key f.name
  value : f.value m.value

/-- A member with another name than these, and with a value that can be passed over. -/
def Member.Foreign (known : List Bytes) (m : Member) : Prop :=
  (∃ name, Means m.key name ∧ name ∉ known) ∧ ∃ token, Scalar token ∧ m.value = [token]

/-- The tokens of an object with these wanted members, and any number of members with names other
than the known ones, in any order. -/
def IsObject (known : List Bytes) (fields : List Field) (tokens : List Bytes) : Prop :=
  ∃ members written foreign : List Member, members.Perm (written ++ foreign) ∧
    List.Forall₂ (fun f m => m.Writes f) fields written ∧ (∀ m ∈ foreign, m.Foreign known) ∧
      tokens = objectTokens members

/-- A member as it is written without escapes. -/
def Member.plain (m : String × List Bytes) : Member := ⟨asciiText m.1, m.2⟩

/-- The tokens of a plain member are its text. -/
theorem flatten_tokens_plain (m : String × List Bytes) :
    (Member.plain m).tokens.flatten = ofMember (m.1, m.2.flatten) := by
  simp [Member.plain, Member.tokens, ofMember]

/-- Members and the closing bracket, by induction on the members: all but the last are followed by
a comma. -/
theorem flatten_tokensFrom (ms : List (String × List Bytes)) :
    (tokensFrom true (ms.map Member.plain)).flatten =
      (((ms.map fun m => (m.1, m.2.flatten)).map ofMember).intersperse [ascii ',']).flatten ++
        [closeBrace] := by
  induction ms with
  | nil => rfl
  | cons m ms ih =>
    cases ms with
    | nil => simp [tokensFrom, separator, flatten_tokens_plain]
    | cons m' ms =>
      have hnext : tokensFrom false ((m' :: ms).map Member.plain) =
          [ascii ','] :: tokensFrom true ((m' :: ms).map Member.plain) := rfl
      rw [List.map_cons, tokensFrom, hnext]
      simp only [separator, if_true, List.nil_append, List.flatten_append, List.flatten_cons, ih,
        flatten_tokens_plain]
      simp only [List.map_cons, List.intersperse_cons_cons, List.flatten_cons, List.append_assoc]

/-- **The tokens of an object without blanks are the object as it is written.** -/
theorem flatten_objectTokens (ms : List (String × List Bytes)) :
    (objectTokens (ms.map Member.plain)).flatten =
      ofObject (ms.map fun m => (m.1, m.2.flatten)) := by
  rw [objectTokens, List.flatten_cons, flatten_tokensFrom, ofObject]
  rfl

/-- Wanted members in their order, and no others, are an object. -/
theorem isObject_of_written {known : List Bytes} {fields : List Field} {ms : List Member}
    (h : List.Forall₂ (fun f m => m.Writes f) fields ms) :
    IsObject known fields (objectTokens ms) :=
  ⟨ms, ms, [], by rw [List.append_nil], h, List.forall_mem_nil _, rfl⟩

/-! ### Slots -/

/-- What a member does to a draft. -/
structure Slot (ρ : Type) where
  /-- Puts the member's value in. -/
  put : ρ → ρ
  /-- The draft does not have the member yet. -/
  lacks : ρ → Prop

namespace Slot

/-- Members that nobody wants do nothing. -/
def idle : Slot ρ := ⟨id, fun _ => True⟩

/-- It does not matter which of the two is filled first. -/
structure Apart (p q : Slot ρ) : Prop where
  comm : ∀ d, p.put (q.put d) = q.put (p.put d)
  left : ∀ d, p.lacks d → p.lacks (q.put d)
  right : ∀ d, q.lacks d → q.lacks (p.put d)

/-- It does not matter which of two slots is named first. -/
theorem Apart.symm {p q : Slot ρ} (h : p.Apart q) : q.Apart p :=
  ⟨fun d => (h.comm d).symm, h.right, h.left⟩

/-- A slot for nothing is in no other slot's way. -/
theorem apart_idle (p : Slot ρ) : p.Apart idle := ⟨fun _ => rfl, fun _ h => h, fun _ h => h⟩

/-- The draft with all the slots filled, one after the other. -/
def fill (slots : List (Slot ρ)) (d : ρ) : ρ := slots.foldl (fun d slot => slot.put d) d

/-- Slots that are apart commute, each with itself too. -/
theorem comm_of_mem {slots : List (Slot ρ)} (hapart : slots.Pairwise Apart) {p q : Slot ρ}
    (hp : p ∈ slots) (hq : q ∈ slots) (d : ρ) : p.put (q.put d) = q.put (p.put d) := by
  by_cases heq : p = q
  · rw [heq]
  · have hsymm : Std.Symm (Apart (ρ := ρ)) := ⟨fun _ _ => Apart.symm⟩
    exact (hapart.forall hp hq heq).comm d

/-- **Slots that are apart come to the same draft in any order.** -/
theorem fill_perm {slots slots' : List (Slot ρ)} (hperm : slots'.Perm slots)
    (hapart : slots.Pairwise Apart) (d : ρ) : fill slots' d = fill slots d := by
  apply hperm.foldl_eq'
  intro p hp q hq d
  exact comm_of_mem hapart (hperm.subset hq) (hperm.subset hp) d

/-- Slots for nothing leave a draft as it is. -/
theorem fill_idle (n : Nat) (d : ρ) : fill (List.replicate n idle) d = d := by
  induction n with
  | zero => rfl
  | succ n ih => exact ih

/-- Members that nobody wants change nothing. -/
theorem fill_append_idle (slots : List (Slot ρ)) (n : Nat) (d : ρ) :
    fill (slots ++ List.replicate n idle) d = fill slots d := by
  rw [fill, List.foldl_append]
  exact fill_idle n _

/-- Members that nobody wants are apart from all others. -/
theorem pairwise_append_idle {slots : List (Slot ρ)} (hapart : slots.Pairwise Apart) (n : Nat) :
    (slots ++ List.replicate n idle).Pairwise Apart := by
  refine List.pairwise_append.mpr ⟨hapart, ?_, ?_⟩
  · exact List.pairwise_replicate.mpr (.inr (apart_idle idle))
  · intro p _ q hq
    rw [List.eq_of_mem_replicate hq]
    exact apart_idle p

end Slot

/-! ### Reading the members -/

/-- The member is read into this slot of any draft that lacks it. -/
def Accepts (member : ρ → Bytes → Reader ρ) (m : Member) (slot : Slot ρ) : Prop :=
  ∃ name, Means m.key name ∧
    ∀ d, slot.lacks d → Reads (member d name) ([ascii ':'] :: m.value) (slot.put d)

section members

variable {member : ρ → Bytes → Reader ρ}

/-- After a member comes a comma or the closing bracket, which do not go on with a number. -/
theorem delimited_tokensFrom {ms : List Member} {s : Bytes} (h : Spaced (tokensFrom false ms) s)
    (rest : Bytes) : Delimited (s ++ rest) := by
  have hfirst : ∃ b tail, tokensFrom false ms = [b] :: tail ∧
      (b = ascii ',' ∨ b = closeBrace) := by
    cases ms with
    | nil => exact ⟨closeBrace, [], rfl, .inr rfl⟩
    | cons m ms => exact ⟨ascii ',', m.tokens ++ tokensFrom false ms, rfl, .inl rfl⟩
  obtain ⟨b, tail, htokens, hb⟩ := hfirst
  rw [htokens] at h
  cases h with
  | @cons blanks _ s _ hblanks h =>
    intro c hc
    rcases blanks with _ | ⟨blank, blanks⟩
    · obtain rfl : b = c := by simpa using hc
      rcases hb with rfl | rfl <;> decide
    · exact hblanks.delimited c hc

/-- The key of the next member, after a comma unless it is the first. -/
theorem run_nextKey {first : Bool} {key name s : Bytes} (hname : Means key name)
    (hs : Spaced (separator first ++ [quoted key]) s) (rest : Bytes) :
    (nextKey first).run (s ++ rest) = .ok (some name, rest) := by
  have hbody : (do return some (← stringBody false) : Reader (Option Bytes)).run
      (key ++ ascii '"' :: rest) = .ok (some name, rest) := by
    rw [run_bind_of_ok (stringBody_of_means hname rest)]
    rfl
  cases first with
  | true =>
    obtain ⟨blanks, hblanks, rfl⟩ := spaced_singleton hs
    have htext : blanks ++ quoted key ++ rest =
        blanks ++ ascii '"' :: (key ++ ascii '"' :: rest) := by
      simp [quoted]
    rw [htext, nextKey]
    exact (run_bind_of_ok (run_skipBlank hblanks (by decide))).trans hbody
  | false =>
    obtain ⟨before, after, rfl, hcomma, hkey⟩ := hs.split
    obtain ⟨blanks, hblanks, rfl⟩ := spaced_singleton hcomma
    obtain ⟨blanks', hblanks', rfl⟩ := spaced_singleton hkey
    have htext : blanks ++ [ascii ','] ++ (blanks' ++ quoted key) ++ rest =
        blanks ++ ascii ',' :: (blanks' ++ ascii '"' :: (key ++ ascii '"' :: rest)) := by
      simp [quoted]
    rw [htext, nextKey, run_bind_of_ok (run_skipBlank hblanks (by decide)),
      run_bind_of_ok (run_peek _ _), if_neg (by decide : ascii ',' ≠ closeBrace)]
    dsimp only
    rw [if_pos Bool.false_ne_true, run_bind_of_ok (run_expect _ _),
      run_bind_of_ok (run_skipBlank hblanks' (by decide)), run_bind_of_ok (run_expect _ _)]
    exact hbody

/-- The closing bracket. -/
theorem run_nextKey_end {first : Bool} {blanks : Bytes} (hblanks : Blank blanks) (rest : Bytes) :
    (nextKey first).run (blanks ++ closeBrace :: rest) = .ok (none, rest) := by
  rw [nextKey]
  exact run_bind_of_ok (run_skipBlank hblanks (by decide))

/-- **The members are read one after the other**, by induction on them. -/
theorem run_members {ms : List Member} {slots : List (Slot ρ)}
    (hms : List.Forall₂ (Accepts member) ms slots) (hapart : slots.Pairwise Slot.Apart) {d : ρ}
    (hlacks : ∀ slot ∈ slots, slot.lacks d) {first : Bool} {s : Bytes}
    (hs : Spaced (tokensFrom first ms) s) (rest : Bytes) :
    members member first d (s ++ rest) = .ok (Slot.fill slots d, rest) := by
  induction hms generalizing d first s with
  | nil =>
    obtain ⟨blanks, hblanks, rfl⟩ := spaced_singleton hs
    have hend : nextKey first (blanks ++ closeBrace :: rest) = .ok (none, rest) :=
      run_nextKey_end hblanks rest
    rw [List.append_assoc, List.singleton_append, members, hend]
    rfl
  | @cons m slot ms slots hm _ ih =>
    obtain ⟨name, hname, hreads⟩ := hm
    obtain ⟨hfirst, hrest⟩ := List.pairwise_cons.mp hapart
    have htokens : tokensFrom first (m :: ms) = (separator first ++ [quoted m.key]) ++
        (([ascii ':'] :: m.value) ++ tokensFrom false ms) := by
      simp [tokensFrom, Member.tokens]
    rw [htokens] at hs
    obtain ⟨key, after, rfl, hkey, hafter⟩ := hs.split
    obtain ⟨value, s, rfl, hvalue, hs⟩ := hafter.split
    have hpositive : (quoted m.key).length ≤ key.length := hkey.length_le (by simp)
    have hquoted : (quoted m.key).length = m.key.length + 2 := by simp [quoted]
    have hnext : nextKey first (key ++ (value ++ (s ++ rest))) =
        .ok (some name, value ++ (s ++ rest)) := run_nextKey hname hkey _
    have hmember : member d name (value ++ (s ++ rest)) = .ok (slot.put d, s ++ rest) :=
      hreads d (hlacks slot List.mem_cons_self) value (s ++ rest) hvalue
        (delimited_tokensFrom hs rest)
    have hlen : (s ++ rest).length < (key ++ (value ++ (s ++ rest))).length := by
      simp only [List.length_append]
      omega
    have hlacks' : ∀ other ∈ slots, other.lacks (slot.put d) := fun other hother =>
      (hfirst other hother).right d (hlacks other (List.mem_cons_of_mem _ hother))
    rw [List.append_assoc, List.append_assoc, members, hnext]
    simp only [hmember, hlen, if_true]
    exact ih hrest hlacks' hs

end members

/-! ### Reading an object -/

/-- A colon, a value, and what is made of the value. -/
theorem reads_colon {value : Reader α} {tokens : List Bytes} {a : α} (h : Reads value tokens a)
    (f : α → ρ) :
    Reads (do colon; return f (← value) : Reader ρ) ([ascii ':'] :: tokens) (f a) := by
  intro s rest hs hrest
  cases hs with
  | @cons blanks _ s _ hblanks hs =>
    have htext : blanks ++ ([ascii ':'] ++ s) ++ rest = blanks ++ ascii ':' :: (s ++ rest) := by
      simp
    rw [htext, run_bind_of_ok (run_colon hblanks _), run_bind_of_ok (h s rest hs hrest)]
    rfl

/-- The value of a member that was not read before. -/
theorem reads_once {value : Reader α} {tokens : List Bytes} {a : α} (h : Reads value tokens a)
    {before : Option α} (hbefore : before = none) (put : α → ρ) :
    Reads (once before value put) ([ascii ':'] :: tokens) (put a) := by
  subst hbefore
  exact reads_colon h put

/-- A member that nobody wants. -/
theorem reads_ignored {token : Bytes} (h : Scalar token) (d : ρ) :
    Reads (ignored d) [[ascii ':'], token] d := reads_colon (reads_skipValue h) fun _ => d

/-- A wanted member is read into this slot, whatever else is in the draft. -/
def Field.Fills (member : ρ → Bytes → Reader ρ) (f : Field) (slot : Slot ρ) : Prop :=
  ∀ value, f.value value → ∀ d, slot.lacks d →
    Reads (member d f.name) ([ascii ':'] :: value) (slot.put d)

/-- Wanted members are read into their slots. -/
theorem accepts_written {member : ρ → Bytes → Reader ρ} {fields : List Field}
    {slots : List (Slot ρ)} {written : List Member}
    (hfields : List.Forall₂ (Field.Fills member) fields slots)
    (hwritten : List.Forall₂ (fun f m => m.Writes f) fields written) :
    List.Forall₂ (Accepts member) written slots := by
  induction hfields generalizing written with
  | nil =>
    cases hwritten
    exact .nil
  | cons hfield _ ih =>
    cases hwritten with
    | cons hwrites hwritten =>
      exact .cons ⟨_, hwrites.name, hfield _ hwrites.value⟩ (ih hwritten)

/-- Other members leave every draft as it is. -/
theorem accepts_foreign {member : ρ → Bytes → Reader ρ} {known : List Bytes}
    (hforeign : ∀ d, ∀ name ∉ known, member d name = ignored d) {ms : List Member}
    (hms : ∀ m ∈ ms, m.Foreign known) :
    List.Forall₂ (Accepts member) ms (List.replicate ms.length Slot.idle) := by
  induction ms with
  | nil => exact .nil
  | cons m ms ih =>
    refine .cons ?_ (ih fun other hother => hms other (List.mem_cons_of_mem _ hother))
    obtain ⟨⟨name, hname, hunknown⟩, token, htoken, hvalue⟩ := hms m List.mem_cons_self
    refine ⟨name, hname, ?_⟩
    intro d _
    rw [hvalue, hforeign d name hunknown]
    exact reads_ignored htoken d

/-- **An object is read as what its wanted members say**, in whatever order they come and whatever
members are between them. -/
theorem reads_object {nothing : ρ} {member : ρ → Bytes → Reader ρ} {finish : ρ → Option α}
    {known : List Bytes} {fields : List Field} {slots : List (Slot ρ)} {tokens : List Bytes} {a : α}
    (hobject : IsObject known fields tokens)
    (hfields : List.Forall₂ (Field.Fills member) fields slots)
    (hforeign : ∀ d, ∀ name ∉ known, member d name = ignored d)
    (hapart : slots.Pairwise Slot.Apart) (hlacks : ∀ slot ∈ slots, slot.lacks nothing)
    (hfinish : finish (Slot.fill slots nothing) = some a) :
    Reads (object nothing member finish) tokens a := by
  obtain ⟨ms, written, foreign, hperm, hwritten, hignored, rfl⟩ := hobject
  have haccepts := List.rel_append (accepts_written hfields hwritten)
    (accepts_foreign hforeign hignored)
  -- the slots in the order in which the members are written
  obtain ⟨slots', hslots', hperm'⟩ := List.perm_comp_forall₂ hperm haccepts
  have hall := Slot.pairwise_append_idle hapart foreign.length
  have hlacks' : ∀ slot ∈ slots', slot.lacks nothing := by
    intro slot hslot
    rcases List.mem_append.mp (hperm'.subset hslot) with hslot | hslot
    · exact hlacks slot hslot
    · rw [List.eq_of_mem_replicate hslot]
      trivial
  have hfill : Slot.fill slots' nothing = Slot.fill slots nothing := by
    rw [Slot.fill_perm hperm' hall, Slot.fill_append_idle]
  intro s rest hs _
  cases hs with
  | @cons blanks _ s _ hblanks hs =>
    have hmembers : members member true nothing (s ++ rest) =
        .ok (Slot.fill slots nothing, rest) := by
      rw [← hfill]
      exact run_members hslots' ((hperm'.pairwise_iff Slot.Apart.symm).mpr hall) hlacks' hs rest
    have htext : blanks ++ ([openBrace] ++ s) ++ rest = blanks ++ openBrace :: (s ++ rest) := by
      simp
    rw [htext, object, run_bind_of_ok (run_skipBlank hblanks (by decide)),
      run_bind_of_ok (run_peek _ _), if_pos rfl, run_bind_of_ok (run_take _ _)]
    refine (run_bind_of_ok (x := members member true nothing) hmembers).trans ?_
    rw [hfinish]
    rfl

end BootImage.Json
