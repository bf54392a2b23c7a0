import BootImage.Json.Skip
import BootImage.Json.Writer
import BootImage.Proofs.GuidText
import Mathlib.Algebra.Group.Nat.Defs
import Mathlib.Data.List.Basic

/-!
# JSON texts as tokens

A text is made of tokens, with blanks before any of them (`Json.Spaced`). A reader reads some tokens
as a value if, however they are spaced, it gives the value and leaves what comes after them
(`Json.Reads`). What comes after a number must not go on with it (`Json.Delimited`).

* `Json.Means` — which strings say a text: its characters as they are, or by an escape.
* `Json.reads_string` — every string that says a text is read as this text.
* `Json.reads_nat64` — the digits of a 64-bit number are read as this number.
* `Json.Scalar` — the values other than lists and objects, apart from numbers that are not whole;
  `Json.reads_skipValue` — all of them can be passed over.
-/

namespace BootImage.Json

/-! ### Tokens and blanks -/

/-- Nothing but blanks. -/
def Blank (s : Bytes) : Prop := ∀ b ∈ s, isBlank b = true

/-- The tokens, with blanks before them. -/
inductive Spaced : List Bytes → Bytes → Prop
  | nil : Spaced [] []
  | cons {blanks token s : Bytes} {tokens : List Bytes} (hb : Blank blanks)
      (h : Spaced tokens s) : Spaced (token :: tokens) (blanks ++ (token ++ s))

/-- The text does not start with what could go on with a number. -/
def Delimited (s : Bytes) : Prop :=
  ∀ b ∈ s.head?, isDigit b = false ∧ b ≠ ascii '.' ∧ b ≠ ascii 'e' ∧ b ≠ ascii 'E'

/-- However the tokens are spaced, the reader reads them as this value and leaves what follows. -/
def Reads {α : Type} (x : Reader α) (tokens : List Bytes) (a : α) : Prop :=
  ∀ s rest, Spaced tokens s → Delimited rest → x.run (s ++ rest) = .ok (a, rest)

variable {α β : Type}

/-- No bytes at all are blank. -/
theorem blank_nil : Blank [] := fun _ hb => by cases hb

/-- Blanks do not go on with a number. -/
theorem Blank.delimited {s : Bytes} (h : Blank s) : Delimited s := by
  intro b hb
  have hblank := h b (List.mem_of_mem_head? hb)
  simp only [isBlank, Bool.or_eq_true, beq_iff_eq] at hblank
  rcases hblank with ((rfl | rfl) | rfl) | rfl <;> decide

/-- Tokens one after the other are spaced one after the other. -/
theorem Spaced.split {ts us : List Bytes} {s : Bytes} (h : Spaced (ts ++ us) s) :
    ∃ a b, s = a ++ b ∧ Spaced ts a ∧ Spaced us b := by
  induction ts generalizing s with
  | nil => exact ⟨[], s, rfl, .nil, h⟩
  | cons token ts ih =>
    cases h with
    | @cons blanks _ s _ hb h =>
      obtain ⟨a, b, rfl, ha, hb'⟩ := ih h
      exact ⟨blanks ++ (token ++ a), b, by simp only [List.append_assoc], .cons hb ha, hb'⟩

/-- A text is at least as long as any of its tokens. -/
theorem Spaced.length_le {tokens : List Bytes} {token s : Bytes} (h : Spaced tokens s)
    (hmem : token ∈ tokens) : token.length ≤ s.length := by
  induction h with
  | nil => cases hmem
  | cons hb _ ih =>
    simp only [List.length_append]
    rcases List.mem_cons.mp hmem with rfl | hmem
    · omega
    · have := ih hmem
      omega

/-- Tokens, each with the blanks before it. -/
theorem spaced_flatMap {pieces : List (Bytes × Bytes)} (h : ∀ p ∈ pieces, Blank p.1) :
    Spaced (pieces.map Prod.snd) (pieces.flatMap fun p => p.1 ++ p.2) := by
  induction pieces with
  | nil => exact .nil
  | cons p pieces ih =>
    obtain ⟨hp, hpieces⟩ := List.forall_mem_cons.mp h
    rw [List.map_cons, List.flatMap_cons, List.append_assoc]
    exact .cons hp (ih hpieces)

/-- Tokens without blanks. -/
theorem spaced_flatten (tokens : List Bytes) : Spaced tokens tokens.flatten := by
  have h : Spaced ((tokens.map fun token => (([] : Bytes), token)).map Prod.snd) _ :=
    spaced_flatMap (by simp [blank_nil])
  simpa [List.map_map, List.flatMap_map, Function.comp_def] using h

/-- A token without blanks. -/
theorem spaced_token (token : Bytes) : Spaced [token] token := by
  have h := spaced_flatten [token]
  rwa [List.flatten_singleton] at h

/-- One token. -/
theorem spaced_singleton {token s : Bytes} (h : Spaced [token] s) :
    ∃ blanks, Blank blanks ∧ s = blanks ++ token := by
  cases h with
  | @cons blanks _ _ _ hb h =>
    cases h
    exact ⟨blanks, hb, by rw [List.append_nil]⟩

/-! ### Readers -/

/-- A reader whose first part gives a value goes on with the second part. -/
theorem run_bind_of_ok {x : Reader α} {f : α → Reader β} {s rest : Bytes} {a : α}
    (h : x.run s = .ok (a, rest)) : (x >>= f).run s = (f a).run rest := by
  rw [StateT.run_bind, h]
  rfl

/-- Blanks are skipped up to the first byte that is none. -/
theorem run_skipBlank {blanks s : Bytes} {b : UInt8} (hblanks : Blank blanks)
    (hb : isBlank b = false) : skipBlank.run (blanks ++ b :: s) = .ok ((), b :: s) := by
  show Except.ok ((), (blanks ++ b :: s).dropWhile isBlank) = _
  rw [List.dropWhile_append_of_pos hblanks, List.dropWhile_cons_of_neg (by simp [hb])]

/-- A peek gives the next byte and leaves it. -/
theorem run_peek (b : UInt8) (s : Bytes) : peek.run (b :: s) = .ok (b, b :: s) := rfl

/-- Taking a byte leaves the rest. -/
theorem run_take (b : UInt8) (s : Bytes) : take.run (b :: s) = .ok (b, s) := rfl

/-- A byte that is expected is taken. -/
theorem run_expect (b : UInt8) (s : Bytes) : (expect b).run (b :: s) = .ok ((), s) := by
  show ((if b = b then pure () else refuse .syntaxError : Reader Unit)).run s = _
  rw [if_pos rfl]
  rfl

/-- So are several bytes. -/
theorem run_expectAll (wanted s : Bytes) :
    (expectAll wanted).run (wanted ++ s) = .ok ((), s) := by
  induction wanted with
  | nil => rfl
  | cons b wanted ih =>
    show (expect b >>= fun _ => expectAll wanted).run (b :: (wanted ++ s)) = _
    rw [run_bind_of_ok (run_expect b _)]
    exact ih

/-- A token after blanks is told by its first byte. -/
theorem run_toToken {f : UInt8 → Reader α} {blanks token tail : Bytes} {b : UInt8}
    (hblanks : Blank blanks) (htoken : token = b :: tail) (hb : isBlank b = false) (rest : Bytes) :
    (skipBlank >>= fun _ => peek >>= f).run (blanks ++ (token ++ rest)) =
      (f b).run (token ++ rest) := by
  subst htoken
  rw [List.cons_append, run_bind_of_ok (run_skipBlank hblanks hb)]
  rfl

/-- A colon may follow blanks. -/
theorem run_colon {blanks : Bytes} (hblanks : Blank blanks) (s : Bytes) :
    colon.run (blanks ++ ascii ':' :: s) = .ok ((), s) := by
  rw [colon, run_bind_of_ok (run_skipBlank hblanks (by decide))]
  exact run_expect _ s

/-! ### Strings -/

/-- The escapes of one letter, with what they stand for. -/
def shortEscapes : List (UInt8 × UInt8) :=
  [(ascii '"', ascii '"'), (ascii '\\', ascii '\\'), (ascii '/', ascii '/'), (ascii 'b', 8),
    (ascii 'f', 12), (ascii 'n', 10), (ascii 'r', 13), (ascii 't', 9)]

/-- Four hexadecimal digits, in either case, of a number. -/
def Numeral (digits : Bytes) (n : Nat) : Prop :=
  ∃ a b c d, digits.map Hexadecimal.value? = [some a, some b, some c, some d] ∧
    n = ((a * 16 + b) * 16 + c) * 16 + d

/-- A byte that stands for itself in a string. -/
def isPlain (b : UInt8) : Bool := 32 ≤ b && b != ascii '"' && b != ascii '\\'

/-- What stands between the quotes of a string says this text, in UTF-8. -/
inductive Means : Bytes → Bytes → Prop
  | nil : Means [] []
  | plain {b : UInt8} {s m : Bytes} (hb : isPlain b = true) (h : Means s m) :
      Means (b :: s) (b :: m)
  /-- An escape of one letter. -/
  | short {letter b : UInt8} {s m : Bytes} (hb : (letter, b) ∈ shortEscapes) (h : Means s m) :
      Means (ascii '\\' :: letter :: s) (b :: m)
  /-- An escape by number, of a character with a number of 16 bits. -/
  | numbered {digits s m : Bytes} {n : Nat} (hn : Numeral digits n)
      (hlow : isLowSurrogate n = false) (hhigh : isHighSurrogate n = false) (h : Means s m) :
      Means (ascii '\\' :: ascii 'u' :: (digits ++ s)) (String.utf8EncodeChar (Char.ofNat n) ++ m)
  /-- Two escapes by number, of a character with a larger number. -/
  | pair {digits digits' s m : Bytes} {high low : Nat} (hn : Numeral digits high)
      (hn' : Numeral digits' low) (hhigh : isHighSurrogate high = true)
      (hlow : isLowSurrogate low = true) (h : Means s m) :
      Means (ascii '\\' :: ascii 'u' :: (digits ++ (ascii '\\' :: ascii 'u' :: (digits' ++ s))))
        (String.utf8EncodeChar
          (Char.ofNat ((high - 0xD800) * 0x400 + (low - 0xDC00) + 0x10000)) ++ m)

/-- What may stand between the quotes of a string, whether or not it says a text: an escape by
number may be of a half of a surrogate pair. -/
inductive IsText : Bytes → Prop
  | nil : IsText []
  | plain {b : UInt8} {s : Bytes} (hb : isPlain b = true) (h : IsText s) : IsText (b :: s)
  | short {letter b : UInt8} {s : Bytes} (hb : (letter, b) ∈ shortEscapes) (h : IsText s) :
      IsText (ascii '\\' :: letter :: s)
  | numbered {digits s : Bytes} {n : Nat} (hn : Numeral digits n) (h : IsText s) :
      IsText (ascii '\\' :: ascii 'u' :: (digits ++ s))

/-- A text of which every byte stands for itself is said by itself. -/
theorem means_of_plain {s : Bytes} (h : s.all isPlain = true) : Means s s := by
  induction s with
  | nil => exact .nil
  | cons b s ih =>
    obtain ⟨hb, hs⟩ := Bool.and_eq_true_iff.mp h
    exact .plain hb (ih hs)

/-- The letter of a short escape is looked up. -/
theorem simpleEscape?_of_mem {letter b : UInt8} (h : (letter, b) ∈ shortEscapes) :
    simpleEscape? letter = some b := by
  simp only [shortEscapes, List.mem_cons, Prod.mk.injEq, List.not_mem_nil, or_false] at h
  rcases h with h | h | h | h | h | h | h | h <;> obtain ⟨rfl, rfl⟩ := h <;> decide

/-- Four digits are read as the number that they stand for. -/
theorem Numeral.run_hex4 {digits : Bytes} {n : Nat} (h : Numeral digits n) (s : Bytes) :
    hex4.run (digits ++ s) = .ok (n, s) := by
  obtain ⟨a, b, c, d, hdigits, rfl⟩ := h
  match digits with
  | [w, x, y, z] =>
    simp only [List.map_cons, List.map_nil, List.cons.injEq, and_true] at hdigits
    obtain ⟨hw, hx, hy, hz⟩ := hdigits
    show hex4 (w :: x :: y :: z :: s) = _
    simp only [hex4, hw, hx, hy, hz]
  | [] | [_] | [_, _] | [_, _, _] | _ :: _ :: _ :: _ :: _ :: _ => simp at hdigits

section body

variable {passedOver : Bool} {s rest : Bytes}

/-- A quote ends a string. -/
theorem stringBody_quote (passedOver : Bool) (rest : Bytes) :
    stringBody passedOver (ascii '"' :: rest) = .ok ([], rest) := by
  rw [stringBody, if_pos rfl]

/-- A plain byte stands for itself. -/
theorem stringBody_plain {b : UInt8} {m : Bytes} (hb : isPlain b = true)
    (h : stringBody passedOver s = .ok (m, rest)) :
    stringBody passedOver (b :: s) = .ok (b :: m, rest) := by
  simp only [isPlain, Bool.and_eq_true, decide_eq_true_eq, bne_iff_ne] at hb
  obtain ⟨⟨hcontrol, hquote⟩, hslash⟩ := hb
  rw [stringBody, if_neg hquote, if_neg hslash, if_neg (UInt8.not_lt.mpr hcontrol), h]

/-- An escape, and what follows it. -/
theorem stringBody_escape {t decoded m : Bytes}
    (hescape : escape passedOver (t ++ s) = .ok (decoded, s))
    (h : stringBody passedOver s = .ok (m, rest)) :
    stringBody passedOver (ascii '\\' :: (t ++ s)) = .ok (decoded ++ m, rest) := by
  have hlen : s.length ≤ (t ++ s).length := by
    rw [List.length_append]
    exact Nat.le_add_left _ _
  rw [stringBody, if_neg (by decide), if_pos rfl, hescape]
  simp only [hlen, if_true, h]

/-- A short escape stands for one byte. -/
theorem escape_short {letter b : UInt8} (hb : (letter, b) ∈ shortEscapes) (s : Bytes) :
    escape passedOver (letter :: s) = .ok ([b], s) := by
  show (escape passedOver).run (letter :: s) = _
  rw [escape, run_bind_of_ok (run_take letter s), simpleEscape?_of_mem hb]
  rfl

variable {digits digits' : Bytes} {n high low : Nat}

/-- The escape of a character with a number of 16 bits. -/
theorem escape_numbered (hn : Numeral digits n) (hlow : isLowSurrogate n = false)
    (hhigh : isHighSurrogate n = false) (s : Bytes) :
    escape false (ascii 'u' :: digits ++ s) =
      .ok (String.utf8EncodeChar (Char.ofNat n), s) := by
  show unicodeEscape.run (digits ++ s) = _
  rw [unicodeEscape, run_bind_of_ok (hn.run_hex4 s), hlow, hhigh]
  rfl

/-- The escapes of a character with a larger number. -/
theorem escape_pair (hn : Numeral digits high) (hn' : Numeral digits' low)
    (hhigh : isHighSurrogate high = true) (hlow : isLowSurrogate low = true) (s : Bytes) :
    escape false (ascii 'u' :: digits ++ (ascii '\\' :: ascii 'u' :: (digits' ++ s))) =
      .ok (String.utf8EncodeChar
        (Char.ofNat ((high - 0xD800) * 0x400 + (low - 0xDC00) + 0x10000)), s) := by
  have hnot : isLowSurrogate high = false := by
    simp only [isHighSurrogate, Bool.and_eq_true, decide_eq_true_eq] at hhigh
    simp only [isLowSurrogate, Bool.and_eq_false_iff, decide_eq_false_iff_not]
    omega
  show unicodeEscape.run (digits ++ (asciiText "\\u" ++ (digits' ++ s))) = _
  rw [unicodeEscape, run_bind_of_ok (hn.run_hex4 _), hnot, hhigh, if_neg Bool.false_ne_true,
    if_pos rfl, run_bind_of_ok (run_expectAll _ _), run_bind_of_ok (hn'.run_hex4 s), hlow]
  rfl

/-- In a string that is passed over, any number may be escaped. -/
theorem escape_passedOver (hn : Numeral digits n) (s : Bytes) :
    escape true (ascii 'u' :: digits ++ s) = .ok ([], s) := by
  show (hex4 >>= fun _ => pure []).run (digits ++ s) = _
  rw [run_bind_of_ok (hn.run_hex4 s)]
  rfl

end body

/-- **What says a text is read as this text**, up to the closing quote. -/
theorem stringBody_of_means {s m : Bytes} (h : Means s m) (rest : Bytes) :
    stringBody false (s ++ ascii '"' :: rest) = .ok (m, rest) := by
  induction h with
  | nil => exact stringBody_quote false rest
  | plain hb _ ih => exact stringBody_plain hb ih
  | short hb _ ih => exact stringBody_escape (t := [_]) (escape_short hb _) ih
  | @numbered digits s m n hn hlow hhigh _ ih =>
    have hescape := stringBody_escape (escape_numbered hn hlow hhigh _) ih
    simpa only [List.cons_append, List.append_assoc] using hescape
  | @pair digits digits' s m high low hn hn' hhigh hlow _ ih =>
    have hescape := stringBody_escape
      (t := ascii 'u' :: (digits ++ ascii '\\' :: ascii 'u' :: digits'))
      (by simpa only [List.cons_append, List.append_assoc] using escape_pair hn hn' hhigh hlow _) ih
    simpa only [List.cons_append, List.append_assoc] using hescape

/-- What may stand in a string can be passed over, up to the closing quote. -/
theorem stringBody_of_isText {s : Bytes} (h : IsText s) (rest : Bytes) :
    ∃ m, stringBody true (s ++ ascii '"' :: rest) = .ok (m, rest) := by
  induction h with
  | nil => exact ⟨[], stringBody_quote true rest⟩
  | plain hb _ ih =>
    obtain ⟨m, hm⟩ := ih
    exact ⟨_, stringBody_plain hb hm⟩
  | short hb _ ih =>
    obtain ⟨m, hm⟩ := ih
    exact ⟨_, stringBody_escape (t := [_]) (escape_short hb _) hm⟩
  | numbered hn _ ih =>
    obtain ⟨m, hm⟩ := ih
    have hescape := stringBody_escape (escape_passedOver hn _) hm
    exact ⟨_, by simpa only [List.cons_append, List.append_assoc] using hescape⟩

/-- **Every string that says a text is read as this text.** -/
theorem reads_string {s m : Bytes} (h : Means s m) : Reads string [quoted s] m := by
  intro t rest ht _
  obtain ⟨blanks, hblanks, rfl⟩ := spaced_singleton ht
  have htext : quoted s ++ rest = ascii '"' :: (s ++ ascii '"' :: rest) := by simp [quoted]
  rw [List.append_assoc, htext, string, run_bind_of_ok (run_skipBlank hblanks (by decide))]
  exact stringBody_of_means h rest

/-! ### Numbers -/

section numbers

variable {n : Nat} {rest : Bytes}

/-- The byte of a character has the character's number. -/
theorem toNat_ascii {c : Char} (h : c.toNat < 256) : (ascii c).toNat = c.toNat := by
  rw [ascii, UInt8.toNat_ofNat']
  omega

/-- Digits have the numbers from 48 to 57. -/
theorem toNat_of_isDigit {c : Char} (h : c.isDigit = true) : 48 ≤ c.toNat ∧ c.toNat ≤ 57 := by
  simpa [Char.isDigit, UInt32.le_iff_toNat_le] using h

/-- The byte of a digit is a digit. -/
theorem isDigit_ascii {c : Char} (h : c.isDigit = true) : isDigit (ascii c) = true := by
  obtain ⟨hlow, hhigh⟩ := toNat_of_isDigit h
  simp only [isDigit, Bool.and_eq_true, decide_eq_true_eq, UInt8.le_iff_toNat_le,
    UInt8.reduceToNat, toNat_ascii (by omega : c.toNat < 256)]
  exact ⟨hlow, hhigh⟩

/-- A number has digits. -/
theorem ofNat_ne_nil (n : Nat) : ofNat n ≠ [] := by
  simp [ofNat, Nat.toDigits_ne_nil]

/-- All that is printed of a number are digits. -/
theorem isDigit_of_mem_ofNat {b : UInt8} (h : b ∈ ofNat n) : isDigit b = true := by
  obtain ⟨c, hc, rfl⟩ := List.mem_map.mp h
  exact isDigit_ascii (Nat.isDigit_of_mem_toDigits (by decide) (by decide) hc)

/-- Digits as bytes stand for the number that they stand for as characters. -/
theorem foldl_ascii {digits : List Char} (h : ∀ c ∈ digits, c.isDigit = true) (n : Nat) :
    (digits.map ascii).foldl (fun n d => 10 * n + (d.toNat - 48)) n =
      Nat.ofDigitChars 10 digits n := by
  induction digits generalizing n with
  | nil => rfl
  | cons c digits ih =>
    have hc := toNat_of_isDigit (h c List.mem_cons_self)
    rw [List.map_cons, List.foldl_cons, ih fun d hd => h d (List.mem_cons_of_mem _ hd),
      toNat_ascii (by omega)]
    rfl

/-- The digits of a number stand for it. -/
theorem ofDigits_ofNat (n : Nat) : ofDigits (ofNat n) = n := by
  have hdigits : ∀ c ∈ Nat.toDigits 10 n, c.isDigit = true := fun c hc =>
    Nat.isDigit_of_mem_toDigits (by decide) (by decide) hc
  rw [ofDigits, ofNat, foldl_ascii hdigits]
  exact Nat.ofDigitChars_toDigits (by decide) (by decide)

/-- A number other than zero starts with another digit. -/
theorem head?_toDigits (hn : 0 < n) : (Nat.toDigits 10 n).head? ≠ some '0' := by
  induction n using Nat.strongRecOn with
  | ind n ih =>
    by_cases hsmall : n < 10
    · have hdigit : ∀ d < 10, 0 < d → [Nat.digitChar d].head? ≠ some '0' := by decide
      rw [Nat.toDigits_of_lt_base hsmall]
      exact hdigit n hsmall hn
    · rw [Nat.toDigits_of_base_le (by decide) (by omega),
        List.head?_append_of_ne_nil _ Nat.toDigits_ne_nil]
      exact ih (n / 10) (by omega) (by omega)

/-- The digits of a number have no leading zero. -/
theorem not_leadingZero_ofNat (n : Nat) :
    ¬ ((ofNat n).head? = some (ascii '0') ∧ (ofNat n).length ≠ 1) := by
  rintro ⟨hhead, hlen⟩
  rcases Nat.eq_zero_or_pos n with rfl | hn
  · exact hlen rfl
  · rw [ofNat, List.head?_map, Option.map_eq_some_iff] at hhead
    obtain ⟨c, hc, hzero⟩ := hhead
    have hdigit := toNat_of_isDigit
      (Nat.isDigit_of_mem_toDigits (by decide) (by decide) (List.mem_of_mem_head? hc))
    have hcode : c.toNat = 48 := by
      rw [← toNat_ascii (by omega : c.toNat < 256), hzero]
      rfl
    have hchar : c = '0' := Char.ext (UInt32.toNat_inj.mp hcode)
    exact head?_toDigits hn (hchar ▸ hc)

/-- Digits are taken up to what delimits them. -/
theorem run_takeDigits (hrest : Delimited rest) :
    takeDigits.run (ofNat n ++ rest) = .ok (ofNat n, rest) := by
  have hdigits : ∀ b ∈ ofNat n, isDigit b = true := fun _ => isDigit_of_mem_ofNat
  show Except.ok ((ofNat n ++ rest).takeWhile isDigit, (ofNat n ++ rest).dropWhile isDigit) = _
  rw [List.takeWhile_append_of_pos hdigits, List.dropWhile_append_of_pos hdigits]
  cases rest with
  | nil => simp
  | cons b rest => simp [(hrest b rfl).1]

/-- A printed number is a whole part. -/
theorem run_wholePart (ending : JsonError) (hrest : Delimited rest) :
    (wholePart ending).run (ofNat n ++ rest) = .ok (ofNat n, rest) := by
  have htake : (takeDigits1 ending).run (ofNat n ++ rest) = .ok (ofNat n, rest) := by
    rw [takeDigits1, run_bind_of_ok (run_takeDigits hrest), if_pos (ofNat_ne_nil n)]
    rfl
  rw [wholePart, run_bind_of_ok htake, if_neg (not_leadingZero_ofNat n)]
  rfl

/-- Behind it there is no fraction. -/
theorem run_fraction (ending : JsonError) (hrest : Delimited rest) :
    (fraction ending).run rest = .ok ([], rest) := by
  have hpoint : rest.head? ≠ some (ascii '.') := fun h => (hrest _ h).2.1 rfl
  show ((if rest.head? = some (ascii '.') then _ else pure [] : Reader Bytes)).run rest = _
  rw [if_neg hpoint]
  rfl

/-- Nor is there an exponent. -/
theorem run_exponent (ending : JsonError) (hrest : Delimited rest) :
    (exponent ending).run rest = .ok (none, rest) := by
  have hmark : ¬ (rest.head? = some (ascii 'e') ∨ rest.head? = some (ascii 'E')) := by
    rintro (h | h)
    · exact (hrest _ h).2.2.1 rfl
    · exact (hrest _ h).2.2.2 rfl
  show ((if rest.head? = some (ascii 'e') ∨ rest.head? = some (ascii 'E') then _ else pure none :
    Reader (Option Int))).run rest = _
  rw [if_neg hmark]
  rfl

/-- The digits of a number, after its sign. -/
theorem run_unsigned (ending : JsonError) (negative : Bool) (hrest : Delimited rest) :
    (do return ⟨negative, ← wholePart ending, ← fraction ending, ← exponent ending⟩ :
        Reader Number).run (ofNat n ++ rest) = .ok (⟨negative, ofNat n, [], none⟩, rest) := by
  rw [run_bind_of_ok (run_wholePart ending hrest), run_bind_of_ok (run_fraction ending hrest),
    run_bind_of_ok (run_exponent ending hrest)]
  rfl

/-- The digits of a number start with one. -/
theorem exists_digit (n : Nat) : ∃ b s, ofNat n = b :: s ∧ isDigit b = true := by
  rcases hdigits : ofNat n with _ | ⟨b, s⟩
  · exact absurd hdigits (ofNat_ne_nil n)
  · exact ⟨b, s, rfl, isDigit_of_mem_ofNat (hdigits ▸ List.mem_cons_self)⟩

/-- A digit differs from what is none. -/
theorem ne_of_isDigit {b c : UInt8} (hb : isDigit b = true) (hc : isDigit c = false) : b ≠ c := by
  rintro rfl
  exact Bool.false_ne_true (hc.symm.trans hb)

/-- It is not blank. -/
theorem isBlank_of_isDigit {b : UInt8} (hb : isDigit b = true) : isBlank b = false := by
  simp [isBlank, ne_of_isDigit hb (by decide : isDigit 32 = false),
    ne_of_isDigit hb (by decide : isDigit 9 = false),
    ne_of_isDigit hb (by decide : isDigit 10 = false),
    ne_of_isDigit hb (by decide : isDigit 13 = false)]

/-- The first digit of a number is found after blanks. -/
theorem run_toDigit {f : UInt8 → Reader α} {blanks : Bytes} (hblanks : Blank blanks) (n : Nat)
    (rest : Bytes) : ∃ b, isDigit b = true ∧
      (skipBlank >>= fun _ => peek >>= f).run (blanks ++ (ofNat n ++ rest)) =
        (f b).run (ofNat n ++ rest) := by
  obtain ⟨b, s, hdigits, hb⟩ := exists_digit n
  exact ⟨b, hb, run_toToken hblanks hdigits (isBlank_of_isDigit hb) rest⟩

/-- **The digits of a number are read as this number.** -/
theorem run_number (ending : JsonError) (hrest : Delimited rest) :
    (number ending).run (ofNat n ++ rest) = .ok (⟨false, ofNat n, [], none⟩, rest) := by
  obtain ⟨b, s, hdigits, hb⟩ := exists_digit n
  have hsign : ¬ (ofNat n ++ rest).head? = some (ascii '-') := by
    rw [hdigits]
    simpa using ne_of_isDigit hb (by decide)
  have hpeek : peek?.run (ofNat n ++ rest) = .ok ((ofNat n ++ rest).head?, ofNat n ++ rest) := rfl
  rw [number, run_bind_of_ok hpeek, if_neg hsign, run_unsigned ending _ hrest,
    decide_eq_false hsign]

/-- The digits of a number after a minus sign. -/
theorem run_number_negative (ending : JsonError) (hrest : Delimited rest) :
    (number ending).run (ascii '-' :: (ofNat n ++ rest)) =
      .ok (⟨true, ofNat n, [], none⟩, rest) := by
  have hpeek : peek?.run (ascii '-' :: (ofNat n ++ rest)) =
      .ok (some (ascii '-'), ascii '-' :: (ofNat n ++ rest)) := rfl
  rw [number, run_bind_of_ok hpeek, if_pos rfl, run_bind_of_ok (run_take _ _),
    run_unsigned ending _ hrest, decide_eq_true rfl]

/-- **The digits of a number of 64 bits are read as this number.** -/
theorem reads_nat64 (hn : n < UInt64.size) : Reads nat64 [ofNat n] n := by
  intro s rest hs hrest
  obtain ⟨blanks, hblanks, rfl⟩ := spaced_singleton hs
  obtain ⟨b, hb, hdigit⟩ := run_toDigit hblanks n rest
  have hwhole : (⟨false, ofNat n, [], none⟩ : Number).whole? = some n := by
    simp [Number.whole?, ofDigits_ofNat]
  have hheld : (⟨false, ofNat n, [], none⟩ : Number).isHeld = true := by
    simp [Number.isHeld, hwhole, hn]
  have hnumber : heldNumber.run (ofNat n ++ rest) = .ok (⟨false, ofNat n, [], none⟩, rest) := by
    rw [heldNumber, run_bind_of_ok (run_number .eof hrest), if_pos hheld]
    rfl
  rw [List.append_assoc, nat64, hdigit, if_pos (.inr hb), run_bind_of_ok hnumber]
  simp only [hwhole, hn]
  rfl

end numbers

/-! ### Values that are passed over -/

/-- A string, a truth value, null, or a whole number of any size. -/
inductive Scalar : Bytes → Prop
  | string {s : Bytes} (h : IsText s) : Scalar (quoted s)
  | bool (b : Bool) : Scalar (ofBool b)
  | null : Scalar (asciiText "null")
  | natural (n : Nat) : Scalar (ofNat n)
  | negative (n : Nat) : Scalar (ascii '-' :: ofNat n)

/-- The words that are values, with their first letters. -/
theorem asciiText_null : asciiText "null" = ascii 'n' :: asciiText "ull" := rfl

@[inherit_doc asciiText_null]
theorem asciiText_true : asciiText "true" = ascii 't' :: asciiText "rue" := rfl

@[inherit_doc asciiText_null]
theorem asciiText_false : asciiText "false" = ascii 'f' :: asciiText "alse" := rfl

/-- A word that is a value is passed over. -/
theorem run_word (word rest : Bytes) :
    (expectAll word >>= fun _ => pure ⟨[], true⟩ : Reader Skipping).run (word ++ rest) =
      .ok (⟨[], true⟩, rest) := by
  rw [run_bind_of_ok (run_expectAll word rest)]
  rfl

/-- A value without brackets is passed over in one step. -/
theorem Scalar.run_value {token blanks rest : Bytes} (h : Scalar token) (hblanks : Blank blanks)
    (hrest : Delimited rest) :
    (Skipping.value []).run (blanks ++ (token ++ rest)) = .ok (⟨[], true⟩, rest) := by
  cases h with
  | @string s h =>
    obtain ⟨m, hm⟩ := stringBody_of_isText h rest
    have htext : quoted s ++ rest = ascii '"' :: (s ++ ascii '"' :: rest) := by simp [quoted]
    rw [htext, Skipping.value, run_bind_of_ok (run_skipBlank hblanks (by decide))]
    show (stringBody true >>= fun _ => pure ⟨[], true⟩ : Reader Skipping).run
      (s ++ ascii '"' :: rest) = _
    rw [run_bind_of_ok hm]
    rfl
  | bool b =>
    cases b with
    | true =>
      have htrue : ofBool true = asciiText "true" := rfl
      rw [htrue, Skipping.value, run_toToken hblanks asciiText_true (by decide)]
      exact run_word _ rest
    | false =>
      have hfalse : ofBool false = asciiText "false" := rfl
      rw [hfalse, Skipping.value, run_toToken hblanks asciiText_false (by decide)]
      exact run_word _ rest
  | null =>
    rw [Skipping.value, run_toToken hblanks asciiText_null (by decide)]
    exact run_word _ rest
  | natural n =>
    obtain ⟨b, hb, hdigit⟩ := run_toDigit hblanks n rest
    rw [Skipping.value, hdigit, if_neg (ne_of_isDigit hb (by decide)),
      if_neg (ne_of_isDigit hb (by decide)), if_neg (ne_of_isDigit hb (by decide)),
      if_neg (ne_of_isDigit hb (by decide)), if_neg (ne_of_isDigit hb (by decide)),
      if_pos (.inr hb), run_bind_of_ok (run_number .syntaxError hrest)]
    rfl
  | negative n =>
    rw [Skipping.value, List.cons_append, run_bind_of_ok (run_skipBlank hblanks (by decide))]
    show (number .syntaxError >>= fun _ => pure ⟨[], true⟩ : Reader Skipping).run
      (ascii '-' :: (ofNat n ++ rest)) = _
    rw [run_bind_of_ok (run_number_negative .syntaxError hrest)]
    rfl

/-- A scalar has bytes. -/
theorem Scalar.ne_nil {token : Bytes} (h : Scalar token) : token ≠ [] := by
  cases h with
  | string => exact List.cons_ne_nil _ _
  | bool b => cases b <;> decide
  | null => decide
  | natural n => exact ofNat_ne_nil n
  | negative => exact List.cons_ne_nil _ _

/-- **Strings, truth values, null and whole numbers can be passed over.** -/
theorem reads_skipValue {token : Bytes} (h : Scalar token) : Reads skipValue [token] () := by
  intro s rest hs hrest
  obtain ⟨blanks, hblanks, rfl⟩ := spaced_singleton hs
  have hlen : rest.length < (blanks ++ (token ++ rest)).length := by
    have := List.length_pos_iff.mpr h.ne_nil
    simp only [List.length_append]
    omega
  have hstep : Skipping.step ⟨[], false⟩ (blanks ++ (token ++ rest)) = .ok (⟨[], true⟩, rest) :=
    h.run_value hblanks hrest
  show Skipping.finish ⟨[], false⟩ (blanks ++ token ++ rest) = _
  rw [List.append_assoc, Skipping.finish, if_neg (by decide), hstep]
  simp only [hlen, if_true]
  rw [Skipping.finish, if_pos rfl]

end BootImage.Json
