import BootImage.Json.Config
import BootImage.Proofs.JsonObject

/-!
# The JSON texts of a configuration read back

A configuration is said by many texts (`BootConfig.Spells`): the members of each object may come in
any order and with other members between them, blanks may stand before every token, the digits of
an identifier may be in either case, and what does not exist is null or left out. All of them are
read as the configuration, and the text that is written is one of them.

* `Json.Section` — the ways to write a medium that may not exist, `Json.Section.fills` — both are
  read as that it does not.
* `SpiFlashConfig.reads_json`, `MmcConfig.reads_json`, `QspiConfig.reads_json` — the use of each
  medium, by its slots.
* `BootConfig.json_reads_back` — the configuration as a whole.
-/

namespace BootImage

open Json

/-! ### How configurations are written -/

namespace Json

/-- A member whose value is one token. -/
def Field.token (name : String) (token : Bytes) : Field := ⟨asciiText name, (· = [token])⟩

/-- A member whose value is a string that says a text of some kind. -/
def Field.text (name : String) (kind : Bytes → Prop) : Field :=
  ⟨asciiText name, fun tokens => ∃ s m, Means s m ∧ kind m ∧ tokens = [quoted s]⟩

/-- The ways to write a member that may not exist. -/
inductive Section {α : Type} (name : String) (write : α → List Bytes → Prop) :
    Option α → List Field → Prop
  | present (a : α) : Section name write (some a) [⟨asciiText name, write a⟩]
  | null : Section name write none [.token name (asciiText "null")]
  | leftOut : Section name write none []

end Json

/-- The tokens of the use of the SPI flash. -/
def SpiFlashConfig.Tokens (c : SpiFlashConfig) : List Bytes → Prop :=
  IsObject [asciiText "offset"] [.token "offset" (Json.ofNat c.offset.toNat)]

/-- The tokens of the use of the card. The identifier's digits may be in either case. -/
def MmcConfig.Tokens (c : MmcConfig) : List Bytes → Prop :=
  IsObject [asciiText "use_gpt", asciiText "partition_type"]
    [.token "use_gpt" (ofBool c.useTable),
      .text "partition_type" fun m => m.map toLower = c.partitionType.text]

/-- The tokens of the use of the QSPI flash. -/
def QspiConfig.Tokens (c : QspiConfig) : List Bytes → Prop :=
  IsObject [asciiText "xip"] [.token "xip" (ofBool c.inPlace)]

namespace BootConfig

/-- The names of the members of a configuration. -/
def names : List Bytes :=
  [asciiText "spi_flash", asciiText "mmc", asciiText "qspi", asciiText "payload",
    asciiText "boot_flow"]

/-- The wanted members of a configuration, with those that may be left out. -/
inductive Fields (c : BootConfig) : List Field → Prop
  | mk {spiFlash mmc qspi : List Field}
      (hspiFlash : Section "spi_flash" SpiFlashConfig.Tokens c.spiFlash spiFlash)
      (hmmc : Section "mmc" MmcConfig.Tokens c.mmc mmc)
      (hqspi : Section "qspi" QspiConfig.Tokens c.qspi qspi) :
      Fields c (spiFlash ++ mmc ++ qspi ++ [.token "payload" (ofBool c.payload),
        .text "boot_flow" (· = asciiText c.bootFlow.name)])

/-- The text says this configuration. -/
def Spells (c : BootConfig) (text : Bytes) : Prop :=
  ∃ fields tokens s blanks, c.Fields fields ∧ IsObject names fields tokens ∧ Spaced tokens s ∧
    Blank blanks ∧ text = s ++ blanks

end BootConfig

/-! ### Values -/

namespace Json

variable {α ρ : Type}

/-- A truth value is read from its word. -/
theorem reads_bool (b : Bool) : Reads bool [ofBool b] b := by
  intro s rest hs _
  obtain ⟨blanks, hblanks, rfl⟩ := spaced_singleton hs
  cases b with
  | true =>
    have htrue : ofBool true = asciiText "true" := rfl
    rw [List.append_assoc, htrue, bool, run_toToken hblanks asciiText_true (by decide), if_pos rfl,
      run_bind_of_ok (run_expectAll _ _)]
    rfl
  | false =>
    have hfalse : ofBool false = asciiText "false" := rfl
    rw [List.append_assoc, hfalse, bool, run_toToken hblanks asciiText_false (by decide),
      if_neg (by decide), if_pos rfl, run_bind_of_ok (run_expectAll _ _)]
    rfl

/-- A GUID is read from any string that means its text, in either case. -/
theorem reads_guid {g : Guid} {s m : Bytes} (hs : Means s m) (hm : m.map toLower = g.text) :
    Reads guid [quoted s] g := by
  intro t rest ht hrest
  rw [guid, run_bind_of_ok (reads_string hs t rest ht hrest), Guid.ofText?_of_toLower hm]
  rfl

/-- A boot flow is read from any string that means its name. -/
theorem reads_flow {f : BootFlow} {s : Bytes} (hs : Means s (asciiText f.name)) :
    Reads flow [quoted s] f := by
  intro t rest ht hrest
  obtain ⟨blanks, hblanks, rfl⟩ := spaced_singleton ht
  have hquoted : quoted s = ascii '"' :: (s ++ [ascii '"']) := rfl
  have hstring := reads_string hs (quoted s) rest (spaced_token _) hrest
  rw [List.append_assoc, flow, run_toToken hblanks hquoted (by decide), if_pos rfl,
    run_bind_of_ok hstring]
  cases f <;> rfl

/-- A value that is null. -/
theorem reads_null (value : Reader α) : Reads (nullable value) [asciiText "null"] none := by
  intro s rest hs _
  obtain ⟨blanks, hblanks, rfl⟩ := spaced_singleton hs
  have hpeek : peek?.run (asciiText "null" ++ rest) =
      .ok (some (ascii 'n'), asciiText "null" ++ rest) := rfl
  have hskip : skipBlank.run (blanks ++ (asciiText "null" ++ rest)) =
      .ok ((), asciiText "null" ++ rest) := run_skipBlank hblanks (by decide)
  rw [List.append_assoc, nullable, run_bind_of_ok hskip, run_bind_of_ok hpeek, if_pos rfl,
    run_bind_of_ok (run_expectAll _ _)]
  rfl

/-- A value that is not null: objects are told by their first byte. -/
theorem reads_some {value : Reader α} {tokens : List Bytes} {a : α}
    (h : Reads value ([openBrace] :: tokens) a) :
    Reads (nullable value) ([openBrace] :: tokens) (some a) := by
  intro s rest hs hrest
  cases hs with
  | @cons blanks _ s _ hblanks hs =>
    have htext : blanks ++ ([openBrace] ++ s) ++ rest = blanks ++ openBrace :: (s ++ rest) := by
      simp
    have hvalue : value.run (openBrace :: (s ++ rest)) = .ok (a, rest) :=
      h ([openBrace] ++ s) rest (.cons blank_nil hs) hrest
    have hpeek : peek?.run (openBrace :: (s ++ rest)) =
        .ok (some openBrace, openBrace :: (s ++ rest)) := rfl
    rw [htext, nullable, run_bind_of_ok (run_skipBlank hblanks (by decide)),
      run_bind_of_ok hpeek, if_neg (by decide), run_bind_of_ok hvalue]
    rfl

/-! ### Slots of members that come once -/

/-- The slot of a member that is put in the draft once. -/
def Slot.once (get : ρ → Option α) (put : ρ → α → ρ) (a : α) : Slot ρ :=
  ⟨fun d => put d a, fun d => get d = none⟩

/-- A member that comes once is read into its slot, if its value is read. -/
theorem fills_once {member : ρ → Bytes → Reader ρ} {f : Field} {get : ρ → Option α}
    {put : ρ → α → ρ} {value : Reader α} {a : α}
    (hmember : ∀ d, member d f.name = Json.once (get d) value (put d))
    (hvalue : ∀ tokens, f.value tokens → Reads value tokens a) :
    f.Fills member (.once get put a) := by
  intro tokens htokens d hlacks
  rw [hmember]
  exact reads_once (hvalue tokens htokens) hlacks (put d)

/-- The slot of a member that may not exist is filled, unless the member is left out. -/
def Slot.Written (slot : Option α → Slot ρ) (o : Option α) (slots : List (Slot ρ)) : Prop :=
  slots = [slot o] ∨ o = none ∧ slots = []

/-- What is written of an optional member is its slot, or nothing. -/
theorem Slot.Written.sublist {slot : Option α → Slot ρ} {o : Option α} {slots : List (Slot ρ)}
    (h : Written slot o slots) : slots.Sublist [slot o] := by
  rcases h with rfl | ⟨-, rfl⟩
  · exact .refl _
  · exact List.nil_sublist _

/-- An object starts with its brace. -/
theorem IsObject.starts {known : List Bytes} {fields : List Field} {tokens : List Bytes}
    (h : IsObject known fields tokens) : ∃ tail, tokens = [openBrace] :: tail := by
  obtain ⟨ms, -, -, -, -, -, rfl⟩ := h
  exact ⟨_, rfl⟩

/-- A member that may not exist is read into its slot, or left out. -/
theorem Section.fills {member : ρ → Bytes → Reader ρ} {name : String}
    {write : α → List Bytes → Prop} {get : ρ → Option (Option α)} {put : ρ → Option α → ρ}
    {value : Reader α} {o : Option α} {fields : List Field} (h : Section name write o fields)
    (hmember : ∀ d, member d (asciiText name) = Json.once (get d) (nullable value) (put d))
    (hstarts : ∀ a tokens, write a tokens → ∃ tail, tokens = [openBrace] :: tail)
    (hvalue : ∀ a tokens, write a tokens → Reads value tokens a) :
    ∃ slots, List.Forall₂ (Field.Fills member) fields slots ∧
      Slot.Written (.once get put) o slots := by
  cases h with
  | present a =>
    refine ⟨_, .cons (fills_once hmember ?_) .nil, .inl rfl⟩
    intro tokens htokens
    obtain ⟨tail, rfl⟩ := hstarts a tokens htokens
    exact reads_some (hvalue a _ htokens)
  | null =>
    refine ⟨_, .cons (fills_once hmember ?_) .nil, .inl rfl⟩
    rintro tokens rfl
    exact reads_null value
  | leftOut => exact ⟨[], .nil, .inr ⟨rfl, rfl⟩⟩

end Json

/-! ### The use of a medium -/

section media

variable {tokens : List Bytes}

/-- The settings of a SPI flash are read from all their tokens. -/
theorem SpiFlashConfig.reads_json {c : SpiFlashConfig} (h : c.Tokens tokens) :
    Reads Json.spiFlash tokens c := by
  refine @reads_object _ _ _ _ _ _ _ [.once id (fun _ => some) c.offset.toNat] _ _ h
    (.cons ?offset .nil) ?foreign (List.pairwise_singleton _ _) ?lacks ?finish
  case offset =>
    refine fills_once (fun _ => if_pos rfl) ?_
    rintro tokens rfl
    exact reads_nat64 c.offset.toNat_lt
  case foreign =>
    intro d name hname
    exact if_neg (by simpa using hname)
  case lacks => simp [Slot.once]
  case finish => simp [Slot.fill, Slot.once]

/-- So are those of a card. -/
theorem MmcConfig.reads_json {c : MmcConfig} (h : c.Tokens tokens) : Reads Json.mmc tokens c := by
  refine @reads_object _ _ _ _ _ _ _
    [.once MmcDraft.useTable (fun d b => { d with useTable := some b }) c.useTable,
      .once MmcDraft.partitionType (fun d g => { d with partitionType := some g })
        c.partitionType] _ _ h
    (.cons ?useTable (.cons ?partitionType .nil)) ?foreign ?apart ?lacks rfl
  case useTable =>
    refine fills_once (fun _ => if_pos rfl) ?_
    rintro tokens rfl
    exact reads_bool c.useTable
  case partitionType =>
    have hne : asciiText "partition_type" ≠ asciiText "use_gpt" := by decide
    refine fills_once (fun _ => (if_neg hne).trans (if_pos rfl)) ?_
    rintro tokens ⟨s, m, hs, hm, rfl⟩
    exact reads_guid hs hm
  case foreign =>
    intro d name hname
    simp only [List.mem_cons, List.not_mem_nil, or_false, not_or] at hname
    exact (if_neg hname.1).trans (if_neg hname.2)
  case apart =>
    refine List.pairwise_cons.mpr ⟨?_, List.pairwise_singleton _ _⟩
    simp only [List.mem_singleton, forall_eq]
    exact ⟨fun _ => rfl, fun _ h => h, fun _ h => h⟩
  case lacks => simp [Slot.once]

/-- So are those of QSPI flash. -/
theorem QspiConfig.reads_json {c : QspiConfig} (h : c.Tokens tokens) :
    Reads Json.qspi tokens c := by
  refine @reads_object _ _ _ _ _ _ _ [.once id (fun _ => some) c.inPlace] _ _ h
    (.cons ?inPlace .nil) ?foreign (List.pairwise_singleton _ _) ?lacks ?finish
  case inPlace =>
    refine fills_once (fun _ => if_pos rfl) ?_
    rintro tokens rfl
    exact reads_bool c.inPlace
  case foreign =>
    intro d name hname
    exact if_neg (by simpa using hname)
  case lacks => simp [Slot.once]
  case finish => simp [Slot.fill, Slot.once]

end media

/-! ### The configuration -/

namespace Json.BootDraft

/-- The slots of the members of a configuration. -/
def spiFlashSlot : Option SpiFlashConfig → Slot BootDraft :=
  .once BootDraft.spiFlash fun d v => { d with spiFlash := some v }

@[inherit_doc spiFlashSlot]
def mmcSlot : Option MmcConfig → Slot BootDraft :=
  .once BootDraft.mmc fun d v => { d with mmc := some v }

@[inherit_doc spiFlashSlot]
def qspiSlot : Option QspiConfig → Slot BootDraft :=
  .once BootDraft.qspi fun d v => { d with qspi := some v }

@[inherit_doc spiFlashSlot]
def payloadSlot : Bool → Slot BootDraft :=
  .once BootDraft.payload fun d v => { d with payload := some v }

@[inherit_doc spiFlashSlot]
def bootFlowSlot : BootFlow → Slot BootDraft :=
  .once BootDraft.bootFlow fun d v => { d with bootFlow := some v }

/-- The slots of a configuration of which every member is written. -/
def slotsOf (c : BootConfig) : List (Slot BootDraft) :=
  [spiFlashSlot c.spiFlash, mmcSlot c.mmc, qspiSlot c.qspi, payloadSlot c.payload,
    bootFlowSlot c.bootFlow]

/-- The slots of a configuration do not get in each other's way. -/
theorem pairwise_slotsOf (c : BootConfig) : (slotsOf c).Pairwise Slot.Apart := by
  simp only [slotsOf, List.pairwise_cons, List.mem_cons, List.not_mem_nil, or_false,
    forall_eq_or_imp, forall_eq, List.Pairwise.nil, and_true, IsEmpty.forall_iff, implies_true]
  refine ⟨⟨?_, ?_, ?_, ?_⟩, ⟨?_, ?_, ?_⟩, ⟨?_, ?_⟩, ?_⟩ <;>
    exact ⟨fun _ => rfl, fun _ h => h, fun _ h => h⟩

/-- None of them is filled in an empty draft. -/
theorem lacks_empty (c : BootConfig) : ∀ slot ∈ slotsOf c, slot.lacks BootDraft.empty := by
  simp only [slotsOf, List.forall_mem_cons]
  exact ⟨rfl, rfl, rfl, rfl, rfl, by simp⟩

section written

variable {c : BootConfig} {spiFlash mmc qspi : List (Slot BootDraft)}
  (hspiFlash : Slot.Written spiFlashSlot c.spiFlash spiFlash)
  (hmmc : Slot.Written mmcSlot c.mmc mmc) (hqspi : Slot.Written qspiSlot c.qspi qspi)

include hspiFlash hmmc hqspi

/-- The slots of the members that are written are among the slots of all. -/
theorem sublist_slotsOf :
    (spiFlash ++ mmc ++ qspi ++ [payloadSlot c.payload, bootFlowSlot c.bootFlow]).Sublist
      (slotsOf c) :=
  ((hspiFlash.sublist.append hmmc.sublist).append hqspi.sublist).append (.refl _)

/-- A member that is left out leaves the draft as if it were null. -/
theorem finish_fill :
    (Slot.fill (spiFlash ++ mmc ++ qspi ++ [payloadSlot c.payload, bootFlowSlot c.bootFlow])
      BootDraft.empty).finish = some c := by
  obtain ⟨spi, card, flash, payload, flow⟩ := c
  rcases hspiFlash with rfl | ⟨rfl, rfl⟩ <;> rcases hmmc with rfl | ⟨rfl, rfl⟩ <;>
    rcases hqspi with rfl | ⟨rfl, rfl⟩ <;> rfl

end written

/-- Members of other names are passed over. -/
theorem member_of_foreign (d : BootDraft) {name : Bytes} (h : name ∉ BootConfig.names) :
    d.member name = ignored d := by
  simp only [BootConfig.names, List.mem_cons, List.not_mem_nil, or_false, not_or] at h
  obtain ⟨h₁, h₂, h₃, h₄, h₅⟩ := h
  rw [member, if_neg h₁, if_neg h₂, if_neg h₃, if_neg h₄, if_neg h₅]

end Json.BootDraft

namespace BootConfig

open BootDraft

/-- **What says a configuration is read as the configuration.** -/
theorem reads_json {c : BootConfig} {fields : List Field} {tokens : List Bytes}
    (hfields : c.Fields fields) (h : IsObject names fields tokens) :
    Reads Json.config tokens c := by
  obtain ⟨hspiFlash, hmmc, hqspi⟩ := hfields
  obtain ⟨spiFlash, hspiFlash, hwritten⟩ : ∃ slots,
      List.Forall₂ (Field.Fills member) _ slots ∧ Slot.Written spiFlashSlot c.spiFlash slots :=
    hspiFlash.fills (fun _ => if_pos rfl) (fun _ _ => IsObject.starts)
      fun _ _ => SpiFlashConfig.reads_json
  obtain ⟨mmc, hmmc, hwritten'⟩ : ∃ slots,
      List.Forall₂ (Field.Fills member) _ slots ∧ Slot.Written mmcSlot c.mmc slots :=
    hmmc.fills (fun _ => (if_neg (by decide)).trans (if_pos rfl)) (fun _ _ => IsObject.starts)
      fun _ _ => MmcConfig.reads_json
  obtain ⟨qspi, hqspi, hwritten''⟩ : ∃ slots,
      List.Forall₂ (Field.Fills member) _ slots ∧ Slot.Written qspiSlot c.qspi slots :=
    hqspi.fills (fun _ => rfl) (fun _ _ => IsObject.starts) fun _ _ => QspiConfig.reads_json
  have hpayload : Field.Fills BootDraft.member (.token "payload" (ofBool c.payload))
      (payloadSlot c.payload) := by
    refine fills_once (fun _ => rfl) ?_
    rintro tokens rfl
    exact reads_bool c.payload
  have hflow : Field.Fills BootDraft.member (.text "boot_flow" (· = asciiText c.bootFlow.name))
      (bootFlowSlot c.bootFlow) := by
    refine fills_once (fun _ => rfl) ?_
    rintro tokens ⟨s, m, hs, rfl, rfl⟩
    exact reads_flow hs
  have hsublist := sublist_slotsOf hwritten hwritten' hwritten''
  have hall := List.rel_append (List.rel_append (List.rel_append hspiFlash hmmc) hqspi)
    (.cons hpayload (.cons hflow .nil))
  refine reads_object h hall ?_ ((pairwise_slotsOf c).sublist hsublist) ?_
    (finish_fill hwritten hwritten' hwritten'')
  · exact fun d name => member_of_foreign d
  · exact fun slot hslot => lacks_empty c slot (hsublist.subset hslot)

/-- Every text that says a configuration is read as the configuration. -/
theorem ofJson_of_spells {c : BootConfig} {text : Bytes} (h : c.Spells text) :
    ofJson text = .ok c := by
  obtain ⟨fields, tokens, s, blanks, hfields, hobject, hs, hblanks, rfl⟩ := h
  have hread : config (s ++ blanks) = .ok (c, blanks) :=
    reads_json hfields hobject s blanks hs hblanks.delimited
  rw [ofJson, whole, hread]
  exact if_pos (List.all_eq_true.mpr hblanks)

end BootConfig

/-! ### The text that is written -/

namespace Json

/-- A member with a plain name writes the field of a token. -/
theorem Field.writes_token {name : String} {token : Bytes}
    (hname : (asciiText name).all isPlain = true) :
    (Member.plain (name, [token])).Writes (.token name token) := ⟨means_of_plain hname, rfl⟩

/-- It writes the field of a text too, if the text is plain. -/
theorem Field.writes_text {name : String} {kind : Bytes → Prop} {s : Bytes}
    (hname : (asciiText name).all isPlain = true) (hs : s.all isPlain = true) (hkind : kind s) :
    (Member.plain (name, [quoted s])).Writes (.text name kind) :=
  ⟨means_of_plain hname, s, s, means_of_plain hs, hkind, rfl⟩

/-- What does not exist is written as null. -/
theorem Section.exists_writes {α : Type} (name : String) {write : α → List Bytes → Prop}
    {json : α → Bytes} (hname : (asciiText name).all isPlain = true)
    (hwrite : ∀ a, ∃ tokens, write a tokens ∧ tokens.flatten = json a) (o : Option α) :
    ∃ field tokens, Section name write o [field] ∧ (Member.plain (name, tokens)).Writes field ∧
      tokens.flatten = ofOption json o := by
  cases o with
  | none => exact ⟨_, _, .null, Field.writes_token hname, by simp [ofOption]⟩
  | some a =>
    obtain ⟨tokens, htokens, hflatten⟩ := hwrite a
    exact ⟨_, tokens, .present a, ⟨means_of_plain hname, htokens⟩, hflatten⟩

end Json

/-- What is printed of a SPI flash are tokens of its settings. -/
theorem SpiFlashConfig.exists_tokens (c : SpiFlashConfig) :
    ∃ tokens, c.Tokens tokens ∧ tokens.flatten = c.json :=
  ⟨_, isObject_of_written (.cons (Field.writes_token (by decide)) .nil),
    (flatten_objectTokens [("offset", [Json.ofNat c.offset.toNat])]).trans (by simp [json])⟩

/-- So is what is printed of a card. -/
theorem MmcConfig.exists_tokens (c : MmcConfig) :
    ∃ tokens, c.Tokens tokens ∧ tokens.flatten = c.json := by
  have hplain : c.partitionType.text.all isPlain = true :=
    List.all_eq_true.mpr (c.partitionType.forall_mem_text (by decide) (by decide))
  have hpartitionType : (Member.plain ("partition_type", [quoted c.partitionType.text])).Writes
      (.text "partition_type" fun m => m.map toLower = c.partitionType.text) :=
    Field.writes_text (by decide) hplain c.partitionType.toLower_text
  exact ⟨_,
    isObject_of_written (.cons (Field.writes_token (by decide)) (.cons hpartitionType .nil)),
    (flatten_objectTokens [("use_gpt", [ofBool c.useTable]),
      ("partition_type", [quoted c.partitionType.text])]).trans (by simp [json])⟩

/-- So is what is printed of QSPI flash. -/
theorem QspiConfig.exists_tokens (c : QspiConfig) :
    ∃ tokens, c.Tokens tokens ∧ tokens.flatten = c.json :=
  ⟨_, isObject_of_written (.cons (Field.writes_token (by decide)) .nil),
    (flatten_objectTokens [("xip", [ofBool c.inPlace])]).trans (by simp [json])⟩

namespace BootConfig

/-- The text that is written says the configuration. -/
theorem spells_json (c : BootConfig) : c.Spells c.json := by
  obtain ⟨_, spiFlash, hspiFlash, hwrites₁, htext₁⟩ := Section.exists_writes "spi_flash" (by decide)
    SpiFlashConfig.exists_tokens c.spiFlash
  obtain ⟨_, mmc, hmmc, hwrites₂, htext₂⟩ := Section.exists_writes "mmc" (by decide)
    MmcConfig.exists_tokens c.mmc
  obtain ⟨_, qspi, hqspi, hwrites₃, htext₃⟩ := Section.exists_writes "qspi" (by decide)
    QspiConfig.exists_tokens c.qspi
  have hpayload : (Member.plain ("payload", [ofBool c.payload])).Writes
      (.token "payload" (ofBool c.payload)) := Field.writes_token (by decide)
  have hflow : (Member.plain ("boot_flow", [quoted (asciiText c.bootFlow.name)])).Writes
      (.text "boot_flow" (· = asciiText c.bootFlow.name)) :=
    Field.writes_text (by decide) (by cases c.bootFlow <;> decide) rfl
  have hobject : IsObject names _ _ := isObject_of_written
    (.cons hwrites₁ (.cons hwrites₂ (.cons hwrites₃ (.cons hpayload (.cons hflow .nil)))))
  have htext := flatten_objectTokens [("spi_flash", spiFlash), ("mmc", mmc), ("qspi", qspi),
    ("payload", [ofBool c.payload]), ("boot_flow", [quoted (asciiText c.bootFlow.name)])]
  simp only [List.map_cons, List.map_nil, htext₁, htext₂, htext₃, List.flatten_singleton] at htext
  refine ⟨_, _, _, [], .mk hspiFlash hmmc hqspi, hobject, spaced_flatten _, blank_nil, ?_⟩
  rw [List.append_nil]
  exact htext.symm

/-- **Configurations read back from their texts.** The text that is written is read as the
configuration. So is every text that differs from it in no more than the order of members, members
of other names with values that are strings, truth values, null or whole numbers, blanks between
tokens, the case of an identifier's digits, and whether a medium that does not exist is null or left
out; and what is read of it is written as the same text again. -/
theorem json_reads_back (c : BootConfig) :
    ofJson c.json = .ok c ∧ c.Spells c.json ∧
      ∀ text, c.Spells text → ofJson text = .ok c ∧ (ofJson text).map json = .ok c.json := by
  refine ⟨ofJson_of_spells c.spells_json, c.spells_json, ?_⟩
  intro text htext
  have hread := ofJson_of_spells htext
  exact ⟨hread, by rw [hread]; rfl⟩

end BootConfig

namespace Bench

/-- A board with a card and a linked image, that restarts all cores. -/
def cardAndPayload : BootConfig := ⟨none, some ⟨true, bootPartitionType⟩, none, true, .restartCores⟩

/-- The tokens of a text for this board, each with the blanks before it. The members are out of
order, the identifier is in upper case, and two members have names that mean nothing. -/
def variedPieces : List (String × String) :=
  [("", "\x7b"), (" ", "\"rev\""), ("", ":"), (" ", "-7"), (" ", ","),
    ("\n\t", "\"payload\""), ("", ":"), ("", "true"), ("", ","),
    (" ", "\"qspi\""), (" ", ":"), ("", "null"), ("", ","),
    ("\n\t", "\"mmc\""), (" ", ":"), (" ", "\x7b"),
      (" ", "\"partition_type\""), ("", ":"), (" ", "\"21686148-6449-6E6F-744E-656564454649\""),
      ("", ","), ("", "\"note\""), ("", ":"), ("", "\"a\\u00e9\\n\""), ("", ","),
      (" ", "\"use_gpt\""), ("", ":"), ("", "true"), (" ", "\x7d"), ("", ","),
    ("", "\"boot_flow\""), ("", ":"), ("  ", "\"RestartCores\""), ("\n", "\x7d")]

/-- The text of these tokens. -/
def variedText : Bytes :=
  (variedPieces.map fun p => (asciiText p.1, asciiText p.2)).flatMap fun p => p.1 ++ p.2

/-- Members of the card's object in the text, of which the second has a name that means nothing. -/
def upperIdentifier : Member :=
  .plain ("partition_type", [quoted (asciiText "21686148-6449-6E6F-744E-656564454649")])

@[inherit_doc upperIdentifier]
def note : Member := .plain ("note", [quoted (asciiText "a\\u00e9\\n")])

@[inherit_doc upperIdentifier]
def useTable : Member := .plain ("use_gpt", [ofBool true])

/-- The members of the text. -/
def variedMembers : List Member :=
  [.plain ("rev", [ascii '-' :: Json.ofNat 7]), .plain ("payload", [ofBool true]),
    .plain ("qspi", [asciiText "null"]),
    .plain ("mmc", objectTokens [upperIdentifier, note, useTable]),
    .plain ("boot_flow", [quoted (asciiText "RestartCores")])]

/-- The note is no member of a card's settings. -/
theorem note_foreign : note.Foreign [asciiText "use_gpt", asciiText "partition_type"] := by
  have hnumeral : Numeral (asciiText "00e9") 0xE9 := ⟨0, 0, 14, 9, by decide, rfl⟩
  have htext : IsText (ascii 'a' :: ascii '\\' :: ascii 'u' ::
      (asciiText "00e9" ++ [ascii '\\', ascii 'n'])) :=
    .plain (by decide) (.numbered hnumeral (.short (b := 10) (by decide) .nil))
  exact ⟨⟨asciiText "note", means_of_plain (by decide), by decide⟩, _, .string htext, rfl⟩

/-- The members of the card's settings may be written so. -/
theorem tokens_card : (⟨true, bootPartitionType⟩ : MmcConfig).Tokens
    (objectTokens [upperIdentifier, note, useTable]) := by
  refine ⟨_, [useTable, upperIdentifier], [note], by decide, ?_, ?_, rfl⟩
  · exact .cons (Field.writes_token (by decide))
      (.cons (Field.writes_text (by decide) (by decide) (by decide)) .nil)
  · simpa using note_foreign

/-- The text says the board, and is read as it. -/
theorem reads_variedText :
    cardAndPayload.Spells variedText ∧ BootConfig.ofJson variedText = .ok cardAndPayload := by
  have hcard : (Member.plain ("mmc", objectTokens [upperIdentifier, note, useTable])).Writes
      ⟨asciiText "mmc", MmcConfig.Tokens ⟨true, bootPartitionType⟩⟩ :=
    ⟨means_of_plain (by decide), tokens_card⟩
  have hrev : (Member.plain ("rev", [ascii '-' :: Json.ofNat 7])).Foreign BootConfig.names :=
    ⟨⟨asciiText "rev", means_of_plain (by decide), by decide⟩, _, .negative 7, rfl⟩
  have hobject : IsObject BootConfig.names
      ([] ++ [⟨asciiText "mmc", MmcConfig.Tokens ⟨true, bootPartitionType⟩⟩] ++
        [.token "qspi" (asciiText "null")] ++ [.token "payload" (ofBool true),
          .text "boot_flow" (· = asciiText BootFlow.restartCores.name)])
      (objectTokens variedMembers) := by
    refine ⟨_, [.plain ("mmc", objectTokens [upperIdentifier, note, useTable]),
      .plain ("qspi", [asciiText "null"]), .plain ("payload", [ofBool true]),
      .plain ("boot_flow", [quoted (asciiText "RestartCores")])],
      [.plain ("rev", [ascii '-' :: Json.ofNat 7])], by decide, ?_, ?_, rfl⟩
    · exact .cons hcard (.cons (Field.writes_token (by decide)) (.cons
        (Field.writes_token (by decide)) (.cons
          (Field.writes_text (by decide) (by decide) rfl) .nil)))
    · simpa using hrev
  have hspaced : Spaced (objectTokens variedMembers) variedText := by
    have htokens : objectTokens variedMembers =
        (variedPieces.map fun p => (asciiText p.1, asciiText p.2)).map Prod.snd := by
      decide +kernel
    have hblank : (variedPieces.all fun p => (asciiText p.1).all isBlank) = true := by
      decide +kernel
    rw [htokens]
    apply spaced_flatMap
    rw [List.forall_mem_map]
    exact fun p hp => List.all_eq_true.mp (List.all_eq_true.mp hblank p hp)
  have hspells : cardAndPayload.Spells variedText :=
    ⟨_, _, _, [], .mk .leftOut (.present _) .null, hobject, hspaced, blank_nil,
      (List.append_nil _).symm⟩
  obtain ⟨-, -, hread⟩ := BootConfig.json_reads_back cardAndPayload
  exact ⟨hspells, (hread _ hspells).1⟩

end Bench

end BootImage
