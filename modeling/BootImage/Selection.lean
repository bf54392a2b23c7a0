import BootImage.Message
import BootImage.Selection.Cell

/-!
# The selected medium, kept across resets

The selection is kept in a dedicated region of NOR flash, of a fixed number of erase pages, which is
a cell for one value (`Cell`).

`Selection` is the selection as the program holds it: it is loaded when the region is opened, and
follows every store that succeeds. `Session` is a region that is opened, written and erased from
time to time, by this program or by another version of it, while its flash may fail.

The first store after the region is opened, or after a store that failed, looks for the place to
write to; later ones know it (`Selection.located`).
-/

namespace BootImage

/-- The selection as the program holds it. -/
structure Selection where
  /-- The medium that was loaded or stored last. -/
  selected : Option BootMedium
  /-- Whether the place of the next store is known. -/
  located : Bool
  deriving DecidableEq

namespace Selection

/-- Loads the selection from a region of the given number of pages. -/
def load (pages : Nat) (c : Cell) : List Message × Except Error Selection :=
  if !c.hasPages pages then
    ([.storeSize c.capacity pages c.eraseSize], .error .storage)
  else if UInt32.size ≤ c.capacity then ([], .error .storage)
  else
    match c.fetch with
    | .error fault => ([.fetchFailed fault], .error .storage)
    | .ok none => ([.nothingStored], .ok ⟨none, false⟩)
    | .ok (some medium) => ([], .ok ⟨some medium, false⟩)

/-- What a store leaves: its messages, its outcome, the selection and the region. -/
structure Stored where
  messages : List Message
  outcome : Except Error Unit
  selection : Selection
  cell : Cell

/-- Stores a medium, and selects it if that succeeds. -/
def store (s : Selection) (c : Cell) (medium : BootMedium) : Stored :=
  match c.store s.located medium.encode with
  | (.ok (), cell) => ⟨[.storing medium], .ok (), ⟨some medium, true⟩, cell⟩
  | (.error fault, cell) =>
    ⟨[.storing medium, .storeFailed fault], .error .storage, { s with located := false }, cell⟩

end Selection

/-! ### Sessions -/

/-- Something done to a region. -/
inductive SessionStep where
  /-- The region is opened, once more if it is open. -/
  | reopen
  /-- A medium is stored, if the region is open. -/
  | store (medium : BootMedium)
  /-- Another version of the program stores bytes of its own, and the region is closed. -/
  | storeRaw (value : Bytes)
  /-- The flash starts, or ceases, to refuse reads and writes. -/
  | faults (reads writes : Bool)
  /-- The region is closed, and stays as it is. -/
  | close
  /-- The region is closed and erased. -/
  | erase
  /-- Nothing. -/
  | look
  deriving DecidableEq

/-- A region, and the selection while it is open. -/
structure Session where
  pages : Nat
  cell : Cell
  selection : Option Selection
  deriving DecidableEq

namespace Session

/-- An erased region that is closed. -/
def new (pages capacity eraseSize : Nat) : Session where
  pages := pages
  cell := Cell.erased capacity eraseSize
  selection := none

/-- The messages and the outcome of a step, and the session after it. -/
structure Stepped where
  messages : List Message
  outcome : Except Error Unit
  session : Session

/-- A step that does not fail and logs nothing. -/
def silently (s : Session) : Stepped := ⟨[], .ok (), s⟩

/-- Does one step. -/
def step (s : Session) : SessionStep → Stepped
  | .reopen =>
    match Selection.load s.pages s.cell with
    | (messages, .ok selection) => ⟨messages, .ok (), { s with selection := some selection }⟩
    | (messages, .error cause) => ⟨messages, .error cause, { s with selection := none }⟩
  | .store medium =>
    match s.selection with
    | none => silently s
    | some selection =>
      let stored := selection.store s.cell medium
      ⟨stored.messages, stored.outcome,
        { s with cell := stored.cell, selection := some stored.selection }⟩
  | .storeRaw value =>
    silently { s with cell := (s.cell.store false value).2, selection := none }
  | .faults reads writes =>
    silently { s with cell := { s.cell with readsFail := reads, writesFail := writes } }
  | .close => silently { s with selection := none }
  | .erase => silently { s with cell := s.cell.erase, selection := none }
  | .look => silently s

/-- Stores media in order up to the first that fails, and counts those that succeed. -/
def storeAll (s : Session) : List BootMedium → Nat × Stepped
  | [] => (0, silently s)
  | medium :: rest =>
    let first := s.step (.store medium)
    match first.outcome with
    | .error _ => (0, first)
    | .ok () =>
      let (count, last) := storeAll first.session rest
      (count + 1, ⟨first.messages ++ last.messages, last.outcome, last.session⟩)

end Session

end BootImage
