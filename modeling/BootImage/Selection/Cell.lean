import BootImage.Selection.Value

/-!
# A region of flash that holds one value

The region behaves as a cell that holds the bytes of the last value stored, and nothing once erased.
An operation that fails leaves that value as it was.

Its flash may refuse to be read, and then it matters how a value is written. The region consists of
erase pages, and every value is a record that is appended to the page being filled. If the page and
the place in it are known, a record that finds room there is written without a read. A record that
finds none closes the page and begins the next one, for which the flash has to be read. That the
page was closed stays, even if the next one cannot be begun.
-/

namespace BootImage

/-- A region of flash that holds one value. -/
structure Cell where
  /-- The size of the region. -/
  capacity : Nat
  /-- The size of an erase page. -/
  eraseSize : Nat
  /-- The bytes of the last value stored, if there is one. -/
  value : Option Bytes
  /-- How many bytes of the page being filled are taken. -/
  taken : Nat
  /-- Whether the flash refuses to be read. -/
  readsFail : Bool
  /-- Whether the flash refuses to be written. -/
  writesFail : Bool
  deriving DecidableEq

namespace Cell

/-- A region that is erased, on a flash that works. -/
def erased (capacity eraseSize : Nat) : Cell := ⟨capacity, eraseSize, none, 0, false, false⟩

/-- The number of whole pages in the region. -/
def pageCount (c : Cell) : Nat := c.capacity / c.eraseSize

/-- Whether the region is the given number of pages, and nothing besides. -/
def hasPages (c : Cell) (pages : Nat) : Bool :=
  c.capacity % c.eraseSize = 0 && c.pageCount = pages

/-- The size of a value's record: a header of 8 bytes, and the value in words of 4 bytes. -/
def recordSize (value : Bytes) : Nat := 8 + (value.length + 3) / 4 * 4

/-- The bytes of a page that records can take. The first and the last word of a page mark whether
it has been begun and closed. -/
def pageRoom (c : Cell) : Nat := c.eraseSize - 8

/-- Whether a value's record finds room in the page being filled. -/
def hasRoom (c : Cell) (value : Bytes) : Bool := c.taken + recordSize value ≤ c.pageRoom

/-- The bytes taken in a page just begun. There is always an erased page after the one being filled,
so of two pages the other one, with the record of the value in it, has to be erased: that record is
carried over. Of more pages the one to be erased holds records of earlier values only. -/
def carried (c : Cell) : Nat := if c.pageCount = 2 then c.value.elim 0 recordSize else 0

/-- The region after a value was stored. -/
def put (c : Cell) (value : Bytes) : Cell :=
  { c with
    value := some value
    taken := (if c.hasRoom value then c.taken else c.carried) + recordSize value }

/-- The region after the page being filled was closed. -/
def closePage (c : Cell) : Cell := { c with taken := c.pageRoom }

/-- Stores a value. `located` says whether the page to write to, and the place in it, are known. -/
def store (c : Cell) (located : Bool) (value : Bytes) : Except StoreFault Unit × Cell :=
  if c.writesFail then (.error .flash, c)
  else if ¬ c.readsFail then (.ok (), c.put value)
  else if ¬ located then (.error .flash, c)
  else if c.hasRoom value then (.ok (), c.put value)
  else (.error .flash, c.closePage)

/-- The stored medium, or why there is no telling. -/
def fetch (c : Cell) : Except StoreFault (Option BootMedium) :=
  if c.readsFail then .error .flash
  else
    match c.value with
    | none => .ok none
    | some stored =>
      match BootMedium.deserializeFrom stored with
      | .ok medium => .ok (some medium)
      | .error cause => .error (.undecodable cause)

/-- The region erased. -/
def erase (c : Cell) : Cell := { c with value := none, taken := 0 }

/-- A store that succeeds makes the value the one that is held. -/
theorem value_of_store_ok {c : Cell} {located : Bool} {value : Bytes}
    (h : (c.store located value).1 = .ok ()) : (c.store located value).2.value = some value := by
  unfold store at h ⊢
  split at h
  · cases h
  · split at h
    · simp_all [put]
    · split at h
      · cases h
      · split at h
        · simp_all [put]
        · cases h

/-- A store that fails leaves the value that is held. -/
theorem value_of_store_error {c : Cell} {located : Bool} {value : Bytes} {fault : StoreFault}
    (h : (c.store located value).1 = .error fault) : (c.store located value).2.value = c.value := by
  unfold store at h ⊢
  split at h
  · simp_all
  · split at h
    · cases h
    · split at h
      · simp_all
      · split at h
        · cases h
        · simp_all [closePage]

end Cell

end BootImage
