/-!
# The stages of a boot attempt

An attempt starts at `notStarted` and moves forward, or to `failed` from wherever it is.
-/

namespace BootImage

/-- How far a boot attempt has come. -/
inductive Stage where
  | notStarted
  | acquired
  | decompressed
  | validated
  | registered
  | failed
  deriving DecidableEq, Repr

namespace Stage

/-- The stage's name in messages. -/
def name : Stage → String
  | notStarted => "NotStarted"
  | acquired => "Acquired"
  | decompressed => "Decompressed"
  | validated => "Validated"
  | registered => "Registered"
  | failed => "Failed"

/-- The steps an attempt may take. -/
inductive Step : Stage → Stage → Prop where
  | acquire : Step notStarted acquired
  | decompress : Step acquired decompressed
  | validate : Step acquired validated
  | validateUnpacked : Step decompressed validated
  | register : Step validated registered
  | fail {s : Stage} : s ≠ failed → Step s failed

end Stage

end BootImage
