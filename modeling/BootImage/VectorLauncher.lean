import BootImage.Launch

/-!
# Launching a single core from a vector table

The launcher of a board with one core. It starts the core at a fixed offset into the registered
image, where the image has its vector table. It refuses when the offset is not inside the image.
-/

namespace BootImage

/-- Why this launcher refuses. -/
inductive LaunchFault where
  /-- No image is registered. -/
  | notRegistered
  /-- The vector table would start outside the image. -/
  | outOfBounds
  /-- Another core than the one there is was asked for. -/
  | unsupportedCores
  deriving DecidableEq, Repr

/-- The fault's name in messages. -/
def LaunchFault.name : LaunchFault → String
  | notRegistered => "NotRegistered"
  | outOfBounds => "OutOfBounds"
  | unsupportedCores => "UnsupportedCores"

/-- A launcher that starts one core. -/
structure VectorLauncher where
  /-- Where in an image its vector table is. -/
  vectorOffset : Nat
  /-- The image registered last. -/
  image : Option Bytes
  deriving DecidableEq

namespace VectorLauncher

/-- A launcher without an image. -/
def new (vectorOffset : Nat) : VectorLauncher := ⟨vectorOffset, none⟩

/-- Takes note of an image. -/
def register (l : VectorLauncher) (image : Bytes) : VectorLauncher := { l with image := some image }

/-- Whether the core is started, which never comes back, or why not. -/
def start (l : VectorLauncher) (cores : Cores) : Except LaunchFault Unit :=
  if cores = .all ∨ cores = .single 0 then
    match l.image with
    | none => .error .notRegistered
    | some image => if l.vectorOffset < image.length then .ok () else .error .outOfBounds
  else .error .unsupportedCores

/-- The launcher's reply to a restart. -/
def reply (l : VectorLauncher) (cores : Cores) : LaunchReply :=
  match l.start cores with
  | .ok () => .departed
  | .error fault => .refused fault.name

instance : Launcher VectorLauncher where
  register := register
  restart l cores := (l.reply cores, l)

end VectorLauncher

end BootImage
