import BootImage.Bytes

/-!
# Launchers

A launcher takes over a validated image: it is told the image (`register`) and is then asked to
start it, by restarting cores or by a flow of its own. It is any state with these operations. Its
reply to a start is one of three: it comes back, it refuses, or it departs, which is to say that
control is in the image and nothing comes back at all.
-/

namespace BootImage

/-- The cores to start. -/
inductive Cores where
  | all
  | single (core : UInt8)
  deriving DecidableEq, Repr

/-- What follows the registration of an image. -/
inductive BootFlow where
  /-- All cores are restarted into the image. -/
  | restartCores
  /-- The launcher runs a flow of its own. -/
  | custom
  deriving DecidableEq, Repr

namespace Cores

/-- The text of a choice of cores. -/
def name : Cores → String
  | all => "All"
  | single core => "Single(" ++ toString core.toNat ++ ")"

end Cores

namespace BootFlow

/-- The flows in the order of their indices. -/
def all : List BootFlow := [restartCores, custom]

/-- The flow's place in the order. -/
def index : BootFlow → Nat
  | restartCores => 0
  | custom => 1

/-- The flow's name in settings. -/
def name : BootFlow → String
  | restartCores => "RestartCores"
  | custom => "Custom"

end BootFlow

/-- A launcher's reply to being asked to start an image. -/
inductive LaunchReply where
  /-- The launch call came back without complaint. -/
  | returned
  /-- The launcher refused, with a reason in its own words. -/
  | refused (fault : String)
  /-- Control went to the image. -/
  | departed
  deriving DecidableEq, Repr

/-- A request to start the registered image. -/
inductive LaunchCall where
  | restart (cores : Cores)
  | custom
  deriving DecidableEq, Repr

/-- The request that a boot flow leads to. -/
def BootFlow.call : BootFlow → LaunchCall
  | restartCores => .restart .all
  | custom => .custom

/-- A launch mechanism with states `ℓ`. -/
class Launcher (ℓ : Type) where
  /-- Takes note of a validated image. -/
  register : ℓ → Bytes → ℓ
  /-- Starts cores in the image. -/
  restart : ℓ → Cores → LaunchReply × ℓ
  /-- The launcher's own flow; without one, all cores are restarted. -/
  customFlow : ℓ → LaunchReply × ℓ := fun l => restart l .all

/-- What a launcher does on a request. -/
def Launcher.start {ℓ : Type} [Launcher ℓ] (l : ℓ) : LaunchCall → LaunchReply × ℓ
  | .restart cores => Launcher.restart l cores
  | .custom => Launcher.customFlow l

end BootImage
