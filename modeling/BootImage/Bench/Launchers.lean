import BootImage.Attempt
import BootImage.VectorLauncher

/-!
# Launchers for trying the pipeline out

A launcher with a flow of its own, one without, and the launcher of a single core. The first two
can be told to refuse. What such a launcher sees of an attempt (`BenchLauncher.sees`) is the
attempt's calls, except that one without a flow of its own sees a restart of all cores in its
place.
-/

namespace BootImage.Bench

/-- A launcher of one of three kinds. -/
inductive BenchLauncher where
  /-- It has a flow of its own. -/
  | custom (fails : Bool)
  /-- It has no flow of its own. -/
  | plain (fails : Bool)
  /-- It starts a single core. -/
  | vector (launcher : VectorLauncher)

namespace BenchLauncher

/-- The reply of a launcher that can be told to refuse. -/
def replyUnless (fails : Bool) : LaunchReply := if fails then .refused "Refused" else .returned

/-- The reply to a restart. -/
def restart : BenchLauncher → Cores → LaunchReply × BenchLauncher
  | custom fails, _ => (replyUnless fails, custom fails)
  | plain fails, _ => (replyUnless fails, plain fails)
  | vector l, cores =>
    let (reply, l) := Launcher.restart l cores
    (reply, vector l)

/-- The reply to a request for the launcher's own flow. -/
def customFlow : BenchLauncher → LaunchReply × BenchLauncher
  | custom fails => (replyUnless fails, custom fails)
  | plain fails => restart (plain fails) .all
  | vector l =>
    let (reply, l) := Launcher.customFlow l
    (reply, vector l)

instance : Launcher BenchLauncher where
  register
    | custom fails, _ => custom fails
    | plain fails, _ => plain fails
    | vector l, image => vector (Launcher.register l image)
  restart := restart
  customFlow := customFlow

/-- Tells the launcher to refuse, or not to; that of a single core cannot be told. -/
def setFails (fails : Bool) : BenchLauncher → BenchLauncher
  | custom _ => custom fails
  | plain _ => plain fails
  | vector l => vector l

/-- What the launcher sees of an event; that of a single core keeps no record. -/
def sees : BenchLauncher → Event → Option Event
  | custom _, .register place image => some (.register place image)
  | custom _, .launch call => some (.launch call)
  | plain _, .register place image => some (.register place image)
  | plain _, .launch _ => some (.launch (.restart .all))
  | _, _ => none

end BenchLauncher

end BootImage.Bench
