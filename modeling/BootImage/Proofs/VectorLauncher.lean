import BootImage.VectorLauncher
import Mathlib.Tactic.Common

/-!
# What the launcher of a single core starts

A launcher is told images and asked to start them, in any order. That of a single core answers from
the image that it was told last, and from nothing else that it was asked before.

* `VectorLauncher.start_eq` — the two ways of asking for a start come to one.
* `VectorLauncher.after_calls` — what the launcher knows after any calls.
* `VectorLauncher.starts_in_image` — it starts the core exactly if the offset of the vector table is
  inside the image that was registered last. That is where the table starts. A core reads eight
  bytes from there, and the image need not have more than the first (`table_cut_off`).
-/

namespace BootImage

/-- A call of a launcher. -/
inductive LauncherCall where
  | register (image : Bytes)
  | start (call : LaunchCall)
  deriving DecidableEq, Repr

/-- The image of a call that registers one. -/
def LauncherCall.image? : LauncherCall → Option Bytes
  | register image => some image
  | start _ => none

/-- The launcher that a call leaves. -/
def Launcher.next {ℓ : Type} [Launcher ℓ] (l : ℓ) : LauncherCall → ℓ
  | .register image => Launcher.register l image
  | .start call => (Launcher.start l call).2

/-- The launcher that calls leave, one after the other. -/
def Launcher.after {ℓ : Type} [Launcher ℓ] (l : ℓ) (calls : List LauncherCall) : ℓ :=
  calls.foldl Launcher.next l

/-- The image that was registered last. -/
def lastRegistered (calls : List LauncherCall) : Option Bytes :=
  calls.reverse.findSome? LauncherCall.image?

/-- The last image of some calls is that of the later ones, and that of the first if there is
none. -/
theorem lastRegistered_cons (call : LauncherCall) (calls : List LauncherCall) :
    lastRegistered (call :: calls) = (lastRegistered calls).or call.image? := by
  rw [lastRegistered, lastRegistered, List.reverse_cons, List.findSome?_append,
    List.findSome?_singleton]

/-- The cores that a request is for; without a flow of its own, a launcher restarts all. -/
def LaunchCall.cores : LaunchCall → Cores
  | restart cores => cores
  | custom => .all

/-- The request that a boot flow leads to is for all cores. -/
theorem BootFlow.cores_call (flow : BootFlow) : flow.call.cores = .all := by
  cases flow with
  | restartCores => rfl
  | custom => rfl

/-- The number of bytes that a core reads at the start of a vector table: the initial stack pointer
and the reset vector. -/
def vectorTableSize : Nat := 8

/-- The bytes of the vector table at an offset, as far as the image has them. -/
def vectorTable (offset : Nat) (image : Bytes) : Bytes := (image.drop offset).take vectorTableSize

/-- The vector table has no more bytes than the image has from there on. -/
theorem length_vectorTable (offset : Nat) (image : Bytes) :
    (vectorTable offset image).length = min vectorTableSize (image.length - offset) := by
  rw [vectorTable, List.length_take, List.length_drop]

namespace VectorLauncher

variable {l : VectorLauncher} {image : Bytes} {offset : Nat}

/-- **A request for a start is answered by a restart, and leaves the launcher as it was.** -/
theorem start_eq (l : VectorLauncher) (call : LaunchCall) :
    Launcher.start l call = (l.reply call.cores, l) := by
  cases call with
  | restart cores => rfl
  | custom => rfl

/-- **What one call leaves**: the offset stays, and the last image is known. -/
theorem next_eq (l : VectorLauncher) (call : LauncherCall) :
    Launcher.next l call = ⟨l.vectorOffset, call.image?.or l.image⟩ := by
  cases call with
  | register image => rfl
  | start call => rw [Launcher.next, start_eq, LauncherCall.image?, Option.none_or]

/-- **What the launcher knows after any calls.** -/
theorem after_calls (calls : List LauncherCall) (l : VectorLauncher) :
    Launcher.after l calls = ⟨l.vectorOffset, (lastRegistered calls).or l.image⟩ := by
  induction calls generalizing l with
  | nil => rfl
  | cons call calls ih =>
    rw [lastRegistered_cons, Option.or_assoc, Launcher.after, List.foldl_cons]
    have hrest := ih (Launcher.next l call)
    rw [Launcher.after] at hrest
    rw [hrest, next_eq]

/-- The reply to a restart of the core. -/
theorem reply_of_some (himage : l.image = some image) : l.reply .all =
    if l.vectorOffset < image.length then .departed
    else .refused LaunchFault.outOfBounds.name := by
  unfold reply start
  rw [if_pos (.inl rfl), himage]
  by_cases hinside : l.vectorOffset < image.length
  · simp [hinside]
  · simp [hinside]

/-- When the launcher departs. -/
theorem reply_eq_departed {cores : Cores} : l.reply cores = .departed ↔
    (cores = .all ∨ cores = .single 0) ∧
      ∃ image, l.image = some image ∧ l.vectorOffset < image.length := by
  unfold reply start
  split_ifs with hcores
  · rcases l.image with _ | image
    · simp
    · by_cases hinside : l.vectorOffset < image.length
      · simp [hcores, hinside]
      · simp [hinside]
  · simp [hcores]

/-- **What a launcher starts.** After any calls, a request for a start departs exactly if it is for
the core that there is, and the offset is inside the image that was registered last. Then this image
has the first byte of the vector table, and it has the whole of what the core reads exactly if it
goes on for eight bytes. -/
theorem starts_in_image (offset : Nat) (calls : List LauncherCall) (call : LaunchCall) :
    ((Launcher.start (Launcher.after (new offset) calls) call).1 = .departed ↔
        (call.cores = .all ∨ call.cores = .single 0) ∧
          ∃ image, lastRegistered calls = some image ∧ offset < image.length) ∧
      ∀ image, lastRegistered calls = some image →
        (Launcher.start (Launcher.after (new offset) calls) call).1 = .departed →
          1 ≤ (vectorTable offset image).length ∧
            ((vectorTable offset image).length = vectorTableSize ↔
              offset + vectorTableSize ≤ image.length) := by
  have hafter : Launcher.after (new offset) calls = ⟨offset, lastRegistered calls⟩ := by
    rw [after_calls, new, Option.or_none]
  have hdeparts : (Launcher.start (Launcher.after (new offset) calls) call).1 = .departed ↔
      (call.cores = .all ∨ call.cores = .single 0) ∧
        ∃ image, lastRegistered calls = some image ∧ offset < image.length := by
    rw [hafter, start_eq]
    exact reply_eq_departed
  refine ⟨hdeparts, ?_⟩
  intro image himage hdeparted
  obtain ⟨-, image', himage', hinside⟩ := hdeparts.mp hdeparted
  cases himage.symm.trans himage'
  have hsize : vectorTableSize = 8 := rfl
  rw [length_vectorTable]
  omega

/-- An image that ends with the first byte of its vector table is started. Of the eight bytes that
the core then reads seven are not the image's. -/
theorem table_cut_off :
    let image : Bytes := List.replicate 272 0
    let l := Launcher.after (new 271) [.register image]
    (Launcher.start l (.restart .all)).1 = .departed ∧ ¬ 271 + vectorTableSize ≤ image.length ∧
      (vectorTable 271 image).length ≠ vectorTableSize := by
  intro image l
  have hlength : image.length = 272 := List.length_replicate
  have hlast : lastRegistered [.register image] = some image := rfl
  obtain ⟨hdeparts, htable⟩ := starts_in_image 271 [.register image] (.restart .all)
  have hdeparted : (Launcher.start l (.restart .all)).1 = .departed :=
    hdeparts.mpr ⟨.inl rfl, image, hlast, by rw [hlength]; decide⟩
  have hends : ¬ 271 + vectorTableSize ≤ image.length := by
    rw [hlength]
    decide
  exact ⟨hdeparted, hends, mt (htable image hlast hdeparted).2.mp hends⟩

end VectorLauncher

end BootImage
