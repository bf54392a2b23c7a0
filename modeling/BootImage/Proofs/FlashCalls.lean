import BootImage.NorFlash
import Mathlib.Tactic.Common

/-!
# The calls that reach a flash driver

The adapter decides of each read whether it may reach the driver (`NorDevice.permit_eq_ok_iff`). A
read that may is answered by the driver (`NorDevice.read_of_permit`), and one that may not changes
nothing (`NorDevice.read_of_not_permit`).

So the driver is only called within its capacity and at offsets of 32 bits, whatever reads the
device is asked for and whatever the driver does. This is said of a driver that notes its calls
(`Recorded`): one read makes at most one call (`NorDevice.calls_read`), from which the calls of any
sequence of reads follow by induction (`NorDevice.calls_after`). Noting the calls has no bearing on
them (`NorDevice.after_unrecorded`), so this holds of any driver (`NorDevice.driver_calls`).
-/

namespace BootImage

namespace FlashDriver

variable {φ : Type} [FlashDriver φ]

/-- The states that a driver can get into by reads. -/
inductive Reaches (f : φ) : φ → Prop
  | refl : Reaches f f
  | read {f' : φ} (offset : Nat) (buffer : Bytes) (h : Reaches f f') :
      Reaches f (FlashDriver.read f' offset buffer).driver

/-- Reads can go on after reads. -/
theorem Reaches.trans {f f' f'' : φ} (h : Reaches f f') (h' : Reaches f' f'') : Reaches f f'' := by
  induction h' with
  | refl => exact h
  | read offset buffer _ ih => exact ih.read offset buffer

end FlashDriver

/-! ### Reads through the adapter -/

namespace NorDevice

variable {φ : Type} [FlashDriver φ] {n : NorDevice φ} {medium : BlockMedium} {offset : Nat}
  {buffer : Bytes}

/-- What may reach the driver. -/
theorem permit_eq_ok_iff {length : Nat} : n.permit medium offset length = .ok () ↔
    medium = n.medium ∧ offset < UInt32.size ∧
      offset + length ≤ FlashDriver.capacity n.flash := by
  unfold permit
  split_ifs with hmedium hoffset hend
  · simp [hmedium]
  · simp [Nat.not_lt.mpr hoffset]
  · simp [Nat.not_le.mpr hend]
  · simp only [not_not] at hmedium
    simp [hmedium, Nat.not_le.mp hoffset, Nat.not_lt.mp hend]

/-- A permitted read is one by the driver. -/
theorem read_of_permit (h : n.permit medium offset buffer.length = .ok ()) :
    Device.read n medium offset buffer =
      ⟨(FlashDriver.read n.flash offset buffer).fault.map describe,
        (FlashDriver.read n.flash offset buffer).buffer,
        { n with flash := (FlashDriver.read n.flash offset buffer).driver }⟩ := by
  show ReadAnswer.mk ((n.read medium offset buffer).fault.map describe) _ _ = _
  simp only [read, h]

/-- A read that is not permitted changes nothing. -/
theorem read_of_not_permit (h : n.permit medium offset buffer.length ≠ .ok ()) :
    ∃ fault, Device.read n medium offset buffer = ⟨some fault, buffer, n⟩ := by
  rcases hpermit : n.permit medium offset buffer.length with fault | _
  · refine ⟨describe fault, ?_⟩
    show ReadAnswer.mk ((n.read medium offset buffer).fault.map describe) _ _ = _
    simp only [read, hpermit, Option.map_some]
  · exact absurd hpermit h

/-- After a read the device still serves its medium, through the driver that the read left. -/
theorem device_read (n : NorDevice φ) (medium : BlockMedium) (offset : Nat) (buffer : Bytes) :
    (Device.read n medium offset buffer).device.medium = n.medium ∧
      FlashDriver.Reaches n.flash (Device.read n medium offset buffer).device.flash := by
  by_cases h : n.permit medium offset buffer.length = .ok ()
  · rw [read_of_permit h]
    exact ⟨rfl, .read offset buffer .refl⟩
  · obtain ⟨fault, hread⟩ := read_of_not_permit h
    rw [hread]
    exact ⟨rfl, .refl⟩

end NorDevice

/-! ### The calls of a driver -/

/-- A call of a flash driver, with the capacity that the driver had at the time. -/
structure FlashCall where
  offset : Nat
  length : Nat
  capacity : Nat

/-- The call is at an offset of 32 bits, and ends within the capacity. -/
def FlashCall.Within (call : FlashCall) : Prop :=
  call.offset < UInt32.size ∧ call.offset + call.length ≤ call.capacity

/-- A flash driver with the calls that it had, in order. -/
structure Recorded (φ : Type) where
  driver : φ
  calls : List FlashCall

instance {φ : Type} [FlashDriver φ] : FlashDriver (Recorded φ) where
  capacity f := FlashDriver.capacity f.driver
  read f offset buffer :=
    let answer := FlashDriver.read f.driver offset buffer
    ⟨answer.fault, answer.buffer, answer.driver,
      f.calls ++ [⟨offset, buffer.length, FlashDriver.capacity f.driver⟩]⟩
  length_read f := FlashDriver.length_read f.driver

/-- A read that a device is asked for. -/
structure ReadRequest where
  medium : BlockMedium
  offset : UInt64
  buffer : Bytes

/-- The device after some reads. -/
def Device.after {δ : Type} [Device δ] (d : δ) : List ReadRequest → δ
  | [] => d
  | r :: requests => Device.after (read d r.medium r.offset.toNat r.buffer).device requests

namespace NorDevice

variable {φ : Type} [FlashDriver φ]

/-- A flash whose calls are noted from now on. -/
def recorded (n : NorDevice φ) : NorDevice (Recorded φ) := ⟨n.medium, n.flash, []⟩

/-- The flash without what was noted of its calls. -/
def unrecorded (n : NorDevice (Recorded φ)) : NorDevice φ := ⟨n.medium, n.flash.driver⟩

/-- The places on a medium that are read by some requests, with the numbers of bytes. -/
def placesOn (medium : BlockMedium) (requests : List ReadRequest) : List (Nat × Nat) :=
  (requests.filter fun r => r.medium = medium).map fun r => (r.offset.toNat, r.buffer.length)

/-- The calls are within the capacity, and are at some of these places in this order. -/
structure CallsAt (calls : List FlashCall) (places : List (Nat × Nat)) : Prop where
  within : ∀ call ∈ calls, call.Within
  places : (calls.map fun call => (call.offset, call.length)).Sublist places

/-- Calls of later reads come after those of earlier ones. -/
theorem CallsAt.append {calls calls' : List FlashCall} {places places' : List (Nat × Nat)}
    (h : CallsAt calls places) (h' : CallsAt calls' places') :
    CallsAt (calls ++ calls') (places ++ places') where
  within := by
    intro call hcall
    rcases List.mem_append.mp hcall with hcall | hcall
    · exact h.within call hcall
    · exact h'.within call hcall
  places := by
    rw [List.map_append]
    exact h.places.append h'.places

/-- Noting the calls has no bearing on a read. -/
theorem read_unrecorded (n : NorDevice (Recorded φ)) (medium : BlockMedium) (offset : Nat)
    (buffer : Bytes) :
    Device.read n.unrecorded medium offset buffer =
      ⟨(Device.read n medium offset buffer).fault, (Device.read n medium offset buffer).buffer,
        (Device.read n medium offset buffer).device.unrecorded⟩ := by
  have hpermit : n.unrecorded.permit medium offset buffer.length =
      n.permit medium offset buffer.length := rfl
  show ReadAnswer.mk ((n.unrecorded.read medium offset buffer).fault.map describe)
      (n.unrecorded.read medium offset buffer).buffer
      (n.unrecorded.read medium offset buffer).driver =
    ReadAnswer.mk ((n.read medium offset buffer).fault.map describe)
      (n.read medium offset buffer).buffer (n.read medium offset buffer).driver.unrecorded
  unfold read
  rw [hpermit]
  split <;> rfl

/-- A read makes at most one call, within the capacity and at the place that is to be read, and none
if it is of another medium. -/
theorem calls_read (n : NorDevice (Recorded φ)) (r : ReadRequest) :
    ∃ calls, (Device.read n r.medium r.offset.toNat r.buffer).device.flash.calls =
        n.flash.calls ++ calls ∧
      CallsAt calls (placesOn n.medium [r]) := by
  by_cases h : n.permit r.medium r.offset.toNat r.buffer.length = .ok ()
  · obtain ⟨hmedium, hoffset, hend⟩ := permit_eq_ok_iff.mp h
    have hplaces : placesOn n.medium [r] = [(r.offset.toNat, r.buffer.length)] := by
      simp [placesOn, hmedium]
    rw [read_of_permit h, hplaces]
    refine ⟨[⟨r.offset.toNat, r.buffer.length, FlashDriver.capacity n.flash⟩], rfl, ?_, .refl _⟩
    intro call hcall
    obtain rfl := List.mem_singleton.mp hcall
    exact ⟨hoffset, hend⟩
  · obtain ⟨fault, hread⟩ := read_of_not_permit h
    rw [hread]
    refine ⟨[], (List.append_nil _).symm, ?_, List.nil_sublist _⟩
    intro call hcall
    cases hcall

/-- **The driver is only called within its capacity**, whatever reads the device is asked for, and
whatever the driver does. By induction on the reads. -/
theorem calls_after (n : NorDevice (Recorded φ)) (requests : List ReadRequest) :
    ∃ calls, (Device.after n requests).flash.calls = n.flash.calls ++ calls ∧
      CallsAt calls (placesOn n.medium requests) := by
  induction requests generalizing n with
  | nil => exact ⟨[], (List.append_nil _).symm, by simp, List.nil_sublist _⟩
  | cons r requests ih =>
    obtain ⟨calls, hcalls, hat⟩ := n.calls_read r
    obtain ⟨calls', hcalls', hat'⟩ := ih (Device.read n r.medium r.offset.toNat r.buffer).device
    rw [(n.device_read _ _ _).1] at hat'
    refine ⟨calls ++ calls', ?_, ?_⟩
    · rw [Device.after, hcalls', hcalls, List.append_assoc]
    · have hsplit : placesOn n.medium (r :: requests) =
          placesOn n.medium [r] ++ placesOn n.medium requests := by
        simp only [placesOn, ← List.map_append, ← List.filter_append, List.singleton_append]
      rw [hsplit]
      exact hat.append hat'

/-- Noting the calls has no bearing on a sequence of reads. -/
theorem after_unrecorded (n : NorDevice (Recorded φ)) (requests : List ReadRequest) :
    Device.after n.unrecorded requests = (Device.after n requests).unrecorded := by
  induction requests generalizing n with
  | nil => rfl
  | cons r requests ih => rw [Device.after, Device.after, read_unrecorded, ih]

/-- **The calls of a driver, whatever its flash is asked for**, are for some of the reads of the
flash's own medium, as they come, at offsets of 32 bits and within the driver's capacity. What is
noted to say so has no bearing on the driver. -/
theorem driver_calls (n : NorDevice φ) (requests : List ReadRequest) :
    (Device.after n.recorded requests).unrecorded = Device.after n requests ∧
      CallsAt (Device.after n.recorded requests).flash.calls (placesOn n.medium requests) := by
  obtain ⟨calls, hcalls, hat⟩ := n.recorded.calls_after requests
  have hnone : n.recorded.flash.calls = [] := rfl
  rw [hcalls, hnone, List.nil_append]
  exact ⟨(after_unrecorded n.recorded requests).symm, hat⟩

end NorDevice

end BootImage
