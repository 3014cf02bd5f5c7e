import Mathlib.Data.List.Basic
import Mathlib.Algebra.Ring.Nat

/-!
# Length-prefixed records

A record is the length of its payload in four bytes, the lowest first, and the payload. A sequence
of records can be read back as long as every length fits into the prefix.
-/

namespace Framing

def toLeBytes (n : UInt32) : List UInt8 :=
  [UInt8.ofNat n.toNat, UInt8.ofNat (n.toNat / 2 ^ 8), UInt8.ofNat (n.toNat / 2 ^ 16),
    UInt8.ofNat (n.toNat / 2 ^ 24)]

def ofLeBytes (b₀ b₁ b₂ b₃ : UInt8) : Nat :=
  b₀.toNat + 2 ^ 8 * b₁.toNat + 2 ^ 16 * b₂.toNat + 2 ^ 24 * b₃.toNat

/-- The prefix of a payload of `2 ^ 32` bytes or more holds its length modulo `2 ^ 32`. -/
def frame (payload : List UInt8) : List UInt8 :=
  toLeBytes (UInt32.ofNat payload.length) ++ payload

def frames (payloads : List (List UInt8)) : List UInt8 := payloads.flatMap frame

/-- The payloads, unless the bytes end inside a record. -/
def unframe : List UInt8 → Option (List (List UInt8))
  | [] => some []
  | b₀ :: b₁ :: b₂ :: b₃ :: bytes =>
    let n := ofLeBytes b₀ b₁ b₂ b₃
    if n ≤ bytes.length then (unframe (bytes.drop n)).map fun payloads => bytes.take n :: payloads
    else none
  | _ => none
termination_by bytes => bytes.length
decreasing_by simp only [List.length_cons, List.length_drop]; omega

theorem ofLeBytes_toLeBytes (n : UInt32) :
    ∃ b₀ b₁ b₂ b₃, toLeBytes n = [b₀, b₁, b₂, b₃] ∧ ofLeBytes b₀ b₁ b₂ b₃ = n.toNat := by
  refine ⟨_, _, _, _, rfl, ?_⟩
  have hn := n.toNat_lt
  simp only [ofLeBytes, UInt8.toNat_ofNat']
  omega

@[simp]
theorem frames_nil : frames [] = [] := rfl

@[simp]
theorem frames_cons (payload : List UInt8) (payloads : List (List UInt8)) :
    frames (payload :: payloads) = frame payload ++ frames payloads := rfl

@[simp]
theorem frames_append (payloads payloads' : List (List UInt8)) :
    frames (payloads ++ payloads') = frames payloads ++ frames payloads' :=
  List.flatMap_append

theorem unframe_frame_append {payload : List UInt8} (h : payload.length < 2 ^ 32)
    (bytes : List UInt8) :
    unframe (frame payload ++ bytes) = (unframe bytes).map fun payloads => payload :: payloads := by
  obtain ⟨b₀, b₁, b₂, b₃, hbytes, hlength⟩ := ofLeBytes_toLeBytes (UInt32.ofNat payload.length)
  rw [UInt32.toNat_ofNat_of_lt' h] at hlength
  have hframe : frame payload ++ bytes = b₀ :: b₁ :: b₂ :: b₃ :: (payload ++ bytes) := by
    rw [frame, hbytes]
    rfl
  rw [hframe, unframe]
  simp only [hlength, List.length_append]
  rw [if_pos (Nat.le_add_right _ _), List.drop_left, List.take_left]

theorem unframe_frames {payloads : List (List UInt8)} (h : ∀ p ∈ payloads, p.length < 2 ^ 32) :
    unframe (frames payloads) = some payloads := by
  induction payloads with
  | nil => rw [frames_nil, unframe]
  | cons payload payloads ih =>
      rw [frames_cons, unframe_frame_append (h payload List.mem_cons_self),
        ih fun p hp => h p (List.mem_cons_of_mem payload hp)]
      rfl

end Framing
