import Mathlib.Algebra.Ring.Nat
import Mathlib.Data.List.Induction

namespace BigEndian

/-- The `width` low base-256 digits of `n`, most significant first. -/
def toBytes : Nat → Nat → List UInt8
  | 0, _ => []
  | width + 1, n => toBytes width (n / 256) ++ [UInt8.ofNat n]

def fromBytes (bytes : List UInt8) : Nat := bytes.foldl (fun n b => 256 * n + b.toNat) 0

@[simp]
theorem toBytes_length (width n : Nat) : (toBytes width n).length = width := by
  induction width generalizing n with
  | zero => rfl
  | succ width ih => simp [toBytes, ih]

@[simp]
theorem fromBytes_append_singleton (bytes : List UInt8) (b : UInt8) :
    fromBytes (bytes ++ [b]) = 256 * fromBytes bytes + b.toNat := by
  simp [fromBytes]

theorem fromBytes_lt (bytes : List UInt8) : fromBytes bytes < 256 ^ bytes.length := by
  induction bytes using List.reverseRecOn with
  | nil => simp [fromBytes]
  | append_singleton bytes b ih =>
    have hb := b.toNat_lt
    rw [fromBytes_append_singleton, List.length_append, List.length_singleton, Nat.pow_succ]
    omega

theorem fromBytes_toBytes (width n : Nat) (h : n < 256 ^ width) :
    fromBytes (toBytes width n) = n := by
  induction width generalizing n with
  | zero => simp at h; simp [h, toBytes, fromBytes]
  | succ width ih =>
    have hq : n / 256 < 256 ^ width := by
      rw [Nat.div_lt_iff_lt_mul (by decide)]
      simpa [Nat.pow_succ] using h
    rw [toBytes, fromBytes_append_singleton, ih _ hq, UInt8.toNat_ofNat']
    omega

theorem toBytes_fromBytes (bytes : List UInt8) :
    toBytes bytes.length (fromBytes bytes) = bytes := by
  induction bytes using List.reverseRecOn with
  | nil => rfl
  | append_singleton bytes b ih =>
    have hb := b.toNat_lt
    have hq : (256 * fromBytes bytes + b.toNat) / 256 = fromBytes bytes := by omega
    have hr : UInt8.ofNat (256 * fromBytes bytes + b.toNat) = b := by
      apply UInt8.toNat_inj.mp
      rw [UInt8.toNat_ofNat']
      omega
    rw [fromBytes_append_singleton, List.length_append, List.length_singleton, toBytes, hq, hr, ih]

end BigEndian
