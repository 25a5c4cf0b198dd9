import Mathlib.Data.UInt

/-! The 32-bit xorshift sequence with shifts 13, 17 and 5, and the cipher of its low bytes. -/

namespace Xorshift

def step (state : UInt32) : UInt32 :=
  let state := state ^^^ (state <<< 13)
  let state := state ^^^ (state >>> 17)
  state ^^^ (state <<< 5)

/-- Each byte is masked with the low byte of the state, which has advanced before. -/
def mask : UInt32 → List UInt8 → List UInt8
  | _, [] => []
  | state, byte :: bytes => (byte ^^^ (step state).toUInt8) :: mask (step state) bytes

@[simp] theorem length_mask (state : UInt32) (bytes : List UInt8) :
    (mask state bytes).length = bytes.length := by
  induction bytes generalizing state with
  | nil => rfl
  | cons byte bytes ih => rw [mask, List.length_cons, List.length_cons, ih]

theorem mask_mask (state : UInt32) (bytes : List UInt8) :
    mask state (mask state bytes) = bytes := by
  induction bytes generalizing state with
  | nil => rfl
  | cons byte bytes ih =>
    have hbyte : byte ^^^ (step state).toUInt8 ^^^ (step state).toUInt8 = byte := by
      rw [UInt8.xor_assoc, UInt8.xor_self, UInt8.xor_zero]
    rw [mask, mask, hbyte, ih]

end Xorshift
