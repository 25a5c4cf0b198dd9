import Mathlib.Data.Nat.Bitwise

/-! Numbers as bytes, the low byte first. -/

namespace LittleEndian

def ofBytes : List UInt8 → Nat
  | [] => 0
  | byte :: bytes => byte.toNat + 256 * ofBytes bytes

/-- The four bytes of a word. -/
def wordBytes (word : UInt32) : List UInt8 :=
  [word.toUInt8, (word >>> 8).toUInt8, (word >>> 16).toUInt8, (word >>> 24).toUInt8]

/-- The signed reading of `bits` bits. -/
def signed (bits n : Nat) : Int := (BitVec.ofNat bits n).toInt

/-- Picking a byte of a word by shift and mask. -/
theorem byte_ofBytes (bytes : List UInt8) {index : Nat} (h : index < bytes.length) :
    (ofBytes bytes >>> (index * 8)) &&& 0xFF = bytes[index].toNat := by
  induction bytes generalizing index with
  | nil => simp at h
  | cons byte bytes ih =>
    have hbyte := byte.toNat_lt
    cases index with
    | zero =>
      simp only [ofBytes, Nat.zero_mul, Nat.shiftRight_zero, List.getElem_cons_zero]
      rw [show (0xFF : Nat) = 2 ^ 8 - 1 from rfl, Nat.and_two_pow_sub_one_eq_mod]
      omega
    | succ index =>
      have hin : index < bytes.length := by simpa using h
      have hrest := ih hin
      have hshift : ofBytes (byte :: bytes) >>> ((index + 1) * 8) =
          ofBytes bytes >>> (index * 8) := by
        have hdiv : ofBytes (byte :: bytes) / 256 = ofBytes bytes := by
          rw [ofBytes]
          omega
        rw [Nat.add_mul, Nat.one_mul, Nat.add_comm, Nat.shiftRight_add,
          Nat.shiftRight_eq_div_pow _ 8, hdiv]
      rw [hshift, List.getElem_cons_succ]
      exact hrest

theorem ofBytes_wordBytes (word : UInt32) : ofBytes (wordBytes word) = word.toNat := by
  have hlt := word.toNat_lt
  simp only [wordBytes, ofBytes, UInt32.toNat_toUInt8, UInt32.toNat_shiftRight,
    Nat.shiftRight_eq_div_pow, UInt32.reduceToNat, Nat.reduceMod, Nat.reducePow]
  omega

/-- Byte `index` of a run of words lies in word `index / 4`. -/
theorem getElem_flatMap_wordBytes (words : List UInt32) {index : Nat}
    (h : index < (words.flatMap wordBytes).length) (hword : index / 4 < words.length)
    (hbyte : index % 4 < (wordBytes words[index / 4]).length) :
    (words.flatMap wordBytes)[index] = (wordBytes words[index / 4])[index % 4] := by
  induction words generalizing index with
  | nil => simp at hword
  | cons word words ih =>
    by_cases hfirst : index < 4
    · have hdiv : index / 4 = 0 := by omega
      have hmod : index % 4 = index := by omega
      simp only [List.flatMap_cons, hdiv, List.getElem_cons_zero, hmod]
      exact List.getElem_append_left hfirst
    · obtain ⟨later, rfl⟩ := Nat.exists_eq_add_of_le (Nat.not_lt.mp hfirst)
      have hdiv : (4 + later) / 4 = later / 4 + 1 := by omega
      have hmod : (4 + later) % 4 = later % 4 := by omega
      have hlength : (words.flatMap wordBytes).length > later := by
        rw [List.flatMap_cons, List.length_append] at h
        change 4 + later < 4 + (words.flatMap wordBytes).length at h
        omega
      have hin : later / 4 < words.length := by
        rw [hdiv, List.length_cons] at hword
        omega
      have hsmall : later % 4 < (wordBytes words[later / 4]).length := Nat.mod_lt later (by decide)
      have hrest := ih hlength hin hsmall
      have hbehind : (wordBytes word).length ≤ 4 + later := Nat.le_add_right 4 later
      simp only [List.flatMap_cons, hdiv, List.getElem_cons_succ, hmod]
      rw [List.getElem_append_right hbehind]
      simpa only [wordBytes, List.length_cons, List.length_nil, Nat.add_sub_cancel_left] using hrest

end LittleEndian
