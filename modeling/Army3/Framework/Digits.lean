import Mathlib.Init

/-! Numbers written in a base and read back. -/

namespace Digits

variable {base : Nat} {value : Char → Nat}

/-- What digits are read as, the first of them being the highest. -/
def number (base : Nat) (value : Char → Nat) (digits : List Char) : Nat :=
  digits.foldl (fun n c => base * n + value c) 0

theorem number_concat (digits : List Char) (c : Char) :
    number base value (digits ++ [c]) = base * number base value digits + value c := by
  rw [number, List.foldl_append]
  rfl

theorem number_map (change : Char → Char) (digits : List Char) :
    number base value (digits.map change) = number base (value ∘ change) digits := by
  rw [number, List.foldl_map]
  rfl

/-- A number is read back from its digits. -/
theorem number_toDigits (hbase : 1 < base) (hvalue : ∀ d < base, value d.digitChar = d) (n : Nat) :
    number base value (Nat.toDigits base n) = n := by
  induction n using Nat.strongRecOn with
  | ind n ih =>
    by_cases hlt : n < base
    · rw [Nat.toDigits_of_lt_base hlt, ← List.nil_append [_], number_concat, hvalue n hlt]
      exact Nat.zero_add n
    · have hquotient : n / base < n := Nat.div_lt_self (by omega) hbase
      have hdigit := hvalue (n % base) (Nat.mod_lt n (by omega))
      rw [Nat.toDigits_of_base_le hbase (by omega), number_concat, ih _ hquotient, hdigit]
      exact Nat.div_add_mod n base

theorem exists_of_mem_toDigits (hbase : 1 < base) {n : Nat} {c : Char}
    (h : c ∈ Nat.toDigits base n) : ∃ d < base, d.digitChar = c := by
  induction n using Nat.strongRecOn with
  | ind n ih =>
    by_cases hlt : n < base
    · rw [Nat.toDigits_of_lt_base hlt, List.mem_singleton] at h
      exact ⟨n, hlt, h.symm⟩
    · rw [Nat.toDigits_of_base_le hbase (by omega), List.mem_append, List.mem_singleton] at h
      rcases h with hquotient | hdigit
      · exact ih (n / base) (Nat.div_lt_self (by omega) hbase) hquotient
      · exact ⟨n % base, Nat.mod_lt n (by omega), hdigit.symm⟩

/-- Zeros in front do not count. -/
theorem number_leading_zeros (hzero : value '0' = 0) (count : Nat) (digits : List Char) :
    number base value (List.replicate count '0' ++ digits) = number base value digits := by
  induction count with
  | zero => rfl
  | succ count ih =>
    rw [← ih, List.replicate_succ, List.cons_append, number, List.foldl_cons, hzero]
    rfl

end Digits
