import Mathlib.Data.List.Infix

/-! Where a word occurs in a sequence, and how two occurrences of it can overlap. -/

namespace Occurrences

variable {α : Type}

/-- The word stands at an index of the data. -/
def OccursAt (word data : List α) (index : Nat) : Prop := word <+: data.drop index

/-- Moved by `shift`, the word agrees with itself where the two copies overlap. -/
def SelfOverlap (word : List α) (shift : Nat) : Prop := word.drop shift <+: word

/-- Next to the word at `index` the data goes on with what the word lacks of a copy of it that
overlaps it: its last elements behind it, or its first ones before it. -/
def OverlappedAt (word data : List α) (index : Nat) : Prop :=
  ∃ shift, 0 < shift ∧ shift < word.length ∧ SelfOverlap word shift ∧
    (OccursAt (word.drop (word.length - shift)) data (index + word.length) ∨
      shift ≤ index ∧ OccursAt (word.take shift) data (index - shift))

variable {word data : List α} {index shift : Nat}

theorem occursAt_zero : OccursAt word data 0 ↔ word <+: data := Iff.rfl

theorem occursAt_succ {first : α} :
    OccursAt word (first :: data) (index + 1) ↔ OccursAt word data index := Iff.rfl

theorem occursAt_drop {skip : Nat} :
    OccursAt word (data.drop skip) index ↔ OccursAt word data (skip + index) := by
  unfold OccursAt
  rw [List.drop_drop]

theorem OccursAt.index_lt (h : OccursAt word data index) (hne : word ≠ []) :
    index < data.length := by
  have hlength := h.length_le
  have hpos := List.length_pos_of_ne_nil hne
  rw [List.length_drop] at hlength
  omega

/-- A word stands in front of two pieces if it stands in front of the first as far as that goes,
and its remainder in front of the second. -/
theorem prefix_append_iff {front rest : List α} (h : front.length ≤ word.length) :
    word <+: front ++ rest ↔ front <+: word ∧ word.drop front.length <+: rest := by
  constructor
  · intro hword
    have hfront : front <+: word :=
      List.prefix_of_prefix_length_le (List.prefix_append front rest) hword h
    obtain ⟨low, rfl⟩ := hfront
    rw [List.prefix_append_right_inj] at hword
    exact ⟨List.prefix_append front low, by rwa [List.drop_left]⟩
  · intro hall
    obtain ⟨⟨low, rfl⟩, hlow⟩ := hall
    rw [List.drop_left] at hlow
    exact (List.prefix_append_right_inj front).mpr hlow

/-- A copy `shift` behind an occurrence. -/
theorem occursAt_behind_iff (h : OccursAt word data index) (hshift : shift ≤ word.length) :
    OccursAt word data (index + shift) ↔
      SelfOverlap word shift ∧
        OccursAt (word.drop (word.length - shift)) data (index + word.length) := by
  obtain ⟨rest, hrest⟩ := h
  have hbehind : data.drop (index + shift) = word.drop shift ++ rest := by
    rw [← List.drop_drop, ← hrest, List.drop_append_of_le_length hshift]
  have hafter : data.drop (index + word.length) = rest := by
    rw [← List.drop_drop, ← hrest, List.drop_left]
  unfold OccursAt SelfOverlap
  rw [hbehind, hafter, prefix_append_iff (by rw [List.length_drop]; omega), List.length_drop]

/-- A copy `shift` before an occurrence. -/
theorem occursAt_before_iff (h : OccursAt word data (index + shift)) (hshift : shift ≤ word.length)
    (hindex : index + shift ≤ data.length) :
    OccursAt word data index ↔
      SelfOverlap word shift ∧ OccursAt (word.take shift) data index := by
  obtain ⟨rest, hrest⟩ := h
  have hfront : data.drop index = (data.drop index).take shift ++ (word ++ rest) := by
    rw [hrest, ← List.drop_drop, List.take_append_drop]
  have hlength : ((data.drop index).take shift).length = shift := by
    rw [List.length_take, List.length_drop]
    omega
  generalize (data.drop index).take shift = front at hfront hlength
  have htake : word.take shift <+: front ++ (word ++ rest) ↔ front <+: word := by
    constructor
    · intro hpre
      have hsame : word.take shift <+: front :=
        List.prefix_of_prefix_length_le hpre (List.prefix_append _ _) (by simp; omega)
      have heq : word.take shift = front := hsame.eq_of_length (by simp; omega)
      exact heq ▸ List.take_prefix shift word
    · intro hpre
      have heq : word.take shift = front := by
        rw [← hlength]
        exact (List.prefix_iff_eq_take.mp hpre).symm
      rw [heq]
      exact List.prefix_append _ _
  have hself : word.drop shift <+: word ++ rest ↔ word.drop shift <+: word := by
    constructor
    · intro hpre
      exact List.prefix_of_prefix_length_le hpre (List.prefix_append word rest) (by simp)
    · exact fun hpre => hpre.trans (List.prefix_append word rest)
  unfold OccursAt SelfOverlap
  rw [hfront, prefix_append_iff (by omega), hlength, hself, htake, and_comm]

/-- Occurrences closer to each other than the length of the word overlap, and only those do. -/
theorem overlappedAt_iff (h : OccursAt word data index) :
    OverlappedAt word data index ↔
      ∃ other, other ≠ index ∧ other < index + word.length ∧ index < other + word.length ∧
        OccursAt word data other := by
  constructor
  · intro hall
    obtain ⟨shift, hpos, hlt, hself, hside⟩ := hall
    rcases hside with hbehind | ⟨hle, hbefore⟩
    · exact ⟨index + shift, by omega, by omega, by omega,
        (occursAt_behind_iff h hlt.le).mpr ⟨hself, hbehind⟩⟩
    · obtain ⟨start, rfl⟩ : ∃ start, index = start + shift := ⟨index - shift, by omega⟩
      have hword : word ≠ [] := by
        intro hnil
        simp [hnil] at hlt
      rw [Nat.add_sub_cancel] at hbefore
      exact ⟨start, by omega, by omega, by omega,
        (occursAt_before_iff h hlt.le (h.index_lt hword).le).mpr ⟨hself, hbefore⟩⟩
  · intro hall
    obtain ⟨other, hne, habove, hbelow, hother⟩ := hall
    rcases Nat.lt_or_gt_of_ne hne with hlt | hgt
    · obtain ⟨shift, rfl⟩ : ∃ shift, index = other + shift := ⟨index - other, by omega⟩
      have hword : word ≠ [] := by
        intro hnil
        rw [hnil, List.length_nil] at hbelow
        omega
      have hboth := (occursAt_before_iff h (by omega) (h.index_lt hword).le).mp hother
      refine ⟨shift, by omega, by omega, hboth.1, .inr ⟨by omega, ?_⟩⟩
      rw [Nat.add_sub_cancel]
      exact hboth.2
    · obtain ⟨shift, rfl⟩ : ∃ shift, other = index + shift := ⟨other - index, by omega⟩
      have hboth := (occursAt_behind_iff h (by omega)).mp hother
      exact ⟨shift, by omega, by omega, hboth.1, .inl hboth.2⟩

end Occurrences
