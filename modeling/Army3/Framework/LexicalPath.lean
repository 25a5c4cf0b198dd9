import Army3.Framework.PathWalk

/-! The names that a path spells by itself, without a look at the file tree. -/

namespace Files

variable {ν : Type}

/-- Where a step leads from a directory, if nothing on the way is a link. -/
def Step.apply (cur : List ν) : Step ν → List ν
  | .here => cur
  | .up => cur.dropLast
  | .down name => cur ++ [name]

/-- The names that steps spell. -/
def lexical (cur : List ν) (steps : List (Step ν)) : List ν := steps.foldl Step.apply cur

def ups (steps : List (Step ν)) : Nat := steps.countP fun step => match step with
  | .up => true
  | _ => false

def downs (steps : List (Step ν)) : Nat := steps.countP fun step => match step with
  | .down _ => true
  | _ => false

/-- Nowhere on the way more steps have led up than down. -/
def StaysBelow (steps : List (Step ν)) : Prop := ∀ front, front <+: steps → ups front ≤ downs front

section

variable {cur names : List ν} {front steps : List (Step ν)} {step : Step ν} {name : ν}

theorem lexical_append : lexical cur (front ++ steps) = lexical (lexical cur front) steps :=
  List.foldl_append

theorem lexical_concat : lexical cur (front ++ [step]) = step.apply (lexical cur front) :=
  lexical_append

theorem lexical_down : lexical cur (down names) = cur ++ names := by
  induction names generalizing cur with
  | nil => simp [lexical, down]
  | cons name names ih =>
    change lexical (cur ++ [name]) (down names) = _
    rw [ih]
    simp

theorem staysBelow_concat :
    StaysBelow (front ++ [step]) ↔
      StaysBelow front ∧ ups (front ++ [step]) ≤ downs (front ++ [step]) := by
  constructor
  · intro h
    exact ⟨fun first hfirst => h first (hfirst.trans (List.prefix_append front [step])),
      h _ (List.prefix_refl _)⟩
  · intro hall first hfirst
    rcases List.prefix_concat_iff.mp hfirst with rfl | hshort
    · exact hall.2
    · exact hall.1 first hshort

/-- Steps that stay below their start spell the same names below every start. -/
theorem lexical_of_staysBelow (h : StaysBelow steps) :
    ∃ low : List ν, low.length + ups steps = downs steps ∧
      ∀ cur, lexical cur steps = cur ++ low := by
  induction steps using List.reverseRecOn with
  | nil => exact ⟨[], rfl, fun cur => (List.append_nil cur).symm⟩
  | append_singleton front step ih =>
    obtain ⟨hfront, hlast⟩ := staysBelow_concat.mp h
    obtain ⟨low, hlength, hlow⟩ := ih hfront
    cases step with
    | here =>
      refine ⟨low, by simpa [ups, downs] using hlength, ?_⟩
      intro cur
      rw [lexical_concat, hlow]
      rfl
    | up =>
      have hup : ups (front ++ [.up]) = ups front + 1 := by simp [ups]
      have hdown : downs (front ++ [.up]) = downs front := by simp [downs]
      have hpos : 0 < low.length := by omega
      refine ⟨low.dropLast, by rw [List.length_dropLast]; omega, ?_⟩
      intro cur
      rw [lexical_concat, hlow]
      exact List.dropLast_append_of_ne_nil (List.ne_nil_of_length_pos hpos)
    | down name =>
      have hup : ups (front ++ [.down name]) = ups front := by simp [ups]
      have hdown : downs (front ++ [.down name]) = downs front + 1 := by simp [downs]
      refine ⟨low ++ [name], by rw [List.length_append, List.length_singleton]; omega, ?_⟩
      intro cur
      rw [lexical_concat, hlow]
      exact List.append_assoc cur low [name]

/-- A name that no step mentions does not come back. -/
theorem not_mem_lexical (hcur : name ∉ cur) (hfresh : .down name ∉ steps) :
    name ∉ lexical cur steps := by
  induction steps using List.reverseRecOn with
  | nil => exact hcur
  | append_singleton front step ih =>
    rw [List.mem_append, List.mem_singleton, not_or] at hfresh
    have hfront := ih hfresh.1
    rw [lexical_concat]
    cases step with
    | here => exact hfront
    | up => exact fun hmem => hfront (List.mem_of_mem_dropLast hmem)
    | down other =>
      intro hmem
      rcases List.mem_append.mp hmem with hold | hlast
      · exact hfront hold
      · have hother : name = other := List.mem_singleton.mp hlast
        exact hfresh.2 (by rw [hother])

/-- Steps that go above their start leave a start whose name they do not mention. -/
theorem not_mem_lexical_of_above (h : ¬ StaysBelow steps) (hfresh : .down name ∉ steps) :
    name ∉ lexical [name] steps := by
  induction steps using List.reverseRecOn with
  | nil =>
    refine absurd ?_ h
    intro front hfront
    rw [List.prefix_nil.mp hfront]
    exact Nat.le_refl 0
  | append_singleton front step ih =>
    have hsplit := hfresh
    rw [List.mem_append, not_or] at hsplit
    by_cases hfront : StaysBelow front
    · rw [staysBelow_concat, not_and] at h
      have habove := h hfront
      obtain ⟨low, hlength, hlow⟩ := lexical_of_staysBelow hfront
      have hwithin := hfront front (List.prefix_refl front)
      have hcounts : ups (front ++ [step]) = ups front + ups [step] ∧
          downs (front ++ [step]) = downs front + downs [step] := by simp [ups, downs]
      cases step with
      | here => simp [ups, downs] at hcounts habove hwithin; omega
      | up =>
        have hone : ups [(.up : Step ν)] = 1 ∧ downs [(.up : Step ν)] = 0 := ⟨rfl, rfl⟩
        have hnil : low = [] := List.eq_nil_of_length_eq_zero (by omega)
        rw [lexical_concat, hlow, hnil]
        simp [Step.apply]
      | down other =>
        have hone : ups [.down other] = 0 ∧ downs [.down other] = 1 := ⟨rfl, rfl⟩
        omega
    · rw [lexical_append]
      exact not_mem_lexical (ih hfront hsplit.1) hsplit.2

end

end Files
