import Mathlib.Data.Set.Function

/-! Sequences whose entries absorb everything before them: a running fold, the loop that computes
it in place, and the differences that undo it. -/

namespace RunningFold

variable {α : Type} (op undo : α → α → α)

/-- The first entry, and then every entry combined with the one before it in the result. -/
def absorb : List α → List α
  | [] => []
  | first :: rest => rest.scanl (fun last entry => op entry last) first

/-- The entries after `last`, each without the one before it. -/
def differencesFrom (last : α) : List α → List α
  | [] => []
  | entry :: rest => undo entry last :: differencesFrom entry rest

/-- Every entry but the first without the one before it. -/
def differences : List α → List α
  | [] => []
  | first :: rest => first :: differencesFrom undo first rest

/-- One turn of the loop at an index. -/
def turn (default : α) (entries : List α) (index : Nat) : List α :=
  entries.set index (op (entries.getD index default) (entries.getD (index - 1) default))

variable {op undo}

theorem turn_append (default last entry : α) (before rest : List α) :
    turn op default (before ++ last :: entry :: rest) (before.length + 1) =
      before ++ last :: op entry last :: rest := by
  have hentry : (before ++ last :: entry :: rest).getD (before.length + 1) default = entry := by
    simp [List.getD]
  have hlast : (before ++ last :: entry :: rest).getD (before.length + 1 - 1) default = last := by
    simp [List.getD]
  unfold turn
  rw [hentry, hlast, List.set_append_right _ _ (by omega)]
  simp

/-- The loop over the indices from 1 on, in place: what is before the index is done. -/
theorem foldl_turn (default last : α) (before rest : List α) :
    (List.range' (before.length + 1) rest.length).foldl (turn op default) (before ++ last :: rest) =
      before ++ rest.scanl (fun last entry => op entry last) last := by
  induction rest generalizing before last with
  | nil => simp
  | cons entry rest ih =>
    have hnext := ih (op entry last) (before ++ [last])
    rw [List.length_append, List.length_singleton, List.append_assoc, List.append_assoc,
      List.singleton_append, List.singleton_append] at hnext
    rw [List.length_cons, List.range'_succ, List.foldl_cons, turn_append, hnext, List.scanl_cons]

theorem loop_eq_absorb (default : α) (entries : List α) :
    (List.range' 1 (entries.length - 1)).foldl (turn op default) entries = absorb op entries := by
  cases entries with
  | nil => rfl
  | cons first rest => exact foldl_turn default first [] rest

theorem length_absorb (entries : List α) : (absorb op entries).length = entries.length := by
  cases entries with
  | nil => rfl
  | cons first rest => simp [absorb]

theorem getElem?_absorb (first : α) (rest : List α) {index : Nat} (h : index ≤ rest.length) :
    (absorb op (first :: rest))[index]? =
      some ((rest.take index).foldl (fun last entry => op entry last) first) := by
  rw [absorb, List.getElem?_scanl, if_pos h]

theorem scanl_eq_cons_tail {f : α → α → α} (last : α) (rest : List α) :
    rest.scanl f last = last :: (rest.scanl f last).tail := by
  cases rest <;> simp

variable (hundo : ∀ entry last, undo (op entry last) last = entry)
  (hop : ∀ entry last, op (undo entry last) last = entry)

include hop in
theorem scanl_differencesFrom (last : α) (rest : List α) :
    (differencesFrom undo last rest).scanl (fun last entry => op entry last) last =
      last :: rest := by
  induction rest generalizing last with
  | nil => simp [differencesFrom]
  | cons entry rest ih => simp [differencesFrom, hop, ih entry]

include hundo in
theorem differencesFrom_scanl (last : α) (rest : List α) :
    differencesFrom undo last (rest.scanl (fun last entry => op entry last) last).tail = rest := by
  induction rest generalizing last with
  | nil => simp [differencesFrom]
  | cons entry rest ih =>
    rw [List.scanl_cons, List.tail_cons, scanl_eq_cons_tail, differencesFrom, hundo, ih]

include hop in
theorem absorb_differences (entries : List α) :
    absorb op (differences undo entries) = entries := by
  cases entries with
  | nil => rfl
  | cons first rest => exact scanl_differencesFrom hop first rest

include hundo in
theorem differences_absorb (entries : List α) :
    differences undo (absorb op entries) = entries := by
  cases entries with
  | nil => rfl
  | cons first rest =>
    rw [absorb, scanl_eq_cons_tail, differences, differencesFrom_scanl hundo]

include hop hundo in
/-- Sequences of one length are absorbed one to one onto the sequences of that length. -/
theorem bijOn_absorb (n : Nat) :
    Set.BijOn (absorb op) {entries | entries.length = n} {entries | entries.length = n} := by
  have hlength : ∀ entries, (differences undo entries).length = entries.length := by
    intro entries
    have hback := congrArg List.length (absorb_differences hop entries)
    rwa [length_absorb] at hback
  refine ⟨?_, ?_, ?_⟩
  · intro entries hentries
    exact (length_absorb entries).trans hentries
  · intro first _ second _ hsame
    rw [← differences_absorb hundo first, ← differences_absorb hundo second]
    exact congrArg (differences undo) hsame
  · intro entries hentries
    exact ⟨differences undo entries, (hlength entries).trans hentries, absorb_differences hop entries⟩

end RunningFold
