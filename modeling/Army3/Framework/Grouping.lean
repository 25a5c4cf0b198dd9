import Mathlib.Data.List.Sort

/-! Items put into the lists of their keys, one after the other. -/

namespace Grouping

variable {κ α β : Type} [Ord κ]

/-- An item goes to the list of its key, if it has one. -/
def add (key : α → Option κ) (value : α → β) (groups : Std.TreeMap κ (List β)) (item : α) :
    Std.TreeMap κ (List β) :=
  match key item with
  | none => groups
  | some k => groups.alter k fun old => some (old.getD [] ++ [value item])

variable [DecidableEq κ]

/-- The values of the items of a key, in their order. -/
def group (key : α → Option κ) (value : α → β) (items : List α) (k : κ) : List β :=
  (items.filter fun item => key item = some k).map value

variable {key : α → Option κ} {value : α → β} {items : List α} {k : κ}

omit [Ord κ] in
theorem group_cons (item : α) (items : List α) :
    group key value (item :: items) k = group key value [item] k ++ group key value items k := by
  rw [← List.singleton_append, group, List.filter_append, List.map_append]
  rfl

variable (value) in
omit [Ord κ] in
theorem group_ne_nil : group key value items k ≠ [] ↔ ∃ item ∈ items, key item = some k := by
  rw [group, ne_eq, List.map_eq_nil_iff, List.filter_eq_nil_iff]
  simp only [decide_eq_true_eq, not_forall, not_not, exists_prop]

omit [Ord κ] in
theorem mem_group {b : β} :
    b ∈ group key value items k ↔ ∃ item ∈ items, key item = some k ∧ value item = b := by
  simp only [group, List.mem_map, List.mem_filter, decide_eq_true_eq, and_assoc]

variable [Std.TransOrd κ] [Std.LawfulEqOrd κ]

theorem getElem?_add (groups : Std.TreeMap κ (List β)) (item : α) :
    (add key value groups item)[k]? = if group key value [item] k = [] then groups[k]?
      else some (groups[k]?.getD [] ++ group key value [item] k) := by
  rw [add]
  cases hkey : key item with
  | none => simp [group, hkey]
  | some other =>
    dsimp only
    rw [Std.TreeMap.getElem?_alter]
    by_cases hsame : other = k
    · rw [if_pos (Std.LawfulEqCmp.compare_eq_iff_eq.mpr hsame), hsame]
      simp [group, hkey, hsame]
    · rw [if_neg (mt Std.LawfulEqCmp.compare_eq_iff_eq.mp hsame)]
      simp [group, hkey, hsame]

theorem getElem?_foldl_add (groups : Std.TreeMap κ (List β)) :
    (items.foldl (add key value) groups)[k]? = if group key value items k = [] then groups[k]?
      else some (groups[k]?.getD [] ++ group key value items k) := by
  induction items generalizing groups with
  | nil => rfl
  | cons item items ih =>
    rw [List.foldl_cons, ih, getElem?_add, group_cons item items]
    by_cases hfirst : group key value [item] k = []
    · simp only [hfirst, if_true, List.nil_append]
    · by_cases hrest : group key value items k = []
      · simp only [hrest, if_true, List.append_nil]
      · simp [hfirst, hrest]

/-- The list of a key has the values of its items; there is none if no item has the key. -/
theorem getElem?_groups {values : List β} :
    (items.foldl (add key value) (∅ : Std.TreeMap κ (List β)))[k]? = some values ↔
      values = group key value items k ∧ values ≠ [] := by
  rw [getElem?_foldl_add, Std.TreeMap.getElem?_emptyc, Option.getD_none, List.nil_append]
  by_cases hnone : group key value items k = []
  · rw [if_pos hnone, hnone]
    exact iff_of_false nofun fun ⟨hsame, hne⟩ => hne hsame
  · rw [if_neg hnone, Option.some.injEq]
    constructor
    · rintro rfl
      exact ⟨rfl, hnone⟩
    · exact fun ⟨hsame, _⟩ => hsame.symm

theorem mem_groups : k ∈ items.foldl (add key value) (∅ : Std.TreeMap κ (List β)) ↔
    ∃ item ∈ items, key item = some k := by
  rw [Std.TreeMap.mem_iff_isSome_getElem?, Option.isSome_iff_exists, ← group_ne_nil value]
  exact ⟨fun ⟨_, h⟩ => (getElem?_groups.mp h).1 ▸ (getElem?_groups.mp h).2,
    fun h => ⟨_, getElem?_groups.mpr ⟨rfl, h⟩⟩⟩

end Grouping
