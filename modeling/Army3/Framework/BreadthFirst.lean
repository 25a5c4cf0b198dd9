import Mathlib.Data.List.Sort

/-! Searches that take an element from the front of a queue, skip it if they have visited it, and
else put its successors at the end: they visit in breadth-first order. -/

namespace BreadthFirst

variable {α : Type} [DecidableEq α]

/-- What is not known, each element where it comes first. -/
def fresh (known : List α) : List α → List α
  | [] => []
  | a :: l => if a ∈ known then fresh known l else a :: fresh (known ++ [a]) l

theorem fresh_nil {known : List α} : fresh known [] = [] := rfl

theorem fresh_cons_of_mem {known l : List α} {a : α} (h : a ∈ known) :
    fresh known (a :: l) = fresh known l := if_pos h

theorem fresh_cons_of_notMem {known l : List α} {a : α} (h : a ∉ known) :
    fresh known (a :: l) = a :: fresh (known ++ [a]) l := if_neg h

theorem mem_fresh {known l : List α} {a : α} : a ∈ fresh known l ↔ a ∈ l ∧ a ∉ known := by
  induction l generalizing known with
  | nil => simp [fresh_nil]
  | cons b l ih =>
    by_cases hb : b ∈ known
    · rw [fresh_cons_of_mem hb, ih, List.mem_cons]
      constructor
      · intro ⟨hmem, hnew⟩
        exact ⟨.inr hmem, hnew⟩
      · intro ⟨hmem, hnew⟩
        have hne : a ≠ b := fun h => hnew (h ▸ hb)
        exact ⟨hmem.resolve_left hne, hnew⟩
    · rw [fresh_cons_of_notMem hb, List.mem_cons, ih, List.mem_cons, List.mem_append,
        List.mem_singleton]
      by_cases hab : a = b
      · simp [hab, hb]
      · simp [hab]

theorem nodup_append_fresh {known l : List α} (h : known.Nodup) :
    (known ++ fresh known l).Nodup := by
  induction l generalizing known with
  | nil =>
    rw [fresh_nil, List.append_nil]
    exact h
  | cons b l ih =>
    by_cases hb : b ∈ known
    · rw [fresh_cons_of_mem hb]
      exact ih h
    · rw [fresh_cons_of_notMem hb, List.append_cons]
      exact ih (List.nodup_append.mpr ⟨h, List.nodup_singleton b, fun a ha c hc hac =>
        hb (List.mem_singleton.mp hc ▸ hac ▸ ha)⟩)

variable (succ : α → List α) (start : α)

def Reaches : α → α → Prop := Relation.ReflTransGen fun a b => b ∈ succ a

/-- The elements at a distance of at most so many steps, in the order in which a search comes to
them, and those at just that distance. -/
def layers : Nat → List α × List α
  | 0 => ([start], [start])
  | n + 1 =>
    let new := fresh (layers n).1 ((layers n).2.flatMap succ)
    ((layers n).1 ++ new, new)

def order (n : Nat) : List α := (layers succ start n).1

def frontier (n : Nat) : List α := (layers succ start n).2

/-- An element is among the first `count` of the breadth-first order. -/
def AmongFirst (count : Nat) (a : α) : Prop := ∃ n, a ∈ (order succ start n).take count

/-- No more than `count` elements can be reached. -/
def AtMost (count : Nat) : Prop :=
  ∀ l : List α, l.Nodup → (∀ a ∈ l, Reaches succ start a) → l.length ≤ count

variable {succ start} {a b : α} {n : Nat}

theorem order_succ :
    order succ start (n + 1) = order succ start n ++ frontier succ start (n + 1) := rfl

theorem frontier_subset_order (h : a ∈ frontier succ start n) : a ∈ order succ start n := by
  cases n with
  | zero => exact h
  | succ n => exact List.mem_append_right _ h

theorem nodup_order : (order succ start n).Nodup := by
  induction n with
  | zero => exact List.nodup_singleton start
  | succ n ih => exact nodup_append_fresh ih

theorem order_prefix_of_le {m : Nat} (h : n ≤ m) : order succ start n <+: order succ start m := by
  induction m, h using Nat.le_induction with
  | base => exact List.prefix_refl _
  | succ m _ ih => exact ih.trans (List.prefix_append _ _)

theorem reaches_of_mem_order (h : a ∈ order succ start n) : Reaches succ start a := by
  induction n generalizing a with
  | zero =>
    rw [List.mem_singleton.mp h]
    exact .refl
  | succ n ih =>
    rcases List.mem_append.mp h with hearlier | hnew
    · exact ih hearlier
    · obtain ⟨hmem, -⟩ := mem_fresh.mp hnew
      obtain ⟨b, hb, hstep⟩ := List.mem_flatMap.mp hmem
      exact (ih (frontier_subset_order hb)).tail hstep

/-- What follows on an element before the last layer is there already. -/
theorem succ_mem_order (ha : a ∈ order succ start n) (hlast : a ∉ frontier succ start n)
    (hb : b ∈ succ a) : b ∈ order succ start n := by
  induction n with
  | zero => exact absurd ha hlast
  | succ n ih =>
    have hearlier : a ∈ order succ start n := (List.mem_append.mp ha).resolve_right hlast
    rw [order_succ, List.mem_append]
    by_cases hfront : a ∈ frontier succ start n
    · by_cases hknown : b ∈ order succ start n
      · exact .inl hknown
      · exact .inr (mem_fresh.mpr ⟨List.mem_flatMap.mpr ⟨a, hfront, hb⟩, hknown⟩)
    · exact .inl (ih hearlier hfront)

variable (succ start)

/-- A search has visited `seen`, in this order, and still has `queue` before it: it is somewhere in
a layer, and the end of the queue comes from what it has done of that layer. -/
def Walked (seen queue : List α) : Prop :=
  ∃ n done now, queue = now ++ done.flatMap succ ∧
    seen ++ fresh seen now = order succ start n ∧
    done ++ fresh seen now = frontier succ start n

variable {succ start} {seen queue : List α}

theorem walked_start : Walked succ start [] [start] := ⟨0, [], [start], rfl, rfl, rfl⟩

/-- A search that takes an element is in the layer of that element. -/
theorem Walked.cons_cases (h : Walked succ start seen (a :: queue)) :
    ∃ n done now, queue = now ++ done.flatMap succ ∧
      seen ++ fresh seen (a :: now) = order succ start n ∧
      done ++ fresh seen (a :: now) = frontier succ start n := by
  obtain ⟨n, done, now, hqueue, hseen, hdone⟩ := h
  cases now with
  | nil =>
    rw [List.nil_append] at hqueue
    rw [fresh_nil, List.append_nil] at hseen hdone
    refine ⟨n + 1, [], queue, by rw [List.flatMap_nil, List.append_nil], ?_, ?_⟩
    · rw [hqueue, hdone, hseen]
      rfl
    · rw [hqueue, hdone, hseen]
      rfl
  | cons b now =>
    rw [List.cons_append] at hqueue
    cases hqueue
    exact ⟨n, done, now, rfl, hseen, hdone⟩

theorem Walked.skip (h : Walked succ start seen (a :: queue)) (ha : a ∈ seen) :
    Walked succ start seen queue := by
  obtain ⟨n, done, now, hqueue, hseen, hdone⟩ := h.cons_cases
  rw [fresh_cons_of_mem ha] at hseen hdone
  exact ⟨n, done, now, hqueue, hseen, hdone⟩

theorem Walked.visit (h : Walked succ start seen (a :: queue)) (ha : a ∉ seen) :
    Walked succ start (seen ++ [a]) (queue ++ succ a) := by
  obtain ⟨n, done, now, hqueue, hseen, hdone⟩ := h.cons_cases
  rw [fresh_cons_of_notMem ha, List.append_cons] at hseen hdone
  refine ⟨n, done ++ [a], now, ?_, hseen, hdone⟩
  rw [hqueue, List.flatMap_append, List.flatMap_singleton, List.append_assoc]

theorem Walked.prefix_order (h : Walked succ start seen queue) :
    ∃ n, seen <+: order succ start n := by
  obtain ⟨n, -, now, -, hseen, -⟩ := h
  exact ⟨n, hseen ▸ List.prefix_append _ _⟩

theorem Walked.nodup (h : Walked succ start seen queue) : seen.Nodup := by
  obtain ⟨n, hbegins⟩ := h.prefix_order
  exact nodup_order.sublist hbegins.sublist

theorem Walked.reaches_of_mem_seen (h : Walked succ start seen queue) (ha : a ∈ seen) :
    Reaches succ start a := by
  obtain ⟨n, hbegins⟩ := h.prefix_order
  exact reaches_of_mem_order (hbegins.subset ha)

theorem Walked.start_mem (h : Walked succ start seen queue) : start ∈ seen ∨ start ∈ queue := by
  obtain ⟨n, done, now, hqueue, hseen, -⟩ := h
  have horder : start ∈ order succ start n :=
    (order_prefix_of_le (Nat.zero_le n)).subset (List.mem_singleton_self start)
  rw [← hseen] at horder
  rcases List.mem_append.mp horder with hmem | hmem
  · exact .inl hmem
  · rw [hqueue]
    exact .inr (List.mem_append_left _ (mem_fresh.mp hmem).1)

/-- What follows on a visited element is visited or waits in the queue. -/
theorem Walked.succ_mem (h : Walked succ start seen queue) (ha : a ∈ seen) (hb : b ∈ succ a) :
    b ∈ seen ∨ b ∈ queue := by
  obtain ⟨n, done, now, hqueue, hseen, hdone⟩ := h
  have horder : a ∈ order succ start n := hseen ▸ List.mem_append_left _ ha
  rw [hqueue, List.mem_append]
  by_cases hlast : a ∈ frontier succ start n
  · have hmem : a ∈ done := by
      rw [← hdone] at hlast
      exact (List.mem_append.mp hlast).resolve_right fun hnew => (mem_fresh.mp hnew).2 ha
    exact .inr (.inr (List.mem_flatMap.mpr ⟨a, hmem, hb⟩))
  · have hknown := succ_mem_order horder hlast hb
    rw [← hseen] at hknown
    rcases List.mem_append.mp hknown with hmem | hmem
    · exact .inl hmem
    · exact .inr (.inl (mem_fresh.mp hmem).1)

theorem Walked.reaches_of_mem_queue (h : Walked succ start seen queue) (ha : a ∈ queue) :
    Reaches succ start a := by
  obtain ⟨n, done, now, hqueue, hseen, hdone⟩ := h
  rw [hqueue] at ha
  rcases List.mem_append.mp ha with hnow | hnext
  · have horder : a ∈ order succ start n := by
      rw [← hseen, List.mem_append, mem_fresh]
      by_cases hmem : a ∈ seen
      · exact .inl hmem
      · exact .inr ⟨hnow, hmem⟩
    exact reaches_of_mem_order horder
  · obtain ⟨b, hb, hstep⟩ := List.mem_flatMap.mp hnext
    have hfront : b ∈ frontier succ start n := hdone ▸ List.mem_append_left _ hb
    exact (reaches_of_mem_order (frontier_subset_order hfront)).tail hstep

/-- A search that has visited all that waits has visited all that can be reached. -/
theorem Walked.mem_seen_iff (h : Walked succ start seen queue) (hqueue : ∀ a ∈ queue, a ∈ seen) :
    a ∈ seen ↔ Reaches succ start a := by
  constructor
  · exact h.reaches_of_mem_seen
  · intro hreach
    induction hreach with
    | refl => exact h.start_mem.elim id (hqueue start)
    | tail _ hstep ih => exact (h.succ_mem ih hstep).elim id (hqueue _)

variable {count : Nat}

theorem Walked.amongFirst (h : Walked succ start seen queue) (hcount : seen.length ≤ count)
    (ha : a ∈ seen) : AmongFirst succ start count a := by
  obtain ⟨n, hbegins⟩ := h.prefix_order
  refine ⟨n, ?_⟩
  rw [List.prefix_iff_eq_take.mp hbegins] at ha
  exact List.take_subset_take_left _ hcount ha

/-- A search that has not left anything, or has visited `count` elements, has visited the first
`count`. -/
theorem Walked.mem_of_amongFirst (h : Walked succ start seen queue)
    (hend : count ≤ seen.length ∨ ∀ a ∈ queue, a ∈ seen) (ha : AmongFirst succ start count a) :
    a ∈ seen := by
  obtain ⟨m, hm⟩ := ha
  rcases hend with hcount | hqueue
  · obtain ⟨n, hbegins⟩ := h.prefix_order
    have hlong := hbegins.trans (order_prefix_of_le (Nat.le_max_left n m))
    have hshort := (List.take_prefix count (order succ start m)).trans
      (order_prefix_of_le (Nat.le_max_right n m))
    have hle : ((order succ start m).take count).length ≤ seen.length := by
      rw [List.length_take]
      omega
    exact (List.prefix_of_prefix_length_le hshort hlong hle).subset hm
  · exact (h.mem_seen_iff hqueue).mpr (reaches_of_mem_order (List.mem_of_mem_take hm))

/-- A search within `count` has left something exactly when more can be reached than it may
visit, once it has visited `count` or its queue is empty. -/
theorem Walked.atMost_iff (h : Walked succ start seen queue) (hcount : seen.length ≤ count)
    (hend : count ≤ seen.length ∨ queue = []) :
    AtMost succ start count ↔ ∀ a ∈ queue, a ∈ seen := by
  constructor
  · intro hmost a ha
    rcases hend with hfull | hempty
    · by_contra hnew
      have hnodup : (a :: seen).Nodup := List.nodup_cons.mpr ⟨hnew, h.nodup⟩
      have hreach : ∀ b ∈ a :: seen, Reaches succ start b := by
        intro b hb
        rcases List.mem_cons.mp hb with rfl | hseen
        · exact h.reaches_of_mem_queue ha
        · exact h.reaches_of_mem_seen hseen
      have hle := hmost (a :: seen) hnodup hreach
      rw [List.length_cons] at hle
      omega
    · rw [hempty] at ha
      cases ha
  · intro hqueue l hnodup hreach
    have hsubset : l ⊆ seen := fun a ha => (h.mem_seen_iff hqueue).mpr (hreach a ha)
    exact (List.subperm_of_subset hnodup hsubset).length_le.trans hcount

end BreadthFirst
