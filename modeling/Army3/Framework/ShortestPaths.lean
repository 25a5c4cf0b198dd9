import Mathlib.Data.List.Sort

/-! Searches that label an element when they first come to it, put it at the end of a queue, and
later go on from there: the labels they give lie on shortest paths. -/

namespace ShortestPaths

/-- What is read off the entries of a table, after one more entry. -/
theorem read_insert {κ β γ : Type} [Ord κ] [Std.TransOrd κ] [Std.LawfulEqOrd κ] [DecidableEq κ]
    (read : Option β → γ) (table : Std.TreeMap κ β) (key : κ) (value : β) :
    (fun a => read (table.insert key value)[a]?) =
      Function.update (fun a => read table[a]?) key (read (some value)) := by
  funext a
  rw [Std.TreeMap.getElem?_insert]
  by_cases ha : a = key
  · rw [ha, Function.update_self, if_pos (Std.LawfulEqOrd.compare_eq_iff_eq.mpr rfl)]
  · have hother : ¬ compare key a = .eq :=
      fun hsame => ha (Std.LawfulEqOrd.compare_eq_iff_eq.mp hsame).symm
    rw [Function.update_of_ne ha, if_neg hother]

variable {α : Type}

/-- The elements that a path leads through, both ends included. -/
inductive IsPath (succ : α → List α) : α → α → List α → Prop where
  | single (a : α) : IsPath succ a a [a]
  | cons {a b c : α} {path : List α} (hstep : b ∈ succ a) (hpath : IsPath succ b c path) :
      IsPath succ a c (a :: path)

variable {succ : α → List α} {start stop a b c : α} {path : List α} {n : Nat}

theorem IsPath.reflTransGen (h : IsPath succ a b path) :
    Relation.ReflTransGen (fun a b => b ∈ succ a) a b := by
  induction h with
  | single a => exact .refl
  | cons hstep _ ih => exact .head hstep ih

theorem IsPath.concat (h : IsPath succ a b path) (hstep : c ∈ succ b) :
    IsPath succ a c (path ++ [c]) := by
  induction h with
  | single a => exact .cons hstep (.single c)
  | cons hfirst _ ih => exact .cons hfirst (ih hstep)

theorem IsPath.length_pos (h : IsPath succ a b path) : 0 < path.length := by
  cases h with
  | single => exact Nat.one_pos
  | cons => exact Nat.succ_pos _

/-- A path is a shortest one between its ends. -/
def IsShortest (succ : α → List α) (a b : α) (path : List α) : Prop :=
  IsPath succ a b path ∧ ∀ other, IsPath succ a b other → path.length ≤ other.length

/-- What a search knows of an element: how far it is from the start and where the search came
from. -/
structure Labels (α : Type) where
  distance : α → Option Nat
  parent : α → Option α

/-- The labels lie on paths from the start. -/
structure Labels.Tree (succ : α → List α) (start : α) (l : Labels α) : Prop where
  parent_start : l.parent start = none
  distance_start : l.distance start = some 0
  eq_start : ∀ a, l.distance a = some 0 → a = start
  link : ∀ b n, l.distance b = some (n + 1) →
    ∃ a, l.parent b = some a ∧ l.distance a = some n ∧ b ∈ succ a

/-- The way back along the parents, so many steps long. -/
def climb (parent : α → Option α) : Nat → α → List α
  | 0, a => [a]
  | n + 1, a => a :: match parent a with
    | none => []
    | some b => climb parent n b

theorem climb_succ {parent : α → Option α} (h : parent a = some b) :
    climb parent (n + 1) a = a :: climb parent n b := by
  rw [climb, h]

variable {l : Labels α}

theorem Labels.Tree.climb_isPath (h : l.Tree succ start) (hb : l.distance b = some n) :
    IsPath succ start b (climb l.parent n b).reverse := by
  induction n generalizing b with
  | zero =>
    rw [h.eq_start b hb]
    exact .single start
  | succ n ih =>
    obtain ⟨a, hparent, ha, hstep⟩ := h.link b n hb
    rw [climb_succ hparent, List.reverse_cons]
    exact (ih ha).concat hstep

theorem Labels.Tree.length_climb (h : l.Tree succ start) (hb : l.distance b = some n) :
    (climb l.parent n b).length = n + 1 := by
  induction n generalizing b with
  | zero => rfl
  | succ n ih =>
    obtain ⟨a, hparent, ha, -⟩ := h.link b n hb
    rw [climb_succ hparent, List.length_cons, ih ha]

/-- On the way back, the parent of an element comes right after it. -/
theorem Labels.Tree.parent_infix_climb (h : l.Tree succ start) (hb : l.distance b = some n)
    (ha : a ∈ climb l.parent n b) (hparent : l.parent a = some c) :
    [a, c] <:+: climb l.parent n b := by
  induction n generalizing b with
  | zero =>
    rw [List.mem_singleton.mp ha, h.eq_start b hb, h.parent_start] at hparent
    cases hparent
  | succ n ih =>
    obtain ⟨d, hd, hdistance, -⟩ := h.link b n hb
    rw [climb_succ hd, List.mem_cons] at ha
    rw [climb_succ hd]
    rcases ha with rfl | ha
    · rw [hparent] at hd
      cases hd
      cases n with
      | zero => exact List.infix_refl _
      | succ n => exact (List.prefix_append [a, c] _).isInfix
    · exact List.infix_cons (ih hdistance ha)

/-- The element's successors are labelled, at most one step further away. -/
def Labels.Expanded (succ : α → List α) (l : Labels α) (a : α) : Prop :=
  ∀ n, l.distance a = some n → ∀ b ∈ succ a, ∃ m, l.distance b = some m ∧ m ≤ n + 1

/-- Where all elements closer than `bound` are expanded, one element perhaps apart, no path is
shorter than the labels say, unless it leads through that element. -/
theorem Labels.distance_of_isPath {bound : Nat} (hexpanded : ∀ a n, l.distance a = some n →
      n < bound → a ≠ stop → l.Expanded succ a) (ha : l.distance a = some n)
    (hpath : IsPath succ a b path) (hlength : n + path.length ≤ bound + 1) :
    (∃ m, l.distance b = some m ∧ m + 1 ≤ n + path.length) ∨
      ∃ m, l.distance stop = some m ∧ m + 1 ≤ n + path.length := by
  induction hpath generalizing n with
  | single a => exact .inl ⟨n, ha, le_refl _⟩
  | @cons a c b path hstep hpath ih =>
    have hpos := hpath.length_pos
    rw [List.length_cons] at hlength ⊢
    by_cases hstop : a = stop
    · subst hstop
      exact .inr ⟨n, ha, by omega⟩
    · obtain ⟨m, hm, hle⟩ := hexpanded a n ha (by omega) hstop n ha c hstep
      rcases ih hm (by omega) with ⟨k, hk, hnear⟩ | ⟨k, hk, hnear⟩
      · exact .inl ⟨k, hk, by omega⟩
      · exact .inr ⟨k, hk, by omega⟩

/-- A labelled element is at its distance if all that is closer is expanded. -/
theorem Labels.Tree.isShortest_climb (h : l.Tree succ start) (hb : l.distance b = some n)
    (hexpanded : ∀ a m, l.distance a = some m → m < n → a ≠ b → l.Expanded succ a) :
    IsShortest succ start b (climb l.parent n b).reverse := by
  refine ⟨h.climb_isPath hb, ?_⟩
  intro other hother
  rw [List.length_reverse, h.length_climb hb]
  by_contra hless
  have hnear := Labels.distance_of_isPath hexpanded h.distance_start hother (by omega)
  obtain ⟨m, hm, hle⟩ := hnear.elim id id
  rw [hb] at hm
  cases hm
  omega

/-- If every labelled element is expanded and the searched one is not labelled, no path leads to
it. -/
theorem Labels.not_isPath (hstart : l.distance start = some 0) (hb : l.distance b = none)
    (hexpanded : ∀ a n, l.distance a = some n → l.Expanded succ a) :
    ¬ IsPath succ start b path := by
  intro hpath
  have hclose : ∀ a n, l.distance a = some n → n < path.length → a ≠ b → l.Expanded succ a :=
    fun a n ha _ _ => hexpanded a n ha
  have hnear := Labels.distance_of_isPath hclose hstart hpath (by omega)
  obtain ⟨m, hm, -⟩ := hnear.elim id id
  rw [hb] at hm
  cases hm

/-- The search between two turns. -/
structure Search (α : Type) where
  labels : Labels α
  queue : List α

/-- The elements that wait are those of one layer and then those of the next. All that has been
taken from the queue is expanded, or was to be left as it is. -/
structure Search.Layered (succ : α → List α) (start : α) (skips : α → Nat → Prop)
    (s : Search α) : Prop where
  tree : s.labels.Tree succ start
  nodup : s.queue.Nodup
  layers : ∃ n now next, s.queue = now ++ next ∧
    (∀ a ∈ now, s.labels.distance a = some n) ∧ (∀ a ∈ next, s.labels.distance a = some (n + 1)) ∧
    ∀ a m, s.labels.distance a = some m → a ∉ s.queue → m ≤ n
  expanded : ∀ a n, s.labels.distance a = some n → a ∉ s.queue →
    skips a n ∨ s.labels.Expanded succ a

variable {skips : α → Nat → Prop} {s : Search α} {queue : List α}

theorem Search.Layered.labelled (h : s.Layered succ start skips) (ha : a ∈ s.queue) :
    ∃ n, s.labels.distance a = some n := by
  obtain ⟨n, now, next, hqueue, hnow, hnext, -⟩ := h.layers
  rw [hqueue] at ha
  rcases List.mem_append.mp ha with hmem | hmem
  · exact ⟨n, hnow a hmem⟩
  · exact ⟨n + 1, hnext a hmem⟩

/-- The layers seen from the front of the queue. -/
theorem Search.Layered.cons_cases (h : s.Layered succ start skips) (hqueue : s.queue = a :: queue) :
    ∃ n now next, queue = now ++ next ∧ s.labels.distance a = some n ∧
      (∀ b ∈ now, s.labels.distance b = some n) ∧
      (∀ b ∈ next, s.labels.distance b = some (n + 1)) ∧
      ∀ b m, s.labels.distance b = some m → b ∉ queue → m ≤ n := by
  obtain ⟨n, now, next, hsplit, hnow, hnext, hleft⟩ := h.layers
  have hout : ∀ b m k, s.labels.distance a = some k → n ≤ k → s.labels.distance b = some m →
      b ∉ queue → m ≤ k := by
    intro b m k ha hk hb hnew
    by_cases hba : b = a
    · rw [hba, ha] at hb
      cases hb
      exact le_refl _
    · have hoff : b ∉ s.queue := by
        rw [hqueue, List.mem_cons]
        exact fun hmem => hmem.elim hba hnew
      exact (hleft b m hb hoff).trans hk
  rw [hqueue] at hsplit
  cases now with
  | nil =>
    rw [List.nil_append] at hsplit
    subst hsplit
    have ha := hnext a List.mem_cons_self
    exact ⟨n + 1, queue, [], (List.append_nil _).symm, ha,
      fun b hb => hnext b (List.mem_cons_of_mem a hb), fun b hb => absurd hb List.not_mem_nil,
      fun b m => hout b m (n + 1) ha (Nat.le_succ n)⟩
  | cons c now =>
    rw [List.cons_append] at hsplit
    cases hsplit
    have ha := hnow a List.mem_cons_self
    exact ⟨n, now, next, rfl, ha, fun b hb => hnow b (List.mem_cons_of_mem a hb), hnext,
      fun b m => hout b m n ha (le_refl n)⟩

/-- Nothing that is known is more than a step further away than the element at the front. -/
theorem Search.Layered.near (h : s.Layered succ start skips) (hqueue : s.queue = a :: queue)
    (ha : s.labels.distance a = some n) {m : Nat} (hb : s.labels.distance b = some m) :
    m ≤ n + 1 := by
  obtain ⟨k, now, next, rfl, hfront, hnow, hnext, hleft⟩ := h.cons_cases hqueue
  rw [ha] at hfront
  cases hfront
  by_cases hmem : b ∈ now ++ next
  · rcases List.mem_append.mp hmem with hmem | hmem
    · have hsame := (hnow b hmem).symm.trans hb
      cases hsame
      exact Nat.le_succ n
    · have hsame := (hnext b hmem).symm.trans hb
      cases hsame
      exact le_refl _
  · exact (hleft b m hb hmem).trans (Nat.le_succ n)

/-- Nothing that waits is closer than the element at the front. -/
theorem Search.Layered.front_le (h : s.Layered succ start skips) (hqueue : s.queue = a :: queue)
    {m : Nat} (ha : s.labels.distance a = some n) (hb : s.labels.distance b = some m)
    (hless : m < n) : b ∉ s.queue := by
  obtain ⟨k, now, next, hsplit, hfront, hnow, hnext, -⟩ := h.cons_cases hqueue
  rw [ha] at hfront
  cases hfront
  intro hmem
  rw [hqueue, hsplit, List.mem_cons, List.mem_append] at hmem
  rcases hmem with rfl | hmem | hmem
  · rw [ha] at hb
    cases hb
    omega
  · have hsame := (hnow b hmem).symm.trans hb
    cases hsame
    omega
  · have hsame := (hnext b hmem).symm.trans hb
    cases hsame
    omega

/-- An element is left as it is. -/
theorem Search.Layered.drop (h : s.Layered succ start skips) (hqueue : s.queue = a :: queue)
    (hskips : ∀ n, s.labels.distance a = some n → skips a n ∨ s.labels.Expanded succ a) :
    Search.Layered succ start skips ⟨s.labels, queue⟩ := by
  obtain ⟨n, now, next, hsplit, -, hnow, hnext, hleft⟩ := h.cons_cases hqueue
  have hnodup : (a :: queue).Nodup := hqueue ▸ h.nodup
  refine ⟨h.tree, hnodup.of_cons, ⟨n, now, next, hsplit, hnow, hnext, hleft⟩, ?_⟩
  intro b m hb hout
  by_cases hba : b = a
  · rw [hba] at hb ⊢
    exact hskips m hb
  · refine h.expanded b m hb ?_
    rw [hqueue, List.mem_cons]
    exact fun hmem => hmem.elim hba hout

/-- A search that goes on from all that is closer than a bound knows the distances up to it. -/
theorem Search.Layered.distance_iff {bound : Nat}
    (h : s.Layered succ start fun _ d => bound ≤ d) (hqueue : s.queue = []) (hn : n ≤ bound) :
    s.labels.distance a = some n ↔
      ∃ path, IsShortest succ start a path ∧ path.length = n + 1 := by
  have hexpanded : ∀ b m, s.labels.distance b = some m → m < bound → s.labels.Expanded succ b := by
    intro b m hb hm
    have hout : b ∉ s.queue := by
      rw [hqueue]
      exact List.not_mem_nil
    exact (h.expanded b m hb hout).resolve_left (not_le.mpr hm)
  have hclimb : ∀ m, m ≤ bound → s.labels.distance a = some m →
      IsShortest succ start a (climb s.labels.parent m a).reverse := fun m hm ha =>
    h.tree.isShortest_climb ha fun b k hb hk _ => hexpanded b k hb (hk.trans_le hm)
  constructor
  · intro ha
    refine ⟨_, hclimb n hn ha, ?_⟩
    rw [List.length_reverse, h.tree.length_climb ha]
  · rintro ⟨path, ⟨hpath, hshort⟩, hlength⟩
    have hclose : ∀ b m, s.labels.distance b = some m → m < n → b ≠ a → s.labels.Expanded succ b :=
      fun b m hb hm _ => hexpanded b m hb (hm.trans_le hn)
    have hnear := Labels.distance_of_isPath hclose h.tree.distance_start hpath (by omega)
    obtain ⟨m, hm, hle⟩ := hnear.elim id id
    have hmin := hshort _ (hclimb m (by omega) hm).1
    rw [List.length_reverse, h.tree.length_climb hm] at hmin
    obtain rfl : m = n := by omega
    exact hm

/-- What a search has gained in going on from an element `a` of distance `n` to `bs`. -/
structure Search.Grown (a : α) (n : Nat) (bs new : List α) (s s' : Search α) : Prop where
  queue : s'.queue = s.queue ++ new
  nodup : new.Nodup
  keeps : ∀ b m, s.labels.distance b = some m →
    s'.labels.distance b = some m ∧ s'.labels.parent b = s.labels.parent b
  gains : ∀ b ∈ new, b ∈ bs ∧ s.labels.distance b = none ∧ s'.labels.distance b = some (n + 1) ∧
    s'.labels.parent b = some a
  only : ∀ b m, s'.labels.distance b = some m → s.labels.distance b = some m ∨ b ∈ new
  labelled : ∀ b ∈ bs, (s'.labels.distance b).isSome

section
variable {bs new seen : List α} {s' : Search α}

theorem Search.grown_nil (hlabelled : ∀ b ∈ bs, (s.labels.distance b).isSome) :
    Search.Grown a n bs [] s s where
  queue := (List.append_nil _).symm
  nodup := List.nodup_nil
  keeps _ _ hb := ⟨hb, rfl⟩
  gains _ hb := absurd hb List.not_mem_nil
  only _ _ hb := .inl hb
  labelled := hlabelled

theorem Search.Grown.append {bs' later : List α} {s'' : Search α}
    (h : Search.Grown a n bs new s s') (h' : Search.Grown a n bs' later s' s'') :
    Search.Grown a n (bs ++ bs') (new ++ later) s s'' := by
  constructor
  · rw [h'.queue, h.queue, List.append_assoc]
  · refine List.nodup_append.mpr ⟨h.nodup, h'.nodup, ?_⟩
    intro c hc d hd hcd
    have hknown := (h.gains c hc).2.2.1
    rw [hcd, (h'.gains d hd).2.1] at hknown
    cases hknown
  · intro c m hc
    obtain ⟨hmiddle, hparent⟩ := h.keeps c m hc
    obtain ⟨hlast, hsame⟩ := h'.keeps c m hmiddle
    exact ⟨hlast, hsame.trans hparent⟩
  · intro c hc
    rcases List.mem_append.mp hc with hc | hc
    · obtain ⟨hmem, hnone, hdistance, hparent⟩ := h.gains c hc
      obtain ⟨hlast, hsame⟩ := h'.keeps c (n + 1) hdistance
      exact ⟨List.mem_append_left bs' hmem, hnone, hlast, hsame.trans hparent⟩
    · obtain ⟨hmem, hnone, hdistance, hparent⟩ := h'.gains c hc
      refine ⟨List.mem_append_right bs hmem, ?_, hdistance, hparent⟩
      by_contra hknown
      obtain ⟨m, hm⟩ := Option.ne_none_iff_exists'.mp hknown
      rw [(h.keeps c m hm).1] at hnone
      cases hnone
  · intro c m hc
    rcases h'.only c m hc with hmiddle | hmem
    · exact (h.only c m hmiddle).imp_right (List.mem_append_left _)
    · exact .inr (List.mem_append_right _ hmem)
  · intro c hc
    rcases List.mem_append.mp hc with hc | hc
    · obtain ⟨m, hm⟩ := Option.isSome_iff_exists.mp (h.labelled c hc)
      rw [(h'.keeps c m hm).1]
      rfl
    · exact h'.labelled c hc

theorem Search.Grown.keeps_expanded (hgrown : Search.Grown a n bs new s s') {m : Nat}
    (hb : s.labels.distance b = some m) (hexpanded : s.labels.Expanded succ b) :
    s'.labels.Expanded succ b := by
  intro k hk c hc
  have hsame := (hgrown.keeps b m hb).1.symm.trans hk
  cases hsame
  obtain ⟨d, hd, hle⟩ := hexpanded m hb c hc
  exact ⟨d, (hgrown.keeps c d hd).1, hle⟩

/-- An element is expanded by going on to all its successors. -/
theorem Search.Grown.expands (hgrown : Search.Grown a n (succ a) new s s')
    (ha : s.labels.distance a = some n)
    (hnear : ∀ b m, s.labels.distance b = some m → m ≤ n + 1) : s'.labels.Expanded succ a := by
  intro k hk b hb
  have hsame := (hgrown.keeps a n ha).1.symm.trans hk
  cases hsame
  obtain ⟨d, hd⟩ := Option.isSome_iff_exists.mp (hgrown.labelled b hb)
  refine ⟨d, hd, ?_⟩
  rcases hgrown.only b d hd with hknown | hmem
  · exact hnear b d hknown
  · have hnew := (hgrown.gains b hmem).2.2.1
    rw [hd] at hnew
    cases hnew
    exact le_refl _

theorem Search.Grown.tree (hgrown : Search.Grown a n (succ a) new s s')
    (htree : s.labels.Tree succ start) (ha : s.labels.distance a = some n) :
    s'.labels.Tree succ start := by
  constructor
  · exact (hgrown.keeps start 0 htree.distance_start).2.trans htree.parent_start
  · exact (hgrown.keeps start 0 htree.distance_start).1
  · intro b hb
    rcases hgrown.only b 0 hb with hold | hmem
    · exact htree.eq_start b hold
    · have hlater := (hgrown.gains b hmem).2.2.1
      rw [hb] at hlater
      cases hlater
  · intro b m hb
    rcases hgrown.only b (m + 1) hb with hold | hmem
    · obtain ⟨c, hparent, hc, hstep⟩ := htree.link b m hold
      exact ⟨c, (hgrown.keeps b _ hold).2.trans hparent, (hgrown.keeps c m hc).1, hstep⟩
    · obtain ⟨hstep, -, hdistance, hparent⟩ := hgrown.gains b hmem
      rw [hb] at hdistance
      cases hdistance
      exact ⟨a, hparent, (hgrown.keeps a n ha).1, hstep⟩

theorem Search.Grown.nodup_queue (hgrown : Search.Grown a n bs new s s') (hnodup : s.queue.Nodup)
    (hlabelled : ∀ b ∈ s.queue, ∃ m, s.labels.distance b = some m) : s'.queue.Nodup := by
  rw [hgrown.queue]
  refine List.nodup_append.mpr ⟨hnodup, hgrown.nodup, ?_⟩
  intro b hb c hc hbc
  obtain ⟨m, hm⟩ := hlabelled b hb
  have hnone : s.labels.distance c = none := (hgrown.gains c hc).2.1
  rw [← hbc, hm] at hnone
  cases hnone

/-- The labelled elements are those that have been taken from the queue so far and those that
wait. -/
structure Search.Visited (seen : List α) (s : Search α) : Prop where
  known_iff : ∀ a, (s.labels.distance a).isSome ↔ a ∈ seen ∨ a ∈ s.queue
  apart : ∀ a ∈ seen, a ∉ s.queue
  near : ∀ a n, s.labels.distance a = some n → n ≤ seen.length

theorem Search.Visited.drop (h : s.Visited seen) (hnodup : s.queue.Nodup)
    (hqueue : s.queue = a :: queue) : Search.Visited (seen ++ [a]) ⟨s.labels, queue⟩ := by
  rw [hqueue] at hnodup
  constructor
  · intro b
    rw [h.known_iff, hqueue, List.mem_append, List.mem_singleton, List.mem_cons]
    exact or_assoc.symm
  · intro b hb
    rcases List.mem_append.mp hb with hold | hlast
    · have hout := h.apart b hold
      rw [hqueue, List.mem_cons, not_or] at hout
      exact hout.2
    · rw [List.mem_singleton.mp hlast]
      exact (List.nodup_cons.mp hnodup).1
  · intro b m hb
    have hnear := h.near b m hb
    rw [List.length_append, List.length_singleton]
    omega

theorem Search.Visited.grow (h : s.Visited seen) (hgrown : Search.Grown a n bs new s s')
    (hn : n < seen.length) : s'.Visited seen := by
  have hnew : ∀ b ∈ new, b ∉ seen := by
    intro b hb hmem
    have hknown := (h.known_iff b).mpr (.inl hmem)
    rw [(hgrown.gains b hb).2.1] at hknown
    cases hknown
  constructor
  · intro b
    rw [hgrown.queue, List.mem_append, ← or_assoc, ← h.known_iff]
    constructor
    · intro hsome
      obtain ⟨m, hm⟩ := Option.isSome_iff_exists.mp hsome
      refine (hgrown.only b m hm).imp_left fun hold => ?_
      rw [hold]
      rfl
    · rintro (hold | hmem)
      · obtain ⟨m, hm⟩ := Option.isSome_iff_exists.mp hold
        rw [(hgrown.keeps b m hm).1]
        rfl
      · rw [(hgrown.gains b hmem).2.2.1]
        rfl
  · intro b hb
    rw [hgrown.queue, List.mem_append, not_or]
    exact ⟨h.apart b hb, fun hmem => hnew b hmem hb⟩
  · intro b m hb
    rcases hgrown.only b m hb with hold | hmem
    · exact h.near b m hold
    · have hsame := hb.symm.trans (hgrown.gains b hmem).2.2.1
      cases hsame
      exact hn

end

variable [DecidableEq α]

/-- An element is labelled from another one and waits, unless it has a label. -/
def Search.discover (a : α) (s : Search α) (b : α) : Search α :=
  if (s.labels.distance b).isSome then s
  else ⟨⟨Function.update s.labels.distance b ((s.labels.distance a).map (· + 1)),
    Function.update s.labels.parent b (some a)⟩, s.queue ++ [b]⟩

theorem Search.discover_of_labelled (h : (s.labels.distance b).isSome) : s.discover a b = s := by
  rw [Search.discover, if_pos h]

theorem Search.isSome_discover (h : (s.labels.distance c).isSome)
    (ha : (s.labels.distance a).isSome) : ((s.discover a b).labels.distance c).isSome := by
  rw [Search.discover]
  split_ifs with hb
  · exact h
  · dsimp only
    by_cases hcb : c = b
    · rw [hcb, Function.update_self, Option.isSome_map]
      exact ha
    · rw [Function.update_of_ne hcb]
      exact h

theorem Search.grown_discover (ha : s.labels.distance a = some n) :
    ∃ new, Search.Grown a n [b] new s (s.discover a b) := by
  by_cases hb : (s.labels.distance b).isSome
  · rw [Search.discover_of_labelled hb]
    exact ⟨[], Search.grown_nil fun c hc => List.mem_singleton.mp hc ▸ hb⟩
  · have hnone : s.labels.distance b = none := Option.not_isSome_iff_eq_none.mp hb
    rw [Search.discover, if_neg hb, ha]
    refine ⟨[b], rfl, List.nodup_singleton b, ?_, ?_, ?_, ?_⟩
    · intro c m hc
      have hne : c ≠ b := fun hcb => by
        rw [hcb, hnone] at hc
        cases hc
      exact ⟨(Function.update_of_ne hne _ _).trans hc, Function.update_of_ne hne _ _⟩
    · intro c hc
      rw [List.mem_singleton.mp hc]
      exact ⟨List.mem_singleton_self b, hnone, Function.update_self .., Function.update_self ..⟩
    · intro c m hc
      by_cases hcb : c = b
      · exact .inr (hcb ▸ List.mem_singleton_self b)
      · exact .inl ((Function.update_of_ne hcb _ _).symm.trans hc)
    · intro c hc
      rw [List.mem_singleton.mp hc]
      simp

theorem Search.grown_foldl_discover (bs : List α) (ha : s.labels.distance a = some n) :
    ∃ new, Search.Grown a n bs new s (bs.foldl (Search.discover a) s) := by
  induction bs generalizing s with
  | nil => exact ⟨[], Search.grown_nil fun c hc => absurd hc List.not_mem_nil⟩
  | cons b bs ih =>
    obtain ⟨first, hfirst⟩ := s.grown_discover (b := b) ha
    obtain ⟨later, hlater⟩ := ih (hfirst.keeps a n ha).1
    exact ⟨first ++ later, hfirst.append hlater⟩

/-- The search goes on from the element at the front of its queue. -/
theorem Search.Layered.expand (h : s.Layered succ start skips) (hqueue : s.queue = a :: queue) :
    ((succ a).foldl (Search.discover a) ⟨s.labels, queue⟩).Layered succ start skips := by
  obtain ⟨n, now, next, rfl, ha, hnow, hnext, hleft⟩ := h.cons_cases hqueue
  have hnodup : (a :: (now ++ next)).Nodup := hqueue ▸ h.nodup
  have hwaits : ∀ b ∈ now ++ next, ∃ m, s.labels.distance b = some m := fun b hb =>
    h.labelled (hqueue ▸ List.mem_cons_of_mem a hb)
  have hnear : ∀ b m, s.labels.distance b = some m → m ≤ n + 1 := by
    intro b m hb
    by_cases hmem : b ∈ now ++ next
    · rcases List.mem_append.mp hmem with hmem | hmem
      · have hsame := (hnow b hmem).symm.trans hb
        cases hsame
        exact Nat.le_succ n
      · have hsame := (hnext b hmem).symm.trans hb
        cases hsame
        exact le_refl _
    · exact (hleft b m hb hmem).trans (Nat.le_succ n)
  have ha' : (⟨s.labels, now ++ next⟩ : Search α).labels.distance a = some n := ha
  obtain ⟨new, hgrown⟩ := Search.grown_foldl_discover (succ a) ha'
  generalize (succ a).foldl (Search.discover a) ⟨s.labels, now ++ next⟩ = s' at hgrown ⊢
  have hstays : ∀ b m, s'.labels.distance b = some m → b ∉ s'.queue →
      s.labels.distance b = some m ∧ b ∉ now ++ next := by
    intro b m hb hout
    rw [hgrown.queue] at hout
    have hold : b ∉ now ++ next := fun hmem => hout (List.mem_append_left _ hmem)
    exact ⟨(hgrown.only b m hb).resolve_right fun hmem => hout (List.mem_append_right _ hmem), hold⟩
  refine ⟨hgrown.tree h.tree ha, hgrown.nodup_queue hnodup.of_cons hwaits,
    ⟨n, now, next ++ new, ?_, ?_, ?_, ?_⟩, ?_⟩
  · rw [hgrown.queue, List.append_assoc]
  · exact fun b hb => (hgrown.keeps b n (hnow b hb)).1
  · intro b hb
    rcases List.mem_append.mp hb with hb | hb
    · exact (hgrown.keeps b (n + 1) (hnext b hb)).1
    · exact (hgrown.gains b hb).2.2.1
  · intro b m hb hout
    obtain ⟨hold, hoff⟩ := hstays b m hb hout
    exact hleft b m hold hoff
  · intro b m hb hout
    obtain ⟨hold, hoff⟩ := hstays b m hb hout
    by_cases hba : b = a
    · rw [hba]
      exact .inr (hgrown.expands ha hnear)
    · have hout' : b ∉ s.queue := by
        rw [hqueue, List.mem_cons]
        exact fun hmem => hmem.elim hba hoff
      exact (h.expanded b m hold hout').imp_right (hgrown.keeps_expanded hold)

/-- The search before its first turn. -/
def Search.initial (start : α) : Search α :=
  ⟨⟨fun a => if a = start then some 0 else none, fun _ => none⟩, [start]⟩

theorem Search.layered_initial : (Search.initial start).Layered succ start skips := by
  have hlabel : ∀ a n, (Search.initial start).labels.distance a = some n → a = start ∧ n = 0 := by
    intro a n ha
    simp only [Search.initial, Option.ite_none_right_eq_some, Option.some.injEq] at ha
    exact ⟨ha.1, ha.2.symm⟩
  have hstart : (Search.initial start).labels.distance start = some 0 := if_pos rfl
  refine ⟨⟨rfl, hstart, fun a ha => (hlabel a 0 ha).1, ?_⟩, List.nodup_singleton start,
    ⟨0, [start], [], rfl, ?_, fun a ha => absurd ha List.not_mem_nil, ?_⟩, ?_⟩
  · intro b n hb
    obtain ⟨-, hzero⟩ := hlabel b (n + 1) hb
    cases hzero
  · intro a ha
    rw [List.mem_singleton.mp ha]
    exact hstart
  · intro a m ha hout
    exact (hlabel a m ha).2.le
  · intro a n ha hout
    exact absurd (List.mem_singleton.mpr (hlabel a n ha).1) hout

theorem Search.visited_initial : (Search.initial start).Visited [] := by
  constructor
  · intro a
    simp [Search.initial]
  · intro a ha
    cases ha
  · intro a n ha
    simp only [Search.initial, Option.ite_none_right_eq_some, Option.some.injEq] at ha
    exact ha.2.symm.le

end ShortestPaths
