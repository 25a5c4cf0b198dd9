import Army3.Scripts.TraceReachability

/-! What a trace says: the path it prints is a shortest one, and without a path there is none. -/

namespace Army3
namespace TraceReachability

open ShortestPaths

variable {Address : Type} [LinearOrder Address]

namespace TraceWalk

/-- The predecessor map holds what a search by labels knows. -/
structure Matches (w : TraceWalk Address) (s : Search Address) : Prop where
  queue : w.queue = s.queue
  known : ∀ a, a ∈ w.previous ↔ (s.labels.distance a).isSome
  parent : ∀ a, w.previous[a]?.join = s.labels.parent a

variable {disassemble : PseudoDisassembler Address} {range : CodeRange Address}
  {target : Address} {monitor : Monitor} {here next : Address} {w w' : TraceWalk Address}
  {s : Search Address}

theorem Matches.enqueue (h : w.Matches s) (hhere : (s.labels.distance here).isSome)
    (hinside : range.Inside next) : (w.enqueue range here next).Matches (s.discover here next) := by
  rw [TraceWalk.enqueue]
  by_cases hknown : next ∈ w.previous
  · rw [if_pos (.inr hknown), Search.discover_of_labelled ((h.known next).mp hknown)]
    exact h
  · have hnew : ¬ (s.labels.distance next).isSome := mt (h.known next).mpr hknown
    rw [if_neg (not_or.mpr ⟨not_not_intro hinside, hknown⟩), Search.discover, if_neg hnew]
    constructor
    · exact congrArg (· ++ [next]) h.queue
    · intro a
      dsimp only
      rw [Std.TreeMap.mem_insert, compare_eq_iff_eq, h.known]
      by_cases ha : a = next
      · rw [ha, Function.update_self, Option.isSome_map]
        exact iff_of_true (.inl rfl) hhere
      · rw [Function.update_of_ne ha, or_iff_right (Ne.symm ha)]
    · intro a
      have hparent : (fun a => w.previous[a]?.join) = s.labels.parent := funext h.parent
      dsimp only
      rw [← hparent]
      exact congrFun (read_insert Option.join w.previous next (some here)) a

theorem enqueue_of_outside (h : ¬ range.Inside next) : w.enqueue range here next = w := by
  rw [TraceWalk.enqueue, if_pos (.inl h)]

theorem Matches.foldl_enqueue (h : w.Matches s) (hhere : (s.labels.distance here).isSome)
    (flows : List Address) : (flows.foldl (TraceWalk.enqueue range here) w).Matches
      ((flows.filter range.Inside).foldl (Search.discover here) s) := by
  induction flows generalizing w s with
  | nil => exact h
  | cons flow flows ih =>
    rw [List.foldl_cons, List.filter_cons]
    by_cases hinside : range.Inside flow
    · rw [if_pos (decide_eq_true hinside), List.foldl_cons]
      exact ih (h.enqueue hhere hinside) (Search.isSome_discover hhere hhere)
    · rw [if_neg (by simpa using hinside), enqueue_of_outside hinside]
      exact ih h hhere

theorem Matches.followJump (h : w.Matches s) (hhere : (s.labels.distance here).isSome)
    (instruction : PseudoInstruction Address) :
    (w.followJump range here instruction).Matches
      ((instruction.directFlows.filter range.Inside).foldl (Search.discover here) s) := by
  rw [TraceWalk.followJump]
  split_ifs with hjump hunknown
  · rw [PseudoInstruction.directFlows_of_unknown hunknown]
    exact ⟨h.queue, h.known, h.parent⟩
  · rw [PseudoInstruction.directFlows_of_known hjump hunknown]
    exact h.foldl_enqueue hhere _
  · rw [PseudoInstruction.directFlows_of_not_isJump hjump]
    exact h

theorem Matches.followFallThrough (h : w.Matches s) (hhere : (s.labels.distance here).isSome)
    (instruction : PseudoInstruction Address) :
    (w.followFallThrough range here instruction).Matches
      ((instruction.fallThrough.toList.filter range.Inside).foldl (Search.discover here) s) := by
  rw [TraceWalk.followFallThrough]
  cases instruction.fallThrough with
  | none => exact h
  | some fall => exact h.foldl_enqueue hhere [fall]

theorem isSome_foldl_discover (hhere : (s.labels.distance here).isSome) (flows : List Address) :
    ((flows.foldl (Search.discover here) s).labels.distance here).isSome := by
  induction flows generalizing s with
  | nil => exact hhere
  | cons flow flows ih => exact ih (Search.isSome_discover hhere hhere)

theorem Matches.visit (disassemble : PseudoDisassembler Address) (range : CodeRange Address)
    (h : w.Matches s) (hhere : (s.labels.distance here).isSome)
    (hother : here ≠ target) : (w.visit disassemble range target here).Matches
      ((edges disassemble range here).foldl (Search.discover here) s) := by
  cases hdecode : decode disassemble here with
  | none =>
    rw [visit_of_none hother hdecode, edges_of_none hdecode]
    exact ⟨h.queue, h.known, h.parent⟩
  | some instruction =>
    rw [visit_of_some hother hdecode, edges_visited hdecode, List.foldl_append]
    have hseen : ({ w with seen := w.seen ++ [here] } : TraceWalk Address).Matches s :=
      ⟨h.queue, h.known, h.parent⟩
    exact (hseen.followJump hhere instruction).followFallThrough
      (isSome_foldl_discover hhere _) instruction

/-- What holds between the turns, of the walk and of what a search by labels knows with it. The
target is taken from the queue as the last one. -/
structure Sound (disassemble : PseudoDisassembler Address) (range : CodeRange Address)
    (target : Address) (w : TraceWalk Address) (s : Search Address) : Prop where
  matched : w.Matches s
  layered : s.Layered (edges disassemble range) range.start fun a _ => a = target
  visited : s.Visited w.seen
  inside : ∀ a ∈ w.queue, range.Inside a
  bounded : w.seen.length ≤ limit
  errors : w.errors = 0 → ∀ a ∈ w.seen, a ≠ target → (decode disassemble a).isSome
  indirect : w.indirect = 0 → ∀ a ∈ w.seen, a ≠ target → ¬ IsIndirectSite disassemble a
  reached : w.reached = true ↔ target ∈ w.seen
  first : w.reached = true → ∃ n, s.labels.distance target = some n ∧ n < w.seen.length ∧
    ∀ a m, s.labels.distance a = some m → m < n → a ∉ w.queue

theorem matches_initial : (initial range.start).Matches (Search.initial range.start) := by
  constructor
  · rfl
  · intro a
    have hlabel : ((Search.initial range.start).labels.distance a).isSome ↔ a = range.start := by
      simp [Search.initial]
    rw [hlabel, initial, Std.TreeMap.mem_insert, compare_eq_iff_eq,
      or_iff_left Std.TreeMap.not_mem_emptyc]
    exact eq_comm
  · intro a
    simp only [initial, Search.initial, Std.TreeMap.getElem?_insert, Std.TreeMap.getElem?_emptyc]
    split_ifs <;> rfl

theorem sound_initial (h : range.start < range.limit) :
    (initial range.start).Sound disassemble range target (Search.initial range.start) where
  matched := matches_initial
  layered := Search.layered_initial
  visited := Search.visited_initial
  inside a ha := by
    rw [List.mem_singleton.mp ha]
    exact ⟨le_refl _, h⟩
  bounded := Nat.zero_le _
  errors _ a ha := absurd ha List.not_mem_nil
  indirect _ a ha := absurd ha List.not_mem_nil
  reached := iff_of_false Bool.false_ne_true List.not_mem_nil
  first hreached := by cases hreached

theorem visit_counts (disassemble : PseudoDisassembler Address) (range : CodeRange Address)
    (w : TraceWalk Address) (hother : here ≠ target) :
    (w.visit disassemble range target here).reached = w.reached ∧
      ((w.visit disassemble range target here).errors = 0 →
        w.errors = 0 ∧ (decode disassemble here).isSome) ∧
      ((w.visit disassemble range target here).indirect = 0 →
        w.indirect = 0 ∧ ¬ IsIndirectSite disassemble here) := by
  cases hdecode : decode disassemble here with
  | none =>
    rw [visit_of_none hother hdecode]
    exact ⟨rfl, fun herrors => absurd herrors (Nat.succ_ne_zero _),
      fun hindirect => ⟨hindirect, not_isIndirectSite hdecode⟩⟩
  | some instruction =>
    rw [visit_of_some hother hdecode, isIndirectSite_iff hdecode]
    generalize hw : ({ w with seen := w.seen ++ [here] } : TraceWalk Address) = w'
    have hfall := sameCounts_followFallThrough range here instruction
      (w'.followJump range here instruction)
    rw [hfall.reached, hfall.errors, hfall.indirect]
    subst hw
    by_cases hindirect : instruction.IsIndirect
    · rw [followJump_of_isIndirect hindirect]
      exact ⟨rfl, fun herrors => ⟨herrors, rfl⟩, fun hzero => absurd hzero (Nat.succ_ne_zero _)⟩
    · rw [(sameCounts_followJump hindirect).reached, (sameCounts_followJump hindirect).errors,
        (sameCounts_followJump hindirect).indirect]
      exact ⟨rfl, fun herrors => ⟨herrors, rfl⟩, fun hzero => ⟨hzero, hindirect⟩⟩

theorem Sound.visit_target {queue : List Address} (h : w.Sound disassemble range target s)
    (hqueue : w.queue = target :: queue) (hlimit : w.seen.length < limit) :
    ((w.removeFirst queue).visit disassemble range target target).Sound disassemble range target
      ⟨s.labels, queue⟩ := by
  have hsqueue : s.queue = target :: queue := h.matched.queue ▸ hqueue
  have hearlier : ∀ a ∈ w.seen ++ [target], a ≠ target → a ∈ w.seen := fun a ha hne =>
    (List.mem_append.mp ha).resolve_right fun hlast => hne (List.mem_singleton.mp hlast)
  obtain ⟨n, hn⟩ := h.layered.labelled (hsqueue ▸ List.mem_cons_self)
  have hnear := h.visited.near target n hn
  rw [TraceWalk.visit_target, removeFirst_seen]
  refine ⟨⟨rfl, h.matched.known, h.matched.parent⟩, h.layered.drop hsqueue fun _ _ => .inl rfl,
    h.visited.drop h.layered.nodup hsqueue,
    fun a ha => h.inside a (hqueue ▸ List.mem_cons_of_mem target ha), ?_,
    fun herrors a ha hne => h.errors herrors a (hearlier a ha hne) hne,
    fun hindirect a ha hne => h.indirect hindirect a (hearlier a ha hne) hne,
    iff_of_true rfl (List.mem_append_right _ (List.mem_singleton_self target)),
    fun _ => ⟨n, hn, ?_, fun a m ha hm hmem => ?_⟩⟩
  · simp only [List.length_append, List.length_singleton]
    exact hlimit
  · simp only [List.length_append, List.length_singleton]
    omega
  · exact h.layered.front_le hsqueue hn ha hm (hsqueue ▸ List.mem_cons_of_mem target hmem)

theorem Sound.visit_other {queue : List Address} (h : w.Sound disassemble range target s)
    (hqueue : w.queue = here :: queue) (hlimit : w.seen.length < limit)
    (hgoes : w.reached = false) (hother : here ≠ target) :
    ((w.removeFirst queue).visit disassemble range target here).Sound disassemble range target
      ((edges disassemble range here).foldl (Search.discover here) ⟨s.labels, queue⟩) := by
  have hsqueue : s.queue = here :: queue := h.matched.queue ▸ hqueue
  obtain ⟨n, hn⟩ := h.layered.labelled (hsqueue ▸ List.mem_cons_self)
  have hnear := h.visited.near here n hn
  have hn' : (⟨s.labels, queue⟩ : Search Address).labels.distance here = some n := hn
  have hhere : ((⟨s.labels, queue⟩ : Search Address).labels.distance here).isSome :=
    Option.isSome_iff_exists.mpr ⟨n, hn'⟩
  have hstate : (w.removeFirst queue).Matches ⟨s.labels, queue⟩ :=
    ⟨rfl, h.matched.known, h.matched.parent⟩
  have hmatched := hstate.visit disassemble range hhere hother
  obtain ⟨new, hgrown⟩ := Search.grown_foldl_discover (edges disassemble range here) hn'
  obtain ⟨hreached, herrors, hindirect⟩ :=
    visit_counts disassemble range (w.removeFirst queue) hother
  have hunseen : target ∉ w.seen := by
    rw [← h.reached, hgoes]
    exact Bool.false_ne_true
  constructor
  · exact hmatched
  · exact h.layered.expand hsqueue
  · rw [visit_seen]
    refine (h.visited.drop h.layered.nodup hsqueue).grow hgrown ?_
    rw [List.length_append, List.length_singleton]
    exact Nat.lt_succ_of_le hnear
  · intro a ha
    rw [hmatched.queue, hgrown.queue] at ha
    rcases List.mem_append.mp ha with hold | hmem
    · exact h.inside a (hqueue ▸ List.mem_cons_of_mem here hold)
    · exact inside_of_mem_edges (hgrown.gains a hmem).1
  · rw [visit_seen, List.length_append, List.length_singleton]
    exact hlimit
  · intro hzero a ha hne
    rw [visit_seen] at ha
    obtain ⟨hbefore, hdecodes⟩ := herrors hzero
    rcases List.mem_append.mp ha with hold | hlast
    · exact h.errors hbefore a hold hne
    · rw [List.mem_singleton.mp hlast]
      exact hdecodes
  · intro hzero a ha hne
    rw [visit_seen] at ha
    obtain ⟨hbefore, hdirect⟩ := hindirect hzero
    rcases List.mem_append.mp ha with hold | hlast
    · exact h.indirect hbefore a hold hne
    · rw [List.mem_singleton.mp hlast]
      exact hdirect
  · rw [hreached, removeFirst_reached, hgoes, visit_seen, List.mem_append, List.mem_singleton]
    exact iff_of_false Bool.false_ne_true fun hmem => hmem.elim hunseen (Ne.symm hother)
  · intro hend
    rw [hreached, removeFirst_reached, hgoes] at hend
    cases hend

theorem Sound.turn (h : w.Sound disassemble range target s)
    (hturn : (loop disassemble range target monitor).turn w = some w') :
    ∃ s', w'.Sound disassemble range target s' := by
  obtain ⟨here, queue, hqueue, hlimit, hgoes, hcases⟩ :=
    (loop disassemble range target monitor).turn_cases hturn
  change w.queue = here :: queue at hqueue
  rcases hcases with ⟨hskip, -⟩ | ⟨-, -, rfl⟩
  · have hmem : here ∈ w.queue := hqueue ▸ List.mem_cons_self
    rcases hskip with houtside | hseen
    · exact absurd (h.inside here hmem) houtside
    · exact absurd (h.matched.queue ▸ hmem) (h.visited.apart here hseen)
  · by_cases htarget : here = target
    · subst htarget
      exact ⟨_, h.visit_target hqueue hlimit⟩
    · have hbefore : w.reached = false := by
        change (!w.reached && !monitor w.polls) = true at hgoes
        rw [Bool.and_eq_true, Bool.not_eq_true'] at hgoes
        exact hgoes.1
      exact ⟨_, h.visit_other hqueue hlimit hbefore htarget⟩

end TraceWalk

open TraceWalk

variable (disassemble : PseudoDisassembler Address) (range : CodeRange Address) (target : Address)
  (monitor : Monitor)

theorem walk_sound (h : range.start < range.limit) :
    ∃ s, (walk disassemble range target monitor).Sound disassemble range target s := by
  refine (TraceWalk.loop disassemble range target monitor).finish_of_invariant
    (P := fun w => ∃ s, w.Sound disassemble range target s) ?_ ⟨_, TraceWalk.sound_initial h⟩
  intro w w' hw hturn
  obtain ⟨s, hs⟩ := hw
  exact hs.turn hturn

/-- Why a walk that nobody cancels has ended. -/
theorem walk_ends (huncancelled : ∀ turn, monitor turn = false) :
    (walk disassemble range target monitor).queue = [] ∨
      (walk disassemble range target monitor).reached = true ∨
      limit ≤ (walk disassemble range target monitor).seen.length := by
  rcases (TraceWalk.loop disassemble range target monitor).finish_cases
    (TraceWalk.initial range.start) with hqueue | hlimit | hstops
  · exact .inl hqueue
  · exact .inr (.inr hlimit)
  · change (!(walk disassemble range target monitor).reached && !monitor _) = false at hstops
    rw [huncancelled, Bool.not_false, Bool.and_true, Bool.not_eq_false'] at hstops
    exact .inr (.inl hstops)

variable {disassemble range target monitor} {w : TraceWalk Address} {s : Search Address}

/-- The loop back along the predecessors is the way back along the labels. -/
theorem rebuild_eq_climb {start here : Address} {n budget : Nat}
    (hparent : ∀ a, w.previous[a]?.join = s.labels.parent a)
    (htree : s.labels.Tree (edges disassemble range) start)
    (hn : s.labels.distance here = some n) (hbudget : n < budget) :
    rebuild w.previous budget (some here) = climb s.labels.parent n here := by
  induction budget generalizing here n with
  | zero => cases hbudget
  | succ budget ih =>
    rw [rebuild, hparent]
    cases n with
    | zero =>
      rw [htree.eq_start here hn, htree.parent_start, climb]
      cases budget <;> rfl
    | succ n =>
      obtain ⟨before, hbefore, hdistance, -⟩ := htree.link here n hn
      rw [climb_succ hbefore, hbefore, ih hdistance (by omega)]

/-- The path of a walk that has reached its target. -/
theorem TraceWalk.Sound.isShortest (h : w.Sound disassemble range target s)
    (hreached : w.reached = true) : IsShortest (edges disassemble range) range.start target
      (tracedPath target w) := by
  obtain ⟨n, hn, hshort, hclose⟩ := h.first hreached
  have hbudget : n < limit + 1 := (hshort.trans_le h.bounded).trans (Nat.lt_succ_self _)
  rw [tracedPath, rebuild_eq_climb h.matched.parent h.layered.tree hn hbudget]
  refine h.layered.tree.isShortest_climb hn fun a m ha hm hne => ?_
  have hout : a ∉ s.queue := h.matched.queue ▸ hclose a m ha hm
  exact (h.layered.expanded a m ha hout).resolve_left hne

/-- Everything that the search knows of is visited, once nothing waits. -/
theorem TraceWalk.Sound.mem_seen (h : w.Sound disassemble range target s) (hqueue : w.queue = [])
    {a : Address} (ha : (s.labels.distance a).isSome) : a ∈ w.seen := by
  have hplace := (h.visited.known_iff a).mp ha
  rw [← h.matched.queue, hqueue] at hplace
  exact hplace.resolve_right List.not_mem_nil

/-- A walk with an empty queue that has not reached its target has gone on everywhere. -/
theorem TraceWalk.Sound.expanded (h : w.Sound disassemble range target s) (hqueue : w.queue = [])
    (hreached : w.reached = false) {a : Address} {n : Nat} (ha : s.labels.distance a = some n) :
    s.labels.Expanded (edges disassemble range) a := by
  have hout : a ∉ s.queue := by
    rw [← h.matched.queue, hqueue]
    exact List.not_mem_nil
  refine (h.layered.expanded a n ha hout).resolve_left fun htarget => ?_
  have hseen : target ∈ w.seen := htarget ▸ h.mem_seen hqueue (ha ▸ rfl)
  rw [h.reached.mpr hseen] at hreached
  cases hreached

theorem TraceWalk.Sound.no_path (h : w.Sound disassemble range target s) (hqueue : w.queue = [])
    (hreached : w.reached = false) (path : List Address) :
    ¬ IsPath (edges disassemble range) range.start target path := by
  have hunknown : s.labels.distance target = none := by
    refine Option.not_isSome_iff_eq_none.mp fun hsome => ?_
    rw [h.reached.mpr (h.mem_seen hqueue hsome)] at hreached
    cases hreached
  exact Labels.not_isPath h.layered.tree.distance_start hunknown fun a n ha =>
    h.expanded hqueue hreached ha

/-- Every visited address decodes, and what it may go on to in the range is visited. -/
def ClosedInRange (disassemble : PseudoDisassembler Address) (range : CodeRange Address)
    (visited : List Address) : Prop :=
  ∀ a ∈ visited, ∃ instruction, decode disassemble a = some instruction ∧
    ∀ b ∈ instruction.everyFollower, range.Inside b → b ∈ visited

theorem TraceWalk.Sound.closed (h : w.Sound disassemble range target s) (hqueue : w.queue = [])
    (hreached : w.reached = false) (herrors : w.errors = 0) (hindirect : w.indirect = 0) :
    ClosedInRange disassemble range w.seen := by
  intro a ha
  have hne : a ≠ target := by
    rintro rfl
    rw [h.reached.mpr ha] at hreached
    cases hreached
  obtain ⟨instruction, hdecode⟩ := Option.isSome_iff_exists.mp (h.errors herrors a ha hne)
  have hdirect : ¬ instruction.IsIndirect :=
    (isIndirectSite_iff hdecode).not.mp (h.indirect hindirect a ha hne)
  refine ⟨instruction, hdecode, fun b hb hinside => ?_⟩
  rw [PseudoInstruction.everyFollower_of_not_isIndirect hdirect] at hb
  have hedge : b ∈ edges disassemble range a := by
    rw [edges_of_some hdecode]
    exact List.mem_filter.mpr ⟨hb, decide_eq_true hinside⟩
  obtain ⟨n, hn⟩ := Option.isSome_iff_exists.mp ((h.visited.known_iff a).mpr (.inl ha))
  obtain ⟨m, hm, -⟩ := h.expanded hqueue hreached hn n hn b hedge
  exact h.mem_seen hqueue (hm ▸ rfl)

/-- Every address of a path to an address that decodes does. -/
theorem decodes_of_mem_path {a b : Address} {path : List Address}
    (hpath : IsPath (edges disassemble range) a b path) (hb : (decode disassemble b).isSome) :
    ∀ here ∈ path, (decode disassemble here).isSome := by
  induction hpath with
  | single b =>
    intro here hmem
    rw [List.mem_singleton.mp hmem]
    exact hb
  | @cons a c b path hstep hpath ih =>
    intro here hmem
    rcases List.mem_cons.mp hmem with rfl | hmem
    · cases hdecode : decode disassemble here with
      | none =>
        rw [edges_of_none hdecode] at hstep
        cases hstep
      | some instruction => rfl
    · exact ih hb here hmem

omit [LinearOrder Address] in
/-- The loop over a path of decoded instructions throws nothing. -/
theorem pathLines_ok (size index : Nat) {path : List Address}
    (h : ∀ here ∈ path, (decode disassemble here).isSome) :
    ∃ lines, pathLines disassemble size index path = .ok lines := by
  induction path generalizing index with
  | nil => exact ⟨[], rfl⟩
  | cons address path ih =>
    obtain ⟨instruction, hdecode⟩ := Option.isSome_iff_exists.mp (h address List.mem_cons_self)
    obtain ⟨later, hlater⟩ :=
      ih (index + 1) fun here hmem => h here (List.mem_cons_of_mem address hmem)
    simp only [pathLines, disassemble_of_decode hdecode, hlater]
    split_ifs <;> exact ⟨_, rfl⟩

/-- A trace answers correctly: it prints a shortest path within the range, or, if it has not been
cut off, there is none; and without errors and computed jumps it has seen all there is. -/
theorem trace_correct (hlow : range.start ≤ target) (hhigh : target < range.limit)
    (hdecodes : (decode disassemble target).isSome) (huncancelled : ∀ turn, monitor turn = false) :
    ∃ w rest, w = walk disassemble range target monitor ∧
      run disassemble range target monitor = .ok (.summary range.start target w.reached
        w.seen.length w.errors w.indirect limit :: rest) ∧
      (w.reached = true → .pathLength (tracedPath target w).length ∈ rest ∧
        IsShortest (edges disassemble range) range.start target (tracedPath target w)) ∧
      (w.reached = false → w.seen.length < limit →
        (∀ path, ¬ IsPath (edges disassemble range) range.start target path) ∧
        (w.errors = 0 → w.indirect = 0 → ClosedInRange disassemble range w.seen)) := by
  have hrange : range.start < range.limit := hlow.trans_lt hhigh
  obtain ⟨s, hsound⟩ : ∃ s, (walk disassemble range target monitor).Sound disassemble range
    target s := walk_sound disassemble range target monitor hrange
  have hends := walk_ends disassemble range target monitor huncancelled
  rw [run, if_pos ⟨hlow, hhigh⟩]
  generalize walk disassemble range target monitor = w at *
  cases hreached : w.reached with
  | true =>
    have hshortest := hsound.isShortest hreached
    obtain ⟨lines, hlines⟩ := pathLines_ok (tracedPath target w).length 0
      (decodes_of_mem_path hshortest.1 hdecodes)
    refine ⟨w, .pathLength (tracedPath target w).length :: lines, rfl, ?_, fun _ =>
      ⟨List.mem_cons_self, hshortest⟩, fun hfalse => ?_⟩
    · simp only [hreached, if_true, hlines]
      rfl
    · rw [hreached] at hfalse
      cases hfalse
  | false =>
    refine ⟨w, [], rfl, ?_, fun htrue => ?_, fun _ hcut => ?_⟩
    · simp only [hreached]
      rfl
    · rw [hreached] at htrue
      cases htrue
    · rcases hends with hqueue | htrue | hlimit
      · exact ⟨hsound.no_path hqueue hreached, hsound.closed hqueue hreached⟩
      · rw [hreached] at htrue
        cases htrue
      · omega

/-- A jump to 12 from everywhere, that may also be passed. -/
def jumpBack (here : Nat) : Except String (Option (PseudoInstruction Nat)) :=
  .ok (some ⟨1, true, false, false, [12], some (here + 1), "JNZ 0xc"⟩)

theorem trace_correct_jumpBack :
    ∃ w rest, w = walk jumpBack ⟨10, 20⟩ 13 (fun _ => false) ∧
      run jumpBack ⟨10, 20⟩ 13 (fun _ => false) = .ok (.summary 10 13 w.reached w.seen.length
        w.errors w.indirect limit :: rest) ∧
      (w.reached = true → .pathLength (tracedPath 13 w).length ∈ rest ∧
        IsShortest (edges jumpBack ⟨10, 20⟩) 10 13 (tracedPath 13 w)) ∧
      (w.reached = false → w.seen.length < limit →
        (∀ path, ¬ IsPath (edges jumpBack ⟨10, 20⟩) 10 13 path) ∧
        (w.errors = 0 → w.indirect = 0 → ClosedInRange jumpBack ⟨10, 20⟩ w.seen)) :=
  trace_correct (by decide) (by decide) rfl fun _ => rfl

end TraceReachability
end Army3
