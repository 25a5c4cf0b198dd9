import Army3.Scripts.TraceIncoming

/-! What a trace of incoming calls prints: every call in the range that leads to the target within
the depth, each once, with a shortest chain. -/

namespace Army3
namespace TraceIncoming

open ShortestPaths

variable {Address : Type} [LinearOrder Address]

section
variable (program : Program Address) (range : CodeRange Address)

/-- The functions of the calls that are made outside of the range. -/
def onward (called : List (Address × Callable Address)) : List Address :=
  (called.filter fun call => ¬ range.Inside call.1).map fun call => call.2.entryPoint

/-- The functions that call a function from outside of the range. -/
def outward (entry : Address) : List Address := onward range (calls program entry)

def hitLine (node : Node Address) (call : Address × Callable Address) : Line Address :=
  .rangeCallsite call.1 (node.depth + 1) call.2 (call.1 :: node.chain)

/-- What is printed for a function that the search goes on from. -/
def hits (node : Node Address) : List (Line Address) :=
  ((calls program node.entry).filter fun call => range.Inside call.1).map (hitLine node)

/-- The chain of a node leads to the target, so many calls long. -/
structure Leads (start : Address) (node : Node Address) : Prop where
  path : IsPath (outward program range) start node.entry node.chain.reverse
  length : node.chain.length = node.depth + 1

end

variable {program : Program Address} {range : CodeRange Address} {monitor : Monitor} {maxDepth : Int}
  {start : Address} {node : Node Address}

theorem mem_outward {call : Address × Callable Address} {entry : Address}
    (h : call ∈ calls program entry) (houtside : ¬ range.Inside call.1) :
    call.2.entryPoint ∈ outward program range entry :=
  List.mem_map.mpr ⟨call, List.mem_filter.mpr ⟨h, decide_eq_true houtside⟩, rfl⟩

namespace Trace

/-- What holds of a search whenever it is cancelled. -/
structure Honest (program : Program Address) (range : CodeRange Address) (maxDepth : Int)
    (start : Address) (s : Trace Address) : Prop where
  leads : ∀ node ∈ s.queue, Leads program range start node
  lines : ∀ line ∈ s.lines, ∃ node, Leads program range start node ∧ node.depth < maxDepth ∧
    line ∈ hits program range node

variable {s s' : Trace Address} {search : Search Address}

theorem honest_initial (target : Callable Address) :
    (initial target).Honest program range maxDepth target.entryPoint where
  leads node hnode := by
    obtain rfl := List.mem_singleton.mp hnode
    exact ⟨.single _, rfl⟩
  lines line hline := absurd hline List.not_mem_nil

theorem Honest.follow (h : s.Honest program range maxDepth start)
    (hnode : Leads program range start node) (hdepth : node.depth < maxDepth)
    {call : Address × Callable Address} (hcall : call ∈ calls program node.entry) :
    (s.follow range node call).Honest program range maxDepth start := by
  rw [Trace.follow]
  split_ifs with hinside
  · refine ⟨h.leads, fun line hline => ?_⟩
    rcases List.mem_append.mp hline with hold | hnew
    · exact h.lines line hold
    · refine ⟨node, hnode, hdepth, ?_⟩
      rw [List.mem_singleton.mp hnew]
      exact List.mem_map.mpr ⟨call, List.mem_filter.mpr ⟨hcall, decide_eq_true hinside⟩, rfl⟩
  · have honward : Leads program range start
        ⟨call.2, node.depth + 1, call.2.entryPoint :: node.chain⟩ := by
      refine ⟨?_, congrArg (· + 1) hnode.length⟩
      rw [List.reverse_cons]
      exact hnode.path.concat (mem_outward hcall hinside)
    have hqueue : ∀ other ∈ s.queue ++ [⟨call.2, node.depth + 1, call.2.entryPoint :: node.chain⟩],
        Leads program range start other := by
      intro other hmem
      rcases List.mem_append.mp hmem with hold | hnew
      · exact h.leads other hold
      · rw [List.mem_singleton.mp hnew]
        exact honward
    rw [ascend]
    split
    · split_ifs
      · exact ⟨h.leads, h.lines⟩
      · exact ⟨hqueue, h.lines⟩
    · exact ⟨hqueue, h.lines⟩

theorem Honest.followAll (references : List (Reference Address))
    (hreferences : ∀ reference ∈ references, ∀ call ∈ callSite program node.entry reference,
      call ∈ calls program node.entry)
    (h : s.Honest program range maxDepth start) (hnode : Leads program range start node)
    (hdepth : node.depth < maxDepth) :
    (followAll program range monitor node references s).Honest program range maxDepth start := by
  induction references generalizing s with
  | nil => exact h
  | cons reference references ih =>
    have hlater : ∀ other ∈ references, ∀ call ∈ callSite program node.entry other,
        call ∈ calls program node.entry := fun other hmem =>
      hreferences other (List.mem_cons_of_mem reference hmem)
    have hpolled : ({ s with polls := s.polls + 1 } : Trace Address).Honest program range maxDepth
        start := ⟨h.leads, h.lines⟩
    rw [Trace.followAll]
    split_ifs
    · exact hpolled
    · cases hcall : callSite program node.entry reference with
      | none => exact ih hlater hpolled
      | some call =>
        have hmem := hreferences reference List.mem_cons_self call hcall
        exact ih hlater (hpolled.follow hnode hdepth hmem)

theorem call_mem_calls {entry : Address} (reference : Reference Address)
    (hreference : reference ∈ program.getReferencesTo entry) (call : Address × Callable Address)
    (hcall : call ∈ callSite program entry reference) : call ∈ calls program entry :=
  List.mem_filterMap.mpr ⟨reference, hreference, hcall⟩

/-- All that a turn can do. -/
theorem turn_cases (h : turn program range monitor maxDepth s = some s') :
    ∃ node queue, s.queue = node :: queue ∧ monitor s.polls = false ∧
      ((maxDepth ≤ node.depth ∧ s' = { s with queue := queue, polls := s.polls + 1 }) ∨
        (node.depth < maxDepth ∧
          s' = Trace.followAll program range monitor node (program.getReferencesTo node.entry)
            { s with queue := queue, polls := s.polls + 1 })) := by
  rw [turn] at h
  cases hqueue : s.queue with
  | nil =>
    rw [hqueue] at h
    cases h
  | cons node queue =>
    rw [hqueue] at h
    dsimp only at h
    split_ifs at h with hcancelled hdeep
    · exact ⟨node, queue, rfl, Bool.not_eq_true _ ▸ hcancelled,
        .inl ⟨hdeep, (Option.some.inj h).symm⟩⟩
    · exact ⟨node, queue, rfl, Bool.not_eq_true _ ▸ hcancelled,
        .inr ⟨not_le.mp hdeep, (Option.some.inj h).symm⟩⟩

theorem Honest.turn (h : s.Honest program range maxDepth start)
    (hturn : turn program range monitor maxDepth s = some s') :
    s'.Honest program range maxDepth start := by
  obtain ⟨node, queue, hqueue, -, ⟨-, rfl⟩ | ⟨hdepth, rfl⟩⟩ := turn_cases hturn
  · exact ⟨fun other hmem => h.leads other (hqueue ▸ List.mem_cons_of_mem node hmem), h.lines⟩
  · have hrest : ({ s with queue := queue, polls := s.polls + 1 } : Trace Address).Honest program range
        maxDepth start :=
      ⟨fun other hmem => h.leads other (hqueue ▸ List.mem_cons_of_mem node hmem), h.lines⟩
    exact hrest.followAll _ call_mem_calls (h.leads node (hqueue ▸ List.mem_cons_self)) hdepth

/-- The queue and the depths are those of a search by labels. -/
structure Matches (s : Trace Address) (search : Search Address) : Prop where
  queue : s.queue.map Node.entry = search.queue
  depth : ∀ a, s.bestDepth[a]? = search.labels.distance a
  depths : ∀ node ∈ s.queue, search.labels.distance node.entry = some node.depth

theorem matches_initial (target : Callable Address) :
    (initial target).Matches (Search.initial target.entryPoint) := by
  refine ⟨rfl, fun a => ?_, fun node hnode => ?_⟩
  · simp only [initial, Search.initial, Std.TreeMap.getElem?_insert, Std.TreeMap.getElem?_emptyc,
      compare_eq_iff_eq]
    exact if_congr eq_comm rfl rfl
  · rw [List.mem_singleton.mp hnode]
    exact if_pos rfl

theorem Matches.hit (h : s.Matches search) (site : Address) (caller : Callable Address) :
    (s.hit node site caller).Matches search := ⟨h.queue, h.depth, h.depths⟩

/-- In a search by layers the depth of a known function is never improved. -/
theorem Matches.ascend (h : s.Matches search)
    (hnode : search.labels.distance node.entry = some node.depth)
    (hnear : ∀ a d, search.labels.distance a = some d → d ≤ node.depth + 1)
    (caller : Callable Address) :
    (s.ascend node caller).Matches (search.discover node.entry caller.entryPoint) := by
  rw [Trace.ascend]
  cases hknown : s.bestDepth[caller.entryPoint]? with
  | some previous =>
    have hlabel := (h.depth caller.entryPoint).symm.trans hknown
    dsimp only
    rw [if_pos (hnear _ _ hlabel), Search.discover_of_labelled (by rw [hlabel]; rfl)]
    exact h
  | none =>
    have hlabel := (h.depth caller.entryPoint).symm.trans hknown
    have hnew : ¬ (search.labels.distance caller.entryPoint).isSome := by
      rw [hlabel]
      exact Bool.false_ne_true
    dsimp only
    rw [Search.discover, if_neg hnew, hnode]
    constructor
    · rw [List.map_append, h.queue]
      rfl
    · intro a
      have hinsert := congrFun (read_insert (fun found => found) s.bestDepth caller.entryPoint
        (node.depth + 1)) a
      dsimp only at hinsert ⊢
      rw [hinsert, show (fun a => s.bestDepth[a]?) = search.labels.distance from funext h.depth]
      rfl
    · intro other hmem
      rcases List.mem_append.mp hmem with hold | hlast
      · have hother := h.depths other hold
        have hne : other.entry ≠ caller.entryPoint := fun hsame => by
          rw [hsame, hlabel] at hother
          cases hother
        exact (Function.update_of_ne hne _ _).trans hother
      · rw [List.mem_singleton.mp hlast]
        exact Function.update_self ..

/-- What is printed and counted for a list of calls. -/
structure Follows (range : CodeRange Address) (node : Node Address)
    (called : List (Address × Callable Address)) (s s' : Trace Address) : Prop where
  lines : s'.lines = s.lines ++ (called.filter fun call => range.Inside call.1).map (hitLine node)
  edges : s'.traversedEdges = s.traversedEdges + called.length
  rangeHits : s'.rangeHits = s.rangeHits + (called.filter fun call => range.Inside call.1).length

theorem Follows.trans {called later : List (Address × Callable Address)} {s'' : Trace Address}
    (h : Follows range node called s s') (h' : Follows range node later s' s'') :
    Follows range node (called ++ later) s s'' := by
  refine ⟨?_, ?_, ?_⟩
  · rw [h'.lines, h.lines, List.filter_append, List.map_append, List.append_assoc]
  · rw [h'.edges, h.edges, List.length_append, Nat.add_assoc]
  · rw [h'.rangeHits, h.rangeHits, List.filter_append, List.length_append, Nat.add_assoc]

variable (range node) in
theorem follows_ascend (caller : Callable Address) (s : Trace Address) :
    Follows range node [] s (s.ascend node caller) := by
  rw [Trace.ascend]
  split
  · split_ifs <;> exact ⟨(List.append_nil _).symm, rfl, rfl⟩
  · exact ⟨(List.append_nil _).symm, rfl, rfl⟩

variable (range) in
theorem follow_spec (h : s.Matches search)
    (hnode : search.labels.distance node.entry = some node.depth)
    (hnear : ∀ a d, search.labels.distance a = some d → d ≤ node.depth + 1)
    (call : Address × Callable Address) :
    Follows range node [call] s (s.follow range node call) ∧
      (s.follow range node call).Matches
        ((onward range [call]).foldl (Search.discover node.entry) search) := by
  have hcounted : ({ s with traversedEdges := s.traversedEdges + 1 } : Trace Address).Matches search :=
    ⟨h.queue, h.depth, h.depths⟩
  rw [Trace.follow, onward]
  by_cases hinside : range.Inside call.1
  · have hhits : [call].filter (fun call => range.Inside call.1) = [call] := by simp [hinside]
    have houtside : [call].filter (fun call => ¬ range.Inside call.1) = [] := by simp [hinside]
    rw [if_pos hinside, houtside]
    refine ⟨⟨?_, rfl, ?_⟩, hcounted.hit call.1 call.2⟩
    · rw [hhits]
      rfl
    · rw [hhits]
      rfl
  · have hhits : [call].filter (fun call => range.Inside call.1) = [] := by simp [hinside]
    have houtside : [call].filter (fun call => ¬ range.Inside call.1) = [call] := by simp [hinside]
    rw [if_neg hinside, houtside]
    have hascend := follows_ascend range node call.2
      { s with traversedEdges := s.traversedEdges + 1 }
    refine ⟨⟨?_, hascend.edges, ?_⟩, hcounted.ascend hnode hnear call.2⟩
    · rw [hascend.lines, hhits]
      rfl
    · rw [hascend.rangeHits, hhits]
      rfl

/-- The callers that a search goes on to keep it within the next layer. -/
theorem near_foldl_discover (callers : List Address)
    (hnode : search.labels.distance node.entry = some node.depth)
    (hnear : ∀ a d, search.labels.distance a = some d → d ≤ node.depth + 1) :
    (callers.foldl (Search.discover node.entry) search).labels.distance node.entry =
        some node.depth ∧
      ∀ a d, (callers.foldl (Search.discover node.entry) search).labels.distance a = some d →
        d ≤ node.depth + 1 := by
  obtain ⟨new, hgrown⟩ := search.grown_foldl_discover callers hnode
  refine ⟨(hgrown.keeps _ _ hnode).1, fun a d ha => ?_⟩
  rcases hgrown.only a d ha with hold | hmem
  · exact hnear a d hold
  · have hsame := ha.symm.trans (hgrown.gains a hmem).2.2.1
    cases hsame
    exact le_refl _

variable (program range) in
theorem followAll_spec (huncancelled : ∀ turn, monitor turn = false)
    (references : List (Reference Address)) (h : s.Matches search)
    (hnode : search.labels.distance node.entry = some node.depth)
    (hnear : ∀ a d, search.labels.distance a = some d → d ≤ node.depth + 1) :
    let called := references.filterMap (callSite program node.entry)
    let s' := Trace.followAll program range monitor node references s
    Follows range node called s s' ∧
      s'.Matches ((onward range called).foldl (Search.discover node.entry) search) := by
  induction references generalizing s search with
  | nil => exact ⟨⟨(List.append_nil _).symm, rfl, rfl⟩, h⟩
  | cons reference references ih =>
    have hpolled : ({ s with polls := s.polls + 1 } : Trace Address).Matches search :=
      ⟨h.queue, h.depth, h.depths⟩
    have hpolls : Follows range node [] s { s with polls := s.polls + 1 } :=
      ⟨(List.append_nil _).symm, rfl, rfl⟩
    simp only [Trace.followAll, huncancelled, Bool.false_eq_true, if_false]
    cases hcall : callSite program node.entry reference with
    | none =>
      rw [List.filterMap_cons_none hcall]
      obtain ⟨hfollows, hmatches⟩ := ih hpolled hnode hnear
      exact ⟨hpolls.trans hfollows, hmatches⟩
    | some call =>
      rw [List.filterMap_cons_some hcall]
      obtain ⟨hfirst, hmatched⟩ := follow_spec range hpolled hnode hnear call
      obtain ⟨hnode', hnear'⟩ := near_foldl_discover (onward range [call]) hnode hnear
      obtain ⟨hfollows, hmatches⟩ := ih hmatched hnode' hnear'
      refine ⟨hpolls.trans (hfirst.trans hfollows), ?_⟩
      rw [← List.foldl_append, onward, onward, ← List.map_append, ← List.filter_append] at hmatches
      exact hmatches

/-- The nodes that the search goes on from. -/
def gone (maxDepth : Int) (done : List (Node Address)) : List (Node Address) :=
  done.filter fun node => node.depth < maxDepth

/-- What holds between the turns of a search that nobody cancels, once the nodes `done` have been
taken from the queue. -/
structure Sound (program : Program Address) (range : CodeRange Address) (maxDepth : Int)
    (start : Address) (s : Trace Address) (search : Search Address) (done : List (Node Address)) :
    Prop where
  honest : s.Honest program range maxDepth start
  matched : s.Matches search
  layered : search.Layered (outward program range) start fun _ d => maxDepth.toNat ≤ d
  visited : search.Visited (done.map Node.entry)
  within : ∀ a d, search.labels.distance a = some d → d ≤ maxDepth.toNat
  nodup : (done.map Node.entry).Nodup
  leads : ∀ node ∈ done, Leads program range start node
  depths : ∀ node ∈ done, search.labels.distance node.entry = some node.depth
  lines : s.lines = (gone maxDepth done).flatMap (hits program range)
  edges : s.traversedEdges =
    ((gone maxDepth done).map fun node => (calls program node.entry).length).sum
  rangeHits : s.rangeHits = s.lines.length

theorem sound_initial (target : Callable Address) : (initial target).Sound program range maxDepth
    target.entryPoint (Search.initial target.entryPoint) [] where
  honest := honest_initial target
  matched := matches_initial target
  layered := Search.layered_initial
  visited := Search.visited_initial
  within a d ha := by
    simp only [Search.initial, Option.ite_none_right_eq_some, Option.some.injEq] at ha
    rw [← ha.2]
    exact Nat.zero_le _
  nodup := List.nodup_nil
  leads node hnode := absurd hnode List.not_mem_nil
  depths node hnode := absurd hnode List.not_mem_nil
  lines := rfl
  edges := rfl
  rangeHits := rfl

omit [LinearOrder Address] in
theorem gone_append (done : List (Node Address)) (node : Node Address) :
    gone maxDepth (done ++ [node]) =
      gone maxDepth done ++ if node.depth < maxDepth then [node] else [] := by
  rw [gone, List.filter_append, gone]
  congr 1
  split_ifs with hdepth
  · exact List.filter_cons_of_pos (decide_eq_true hdepth)
  · exact List.filter_cons_of_neg (by simpa using hdepth)

variable {done : List (Node Address)} {queue : List (Node Address)}

theorem Sound.front (h : s.Sound program range maxDepth start search done)
    (hqueue : s.queue = node :: queue) : search.queue = node.entry :: queue.map Node.entry := by
  rw [← h.matched.queue, hqueue]
  rfl

/-- What is known of the nodes that have been taken from the queue, with one more. -/
theorem Sound.taken (h : s.Sound program range maxDepth start search done)
    (hqueue : s.queue = node :: queue) :
    ((done ++ [node]).map Node.entry).Nodup ∧
      (∀ other ∈ done ++ [node], Leads program range start other) ∧
      (∀ other ∈ done ++ [node], search.labels.distance other.entry = some other.depth) ∧
      Search.Visited ((done ++ [node]).map Node.entry)
        ⟨search.labels, queue.map Node.entry⟩ := by
  have hmem : node ∈ s.queue := hqueue ▸ List.mem_cons_self
  have hfront := h.front hqueue
  have hvisited := h.visited.drop h.layered.nodup hfront
  rw [List.map_append, List.map_singleton]
  refine ⟨?_, ?_, ?_, hvisited⟩
  · refine List.nodup_append.mpr ⟨h.nodup, List.nodup_singleton _, fun a ha b hb hab => ?_⟩
    rw [List.mem_singleton.mp hb] at hab
    have happart := h.visited.apart a ha
    rw [hfront, hab] at happart
    exact happart List.mem_cons_self
  · intro other hother
    rcases List.mem_append.mp hother with hold | hlast
    · exact h.leads other hold
    · rw [List.mem_singleton.mp hlast]
      exact h.honest.leads node hmem
  · intro other hother
    rcases List.mem_append.mp hother with hold | hlast
    · exact h.depths other hold
    · rw [List.mem_singleton.mp hlast]
      exact h.matched.depths node hmem

/-- A node at the depth limit is left as it is. -/
theorem Sound.leave (h : s.Sound program range maxDepth start search done)
    (hqueue : s.queue = node :: queue) (hdeep : maxDepth ≤ node.depth) {polls : Nat}
    (hhonest : ({ s with queue := queue, polls := polls } : Trace Address).Honest program range
      maxDepth start) :
    ({ s with queue := queue, polls := polls } : Trace Address).Sound program range maxDepth start
      ⟨search.labels, queue.map Node.entry⟩ (done ++ [node]) := by
  obtain ⟨hnodup, hleads, hdepths, hvisited⟩ := h.taken hqueue
  have hgone : gone maxDepth (done ++ [node]) = gone maxDepth done := by
    rw [gone_append, if_neg (not_lt.mpr hdeep), List.append_nil]
  refine ⟨hhonest, ⟨rfl, h.matched.depth, fun other hmem =>
    h.matched.depths other (hqueue ▸ List.mem_cons_of_mem node hmem)⟩,
    h.layered.drop (h.front hqueue) fun d hd => .inl ?_, hvisited, h.within, hnodup, hleads, hdepths,
    ?_, ?_, h.rangeHits⟩
  · have hdepth := h.matched.depths node (hqueue ▸ List.mem_cons_self)
    rw [hdepth] at hd
    cases hd
    omega
  · rw [hgone]
    exact h.lines
  · rw [hgone]
    exact h.edges

/-- The search goes on from the node at the front of the queue. -/
theorem Sound.expand (h : s.Sound program range maxDepth start search done)
    (huncancelled : ∀ turn, monitor turn = false) (hqueue : s.queue = node :: queue)
    (hshallow : node.depth < maxDepth) {polls : Nat}
    (hhonest : (Trace.followAll program range monitor node (program.getReferencesTo node.entry)
      { s with queue := queue, polls := polls }).Honest program range maxDepth start) :
    (Trace.followAll program range monitor node (program.getReferencesTo node.entry)
      { s with queue := queue, polls := polls }).Sound program range maxDepth start
      ((outward program range node.entry).foldl (Search.discover node.entry)
        ⟨search.labels, queue.map Node.entry⟩) (done ++ [node]) := by
  obtain ⟨hnodup, hleads, hdepths, hvisited⟩ := h.taken hqueue
  have hfront := h.front hqueue
  have hnode := h.matched.depths node (hqueue ▸ List.mem_cons_self)
  have hnear : ∀ a d, search.labels.distance a = some d → d ≤ node.depth + 1 :=
    fun _ _ ha => h.layered.near hfront hnode ha
  have hrest : ({ s with queue := queue, polls := polls } : Trace Address).Matches
      ⟨search.labels, queue.map Node.entry⟩ := ⟨rfl, h.matched.depth, fun other hmem =>
    h.matched.depths other (hqueue ▸ List.mem_cons_of_mem node hmem)⟩
  obtain ⟨hfollows, hmatches⟩ := followAll_spec program range huncancelled
    (program.getReferencesTo node.entry) hrest hnode hnear
  have hnode' : (⟨search.labels, queue.map Node.entry⟩ : Search Address).labels.distance node.entry =
      some node.depth := hnode
  obtain ⟨new, hgrown⟩ := Search.grown_foldl_discover (outward program range node.entry) hnode'
  have hgone : gone maxDepth (done ++ [node]) = gone maxDepth done ++ [node] := by
    rw [gone_append, if_pos hshallow]
  refine ⟨hhonest, hmatches, h.layered.expand hfront, hvisited.grow hgrown ?_, ?_, hnodup, hleads, ?_,
    ?_, ?_, ?_⟩
  · have hnear := h.visited.near _ _ hnode
    rw [List.length_map] at hnear ⊢
    rw [List.length_append, List.length_singleton]
    omega
  · intro a d ha
    rcases hgrown.only a d ha with hold | hmem
    · exact h.within a d hold
    · have hsame := ha.symm.trans (hgrown.gains a hmem).2.2.1
      cases hsame
      omega
  · exact fun other hother => (hgrown.keeps _ _ (hdepths other hother)).1
  · rw [hgone, List.flatMap_append, List.flatMap_singleton, ← h.lines]
    exact hfollows.lines
  · rw [hgone, List.map_append, List.sum_append, List.map_singleton, List.sum_singleton, ← h.edges]
    exact hfollows.edges
  · rw [hfollows.rangeHits, hfollows.lines, List.length_append, List.length_map]
    exact congrArg (· + _) h.rangeHits

theorem Sound.turn (h : s.Sound program range maxDepth start search done)
    (huncancelled : ∀ turn, monitor turn = false)
    (hturn : turn program range monitor maxDepth s = some s') :
    ∃ search' done', s'.Sound program range maxDepth start search' done' := by
  have hhonest := h.honest.turn hturn
  obtain ⟨node, queue, hqueue, -, ⟨hdeep, rfl⟩ | ⟨hshallow, rfl⟩⟩ := turn_cases hturn
  · exact ⟨_, _, h.leave hqueue hdeep hhonest⟩
  · exact ⟨_, _, h.expand huncancelled hqueue hshallow hhonest⟩

theorem turn_eq_none (huncancelled : ∀ turn, monitor turn = false)
    (h : turn program range monitor maxDepth s = none) : s.queue = [] := by
  rw [Trace.turn] at h
  cases hqueue : s.queue with
  | nil => rfl
  | cons node queue =>
    rw [hqueue] at h
    simp only [huncancelled, Bool.false_eq_true, if_false] at h
    split_ifs at h

end Trace

open Trace

variable {target : Callable Address}

theorem trace_honest : (trace program range monitor maxDepth target).Honest program range maxDepth
    target.entryPoint :=
  (Trace.loop program range monitor maxDepth).finish_of_invariant
    (fun _ _ h hturn => h.turn hturn) (honest_initial target)

variable (program range maxDepth target) in
theorem trace_sound (huncancelled : ∀ turn, monitor turn = false) : ∃ search done,
    (trace program range monitor maxDepth target).Sound program range maxDepth target.entryPoint
      search done := by
  refine (Trace.loop program range monitor maxDepth).finish_of_invariant
    (P := fun s => ∃ search done, s.Sound program range maxDepth target.entryPoint search done) ?_
    ⟨_, _, sound_initial target⟩
  intro s s' hs hturn
  obtain ⟨search, done, hs⟩ := hs
  exact hs.turn huncancelled hturn

variable (program range maxDepth target) in
theorem queue_trace (huncancelled : ∀ turn, monitor turn = false) :
    (trace program range monitor maxDepth target).queue = [] :=
  turn_eq_none huncancelled ((Trace.loop program range monitor maxDepth).turn_finish _)

/-- Whenever the search is cancelled, a printed call is in the range, and its chain of calls leads
to the target within the depth. -/
theorem range_callsites_lead (program : Program Address) (range : CodeRange Address)
    (monitor : Monitor) (maxDepth : Int) (text : Address → String) (targetAddress : Address)
    {lines : List (Line Address)} (hrun : run program range monitor maxDepth text targetAddress =
      .ok lines) :
    ∃ target, program.getFunctionContaining targetAddress = some target ∧
      ∀ (site : Address) (depth : Nat) caller chain,
        .rangeCallsite site depth caller chain ∈ lines →
        range.Inside site ∧ depth ≤ maxDepth ∧
        ∃ entry path, (site, caller) ∈ calls program entry ∧
          IsPath (outward program range) target.entryPoint entry path ∧ path.length = depth ∧
          chain = site :: path.reverse := by
  rw [run] at hrun
  cases htarget : program.getFunctionContaining targetAddress with
  | none =>
    rw [htarget] at hrun
    cases hrun
  | some target =>
    rw [htarget] at hrun
    cases hrun
    refine ⟨target, rfl, fun site depth caller chain hmem => ?_⟩
    rcases List.mem_append.mp hmem with hline | hsummary
    · obtain ⟨node, hleads, hdepth, hhit⟩ := trace_honest.lines _ hline
      obtain ⟨call, hcall, hsame⟩ := List.mem_map.mp hhit
      obtain ⟨hcalls, hinside⟩ := List.mem_filter.mp hcall
      cases hsame
      refine ⟨of_decide_eq_true hinside, by omega, node.entry, node.chain.reverse, hcalls,
        hleads.path, ?_, by rw [List.reverse_reverse]⟩
      rw [List.length_reverse, hleads.length]
    · cases List.mem_singleton.mp hsummary

/-- A function at 10 is called at 21 and at 33, and the function at 20 is called at 35. -/
def twoCallers : Program Nat where
  getFunctionContaining address :=
    if address < 10 then none
    else if address < 20 then some ⟨10, "send"⟩
    else if address < 30 then some ⟨20, "flush"⟩
    else some ⟨30, "update"⟩
  getReferencesTo entry :=
    if entry = 10 then [⟨21, true⟩, ⟨33, true⟩, ⟨12, false⟩]
    else if entry = 20 then [⟨35, true⟩] else []

/-- The search is cancelled after the function at 20. -/
theorem range_callsites_lead_cancelled :
    ∃ entry path, (35, ⟨30, "update"⟩) ∈ calls twoCallers entry ∧
      IsPath (outward twoCallers ⟨34, 40⟩) 10 entry path ∧ path.length = 2 ∧
      [35, 20, 10] = 35 :: path.reverse := by
  have htrace : trace twoCallers ⟨34, 40⟩ (fun polls => polls = 6) 3 ⟨10, "send"⟩ =
      ⟨[⟨⟨30, "update"⟩, 1, [30, 10]⟩],
        (((∅ : Std.TreeMap Nat Nat).insert 10 0).insert 20 1).insert 30 1, 1, 3,
        [.rangeCallsite 35 2 ⟨30, "update"⟩ [35, 20, 10]], 6⟩ := StepLoop.finish_eq_after _ 2 rfl
  have hrun : run twoCallers ⟨34, 40⟩ (fun polls => polls = 6) 3 toString 12 =
      .ok [.rangeCallsite 35 2 ⟨30, "update"⟩ [35, 20, 10], .summary 10 3 3 3 1] := by
    change Except.ok ((trace twoCallers ⟨34, 40⟩ (fun polls => polls = 6) 3 ⟨10, "send"⟩).lines ++
      [_]) = _
    rw [htrace]
    rfl
  obtain ⟨target, htarget, hlead⟩ := range_callsites_lead twoCallers ⟨34, 40⟩ _ 3 toString 12 hrun
  cases htarget
  exact (hlead 35 2 ⟨30, "update"⟩ [35, 20, 10] List.mem_cons_self).2.2

end TraceIncoming
end Army3
