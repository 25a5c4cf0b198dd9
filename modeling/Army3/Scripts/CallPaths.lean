import Army3.Scripts.IlReachability

/-! What a call-graph trace says: it finds a method within the depth exactly if there is a path, and
prints a shortest one. -/

namespace Army3
namespace IlReachability

open ShortestPaths

section
variable {tokensByName : String → Option (List Int)} {graph graph' : CallGraph} {row : CallRow}
  {caller : Int} {edge : Edge}

/-- The row is a call from `caller`, and `edge` leads to one of the methods of the called name. -/
def CallRow.Gives (tokensByName : String → Option (List Int)) (row : CallRow) (caller : Int)
    (edge : Edge) : Prop :=
  callOpcodes.any (sameText row.opcode) = true ∧ convertToken row.methodToken = .ok caller ∧
    ∃ callees, tokensByName row.target = some callees ∧ edge.token ∈ callees ∧
      edge.offset = row.ilOffset ∧ edge.opcode = row.opcode

theorem getD_alter_append (edges : Std.TreeMap Int (List Edge)) (source caller : Int)
    (added : List Edge) :
    ((edges.alter source fun old => some (old.getD [] ++ added))[caller]?).getD [] =
      (edges[caller]?).getD [] ++ if source = caller then added else [] := by
  rw [Std.TreeMap.getElem?_alter]
  by_cases hsame : source = caller
  · rw [if_pos (compare_eq_iff_eq.mpr hsame), if_pos hsame, hsame, Option.getD_some]
  · rw [if_neg (mt compare_eq_iff_eq.mp hsame), if_neg hsame, List.append_nil]

theorem mem_calls_addRow (h : addRow tokensByName graph row = .ok graph') :
    edge ∈ graph'.calls caller ↔
      edge ∈ graph.calls caller ∨ row.Gives tokensByName caller edge := by
  rw [addRow] at h
  by_cases hcall : callOpcodes.any (sameText row.opcode) = true
  · rw [if_neg (not_not_intro hcall)] at h
    obtain ⟨source, hsource, h⟩ := Raising.except_bind_eq_ok.mp h
    cases hcallees : tokensByName row.target with
    | some callees =>
      rw [hcallees] at h
      cases h
      have hadded : edge ∈ callees.map (Edge.mk · row.ilOffset row.opcode) ↔
          edge.token ∈ callees ∧ edge.offset = row.ilOffset ∧ edge.opcode = row.opcode := by
        rw [List.mem_map]
        grind [Edge]
      rw [CallGraph.calls, getD_alter_append, List.mem_append, CallRow.Gives, hsource, hcallees]
      split_ifs with hsame
      · simp [hadded, hsame, hcall, CallGraph.calls]
      · simp [hsame, CallGraph.calls]
    | none =>
      have hkept := getD_alter_append graph.edges source caller []
      simp only [List.append_nil, ite_self] at hkept
      have hgives : ¬ row.Gives tokensByName caller edge := by
        rintro ⟨-, -, callees, hsome, -⟩
        rw [hcallees] at hsome
        cases hsome
      rw [hcallees] at h
      dsimp only at h
      rw [or_iff_left hgives, CallGraph.calls, CallGraph.calls, ← hkept]
      split_ifs at h <;> cases h <;> rfl
  · rw [if_pos hcall] at h
    cases h
    exact (or_iff_left fun hgives => hcall hgives.1).symm

/-- The graph has the calls of the rows and no others. -/
theorem mem_calls_buildGraph {rows : List CallRow}
    (h : buildGraph tokensByName rows = .ok graph) :
    edge ∈ graph.calls caller ↔ ∃ row ∈ rows, row.Gives tokensByName caller edge := by
  have hgathers := Raising.foldlM_gathers
    (fun graph : CallGraph => edge ∈ graph.calls caller)
    (fun row : CallRow => row.Gives tokensByName caller edge)
    (fun _ _ _ hrow => mem_calls_addRow hrow) h
  have hempty : edge ∉ (⟨∅, ∅⟩ : CallGraph).calls caller := by
    rw [CallGraph.calls, Std.TreeMap.getElem?_emptyc]
    exact List.not_mem_nil
  exact hgathers.trans (or_iff_right hempty)

/-- What has been checked when the search begins. -/
theorem setup_eq_ok {nameByToken : Int → Option String} {maxDepth : Nat} {rows : List CallRow}
    {startTokens : List String} {targetToken : String} {starts : List Int} {target : Int}
    (h : setup nameByToken maxDepth tokensByName rows startTokens targetToken =
      .ok (graph, starts, target)) :
    (1 ≤ maxDepth ∧ maxDepth ≤ 12) ∧ nameByToken target ≠ none ∧
      (∀ start ∈ starts, nameByToken start ≠ none) ∧ buildGraph tokensByName rows = .ok graph := by
  rw [setup] at h
  split_ifs at h with hdepth
  obtain ⟨found, -, h⟩ := Raising.except_bind_eq_ok.mp h
  split_ifs at h with hname
  obtain ⟨tokens, -, h⟩ := Raising.except_bind_eq_ok.mp h
  cases hmissing : tokens.find? fun start => nameByToken start = none with
  | some start =>
    rw [hmissing] at h
    cases h
  | none =>
    rw [hmissing] at h
    obtain ⟨built, hbuilt, h⟩ := Raising.except_bind_eq_ok.mp h
    cases h
    refine ⟨hdepth, hname, ?_, hbuilt⟩
    intro start hstart
    have hfound := List.find?_eq_none.mp hmissing start hstart
    simpa using hfound

end

namespace MethodSearch

/-- The two tables as labels. -/
def toSearch (s : MethodSearch) : Search Int :=
  ⟨⟨fun a => s.depth[a]?, fun a => s.previous[a]?.map Edge.token⟩, s.queue⟩

variable {graph : CallGraph} {start target current : Int} {maxDepth : Nat} {queue : List Int}
  {s s' : MethodSearch}

theorem toSearch_followEdge (hcurrent : (s.depth[current]?).isSome) (edge : Edge) :
    (followEdge current s edge).toSearch = s.toSearch.discover current edge.token := by
  obtain ⟨d, hd⟩ := Option.isSome_iff_exists.mp hcurrent
  rw [followEdge]
  by_cases hknown : edge.token ∈ s.depth
  · have hlabelled : (s.toSearch.labels.distance edge.token).isSome :=
      Std.TreeMap.mem_iff_isSome_getElem?.mp hknown
    rw [if_pos hknown, Search.discover_of_labelled hlabelled]
  · have hnew : ¬ (s.toSearch.labels.distance edge.token).isSome :=
      mt Std.TreeMap.mem_iff_isSome_getElem?.mpr hknown
    rw [if_neg hknown, Search.discover, if_neg hnew]
    have hdistance : (fun a => (s.depth.insert edge.token (s.depth[current]?.getD 0 + 1))[a]?) =
        Function.update (fun a => s.depth[a]?) edge.token (s.depth[current]?.map (· + 1)) := by
      rw [hd]
      exact read_insert (fun found => found) s.depth edge.token (d + 1)
    have hparent := read_insert (Option.map Edge.token) s.previous edge.token
      ⟨current, edge.offset, edge.opcode⟩
    simp only [toSearch, hdistance, hparent]
    rfl

theorem toSearch_foldl_followEdge (hcurrent : (s.depth[current]?).isSome) (edges : List Edge) :
    (edges.foldl (followEdge current) s).toSearch =
      (edges.map Edge.token).foldl (Search.discover current) s.toSearch := by
  induction edges generalizing s with
  | nil => rfl
  | cons edge edges ih =>
    have hstep := toSearch_followEdge hcurrent edge
    have hstill : ((followEdge current s edge).depth[current]?).isSome := by
      have hlabel := Search.isSome_discover (s := s.toSearch) (b := edge.token) hcurrent hcurrent
      rw [← hstep] at hlabel
      exact hlabel
    rw [List.foldl_cons, List.map_cons, List.foldl_cons, ← hstep]
    exact ih hstill

theorem limitedNodes_foldl_followEdge (current : Int) (s : MethodSearch) (edges : List Edge) :
    (edges.foldl (followEdge current) s).limitedNodes = s.limitedNodes := by
  induction edges generalizing s with
  | nil => rfl
  | cons edge edges ih =>
    rw [List.foldl_cons, ih, followEdge]
    split_ifs <;> rfl

/-- Every entry of `$previous` is an edge of the graph. -/
def FromCalls (graph : CallGraph) (previous : Std.TreeMap Int Edge) : Prop :=
  ∀ a via, previous[a]? = some via → ∃ edge ∈ graph.calls via.token,
    edge.token = a ∧ edge.offset = via.offset ∧ edge.opcode = via.opcode

theorem fromCalls_foldl_followEdge (edges : List Edge) (h : FromCalls graph s.previous)
    (hedges : ∀ edge ∈ edges, edge ∈ graph.calls current) :
    FromCalls graph (edges.foldl (followEdge current) s).previous := by
  induction edges generalizing s with
  | nil => exact h
  | cons edge edges ih =>
    refine ih ?_ fun other hmem => hedges other (List.mem_cons_of_mem edge hmem)
    rw [followEdge]
    split_ifs with hknown
    · exact h
    · intro a via hvia
      dsimp only at hvia
      rw [Std.TreeMap.getElem?_insert] at hvia
      by_cases ha : edge.token = a
      · rw [if_pos (compare_eq_iff_eq.mpr ha), Option.some.injEq] at hvia
        rw [← hvia]
        exact ⟨edge, hedges edge List.mem_cons_self, ha, rfl, rfl⟩
      · rw [if_neg (mt compare_eq_iff_eq.mp ha)] at hvia
        exact h a via hvia

/-- What holds between the turns. The target and the methods at the depth limit are not gone on
from, and `limitedNodes` counts those of the latter that have calls. -/
structure Sound (graph : CallGraph) (start target : Int) (maxDepth : Nat) (s : MethodSearch) :
    Prop where
  layered : s.toSearch.Layered graph.callees start fun a d => a = target ∨ maxDepth ≤ d
  within : ∀ (a : Int) d, s.depth[a]? = some d → d ≤ maxDepth
  limited : s.limitedNodes = 0 → ∀ (a : Int) d, s.depth[a]? = some d → a ∉ s.queue → a ≠ target →
    maxDepth ≤ d → graph.calls a = []
  via : FromCalls graph s.previous

theorem toSearch_initial : (initial start).toSearch = Search.initial start := by
  have hdepth : (fun a : Int => ((∅ : Std.TreeMap Int Nat).insert start 0)[a]?) =
      fun a => if a = start then some 0 else none := by
    funext a
    rw [Std.TreeMap.getElem?_insert, Std.TreeMap.getElem?_emptyc]
    by_cases ha : a = start
    · rw [if_pos ha, if_pos (compare_eq_iff_eq.mpr ha.symm)]
    · rw [if_neg ha, if_neg (mt compare_eq_iff_eq.mp (Ne.symm ha))]
  have hprevious : (fun a : Int => ((∅ : Std.TreeMap Int Edge)[a]?).map Edge.token) =
      fun _ => none := by
    funext a
    rw [Std.TreeMap.getElem?_emptyc]
    rfl
  simp only [toSearch, initial, Search.initial, hdepth, hprevious]

theorem sound_initial : (initial start).Sound graph start target maxDepth where
  layered := toSearch_initial ▸ Search.layered_initial
  within a d hd := by
    have hlabel : (initial start).toSearch.labels.distance a = some d := hd
    rw [toSearch_initial] at hlabel
    simp only [Search.initial, Option.ite_none_right_eq_some, Option.some.injEq] at hlabel
    rw [← hlabel.2]
    exact Nat.zero_le maxDepth
  limited _ a d hd hout := by
    have hlabel : (initial start).toSearch.labels.distance a = some d := hd
    rw [toSearch_initial] at hlabel
    simp only [Search.initial, Option.ite_none_right_eq_some] at hlabel
    exact absurd (List.mem_singleton.mpr hlabel.1) hout
  via a via hvia := by
    rw [initial, Std.TreeMap.getElem?_emptyc] at hvia
    cases hvia

theorem Sound.depth_current (h : s.Sound graph start target maxDepth)
    (hqueue : s.queue = current :: queue) : ∃ d, s.depth[current]? = some d := by
  have hmem : current ∈ s.toSearch.queue := by
    change current ∈ s.queue
    rw [hqueue]
    exact List.mem_cons_self
  exact h.layered.labelled hmem

/-- The method at the front of the queue is not gone on from. -/
theorem Sound.leave (h : s.Sound graph start target maxDepth) (hqueue : s.queue = current :: queue)
    (hleft : ∀ d, s.depth[current]? = some d → current = target ∨ maxDepth ≤ d)
    {unknownEdges limitedNodes : Nat} (hlimited : limitedNodes = 0 → s.limitedNodes = 0 ∧
      (current ≠ target → graph.calls current = [])) :
    (⟨queue, s.depth, s.previous, unknownEdges, limitedNodes⟩ : MethodSearch).Sound
      graph start target maxDepth where
  layered := h.layered.drop hqueue fun d hd => .inl (hleft d hd)
  within := h.within
  limited hzero a d hd hout hother hdeep := by
    obtain ⟨hbefore, hcurrent⟩ := hlimited hzero
    by_cases ha : a = current
    · rw [ha] at hother ⊢
      exact hcurrent hother
    · refine h.limited hbefore a d hd ?_ hother hdeep
      rw [hqueue, List.mem_cons]
      exact fun hmem => hmem.elim ha hout
  via := h.via

/-- The search goes on from the method at the front of the queue. -/
theorem Sound.expand (h : s.Sound graph start target maxDepth) (hqueue : s.queue = current :: queue)
    (hshallow : s.depth[current]?.getD 0 < maxDepth) :
    ((graph.calls current).foldl (followEdge current) (s.dequeue graph current queue)).Sound
      graph start target maxDepth := by
  obtain ⟨n, hn⟩ := h.depth_current hqueue
  have hsome : ((s.dequeue graph current queue).depth[current]?).isSome := by
    change (s.depth[current]?).isSome
    rw [hn]
    rfl
  have hsearch : ((graph.calls current).foldl (followEdge current)
      (s.dequeue graph current queue)).toSearch =
      (graph.callees current).foldl (Search.discover current)
        (s.dequeue graph current queue).toSearch :=
    toSearch_foldl_followEdge hsome (graph.calls current)
  have hlabel : (s.dequeue graph current queue).toSearch.labels.distance current = some n := hn
  obtain ⟨new, hgrown⟩ := Search.grown_foldl_discover (graph.callees current) hlabel
  have hlayered := h.layered.expand hqueue
  change ((graph.callees current).foldl (Search.discover current)
    (s.dequeue graph current queue).toSearch).Layered _ _ _ at hlayered
  have hlimited := limitedNodes_foldl_followEdge current (s.dequeue graph current queue)
    (graph.calls current)
  have hvia : FromCalls graph ((graph.calls current).foldl (followEdge current)
      (s.dequeue graph current queue)).previous :=
    fromCalls_foldl_followEdge (graph.calls current) h.via fun _ hmem => hmem
  rw [hn, Option.getD_some] at hshallow
  rw [← hsearch] at hgrown hlayered
  generalize (graph.calls current).foldl (followEdge current) (s.dequeue graph current queue) = s'
    at *
  have hsplit : s'.queue = queue ++ new := hgrown.queue
  have hknown : ∀ (a : Int) d, s'.depth[a]? = some d → s.depth[a]? = some d ∨ a ∈ new :=
    hgrown.only
  refine ⟨hlayered, fun a d hd => ?_, fun hzero a d hd hout hother hdeep => ?_, hvia⟩
  · rcases hknown a d hd with hold | hmem
    · exact h.within a d hold
    · have hsame := hd.symm.trans (hgrown.gains a hmem).2.2.1
      cases hsame
      exact hshallow
  · rw [hsplit, List.mem_append, not_or] at hout
    have hold := (hknown a d hd).resolve_right hout.2
    have hne : a ≠ current := by
      rintro rfl
      rw [hn] at hold
      cases hold
      omega
    refine h.limited (hlimited ▸ hzero) a d hold ?_ hother hdeep
    rw [hqueue, List.mem_cons]
    exact fun hmem => hmem.elim hne hout.1

theorem Sound.turn (h : s.Sound graph start target maxDepth)
    (hturn : turn graph target maxDepth s = some s') : s'.Sound graph start target maxDepth := by
  obtain ⟨current, queue, hqueue, hcases⟩ := turn_cases hturn
  obtain ⟨n, hn⟩ := h.depth_current hqueue
  rcases hcases with ⟨htarget, rfl⟩ | ⟨-, hdeep, hlast⟩ | ⟨-, hshallow, rfl⟩
  · exact h.leave hqueue (fun _ _ => .inl htarget) fun hzero =>
      ⟨hzero, fun hother => absurd htarget hother⟩
  · have hleft : ∀ d, s.depth[current]? = some d → current = target ∨ maxDepth ≤ d := by
      intro d hd
      rw [hd] at hdeep
      exact .inr hdeep
    rcases hlast with ⟨-, rfl⟩ | ⟨hnone, rfl⟩
    · exact h.leave hqueue hleft fun hzero => absurd hzero (Nat.succ_ne_zero _)
    · exact h.leave hqueue hleft fun hzero => ⟨hzero, fun _ => hnone⟩
  · exact h.expand hqueue hshallow

theorem turn_eq_none (h : turn graph target maxDepth s = none) : s.queue = [] := by
  simp only [MethodSearch.turn] at h
  cases hqueue : s.queue with
  | nil => rfl
  | cons current queue =>
    rw [hqueue] at h
    dsimp only at h
    split_ifs at h

end MethodSearch

open MethodSearch

variable {graph : CallGraph} {nameByToken : Int → Option String} {start target : Int}
  {maxDepth : Nat} {s : MethodSearch}

theorem search_sound :
    (search graph maxDepth start target).Sound graph start target maxDepth :=
  StepLoop.finish_of_invariant _ (fun _ _ h hturn => h.turn hturn) MethodSearch.sound_initial

theorem queue_search : (search graph maxDepth start target).queue = [] :=
  MethodSearch.turn_eq_none (StepLoop.turn_finish (MethodSearch.loop graph target maxDepth)
    (MethodSearch.initial start))

/-- With an empty queue the search has gone on from every method but the target and those at the
depth limit. -/
theorem MethodSearch.Sound.expanded (h : s.Sound graph start target maxDepth)
    (hqueue : s.queue = []) {a : Int} {n : Nat} (ha : s.depth[a]? = some n) (hother : a ≠ target)
    (hshallow : n < maxDepth) : s.toSearch.labels.Expanded graph.callees a := by
  have hout : a ∉ s.toSearch.queue := by
    change a ∉ s.queue
    rw [hqueue]
    exact List.not_mem_nil
  refine (h.layered.expanded a n ha hout).resolve_left fun hskips => ?_
  rcases hskips with htarget | hdeep
  · exact hother htarget
  · omega

theorem MethodSearch.Sound.isShortest (h : s.Sound graph start target maxDepth)
    (hqueue : s.queue = []) {n : Nat} (hn : s.depth[target]? = some n) :
    IsShortest graph.callees start target (climb s.toSearch.labels.parent n target).reverse :=
  h.layered.tree.isShortest_climb hn fun _ _ ha hm hne =>
    h.expanded hqueue ha hne (hm.trans_le (h.within target n hn))

theorem MethodSearch.Sound.found_of_isPath (h : s.Sound graph start target maxDepth)
    (hqueue : s.queue = []) {path : List Int} (hpath : IsPath graph.callees start target path)
    (hlength : path.length ≤ maxDepth + 1) : target ∈ s.depth := by
  have hexpanded : ∀ a n, s.toSearch.labels.distance a = some n → n < maxDepth → a ≠ target →
      s.toSearch.labels.Expanded graph.callees a :=
    fun a n ha hm hne => h.expanded hqueue ha hne hm
  have hnear := Labels.distance_of_isPath hexpanded h.layered.tree.distance_start hpath (by omega)
  obtain ⟨m, hm, -⟩ := hnear.elim id id
  exact Std.TreeMap.mem_iff_isSome_getElem?.mpr (Option.isSome_iff_exists.mpr ⟨m, hm⟩)

/-- If no method has been cut off, the search has gone on from every method. -/
theorem MethodSearch.Sound.no_path (h : s.Sound graph start target maxDepth)
    (hqueue : s.queue = []) (hmissed : target ∉ s.depth) (hlimited : s.limitedNodes = 0)
    (path : List Int) : ¬ IsPath graph.callees start target path := by
  have hunknown : s.toSearch.labels.distance target = none := by
    refine Option.not_isSome_iff_eq_none.mp fun hsome => ?_
    exact hmissed (Std.TreeMap.mem_iff_isSome_getElem?.mpr hsome)
  refine Labels.not_isPath h.layered.tree.distance_start hunknown fun a n ha => ?_
  have hother : a ≠ target := by
    rintro rfl
    rw [hunknown] at ha
    cases ha
  by_cases hshallow : n < maxDepth
  · exact h.expanded hqueue ha hother hshallow
  · have hout : a ∉ s.queue := by
      rw [hqueue]
      exact List.not_mem_nil
    have hnone : graph.callees a = [] := by
      rw [CallGraph.callees, h.limited hlimited a n ha hout hother (not_lt.mp hshallow)]
      rfl
    intro m _ b hb
    rw [hnone] at hb
    cases hb

/-- The loop back along `$previous` ends at the start. -/
theorem MethodSearch.Sound.ends_pathTurn (h : s.Sound graph start target maxDepth) {a : Int}
    {n : Nat} (ha : s.depth[a]? = some n) : WhileLoop.Ends (pathTurn s.previous start) (some a)
      (.ok (climb s.toSearch.labels.parent n a)) := by
  have htree := h.layered.tree
  induction n generalizing a with
  | zero =>
    rw [htree.eq_start a ha, climb]
    have hturn : pathTurn s.previous start (some start) = .ok (some (start, none)) := if_pos rfl
    exact WhileLoop.ends_of_next hturn (WhileLoop.ends_of_over rfl)
  | succ n ih =>
    obtain ⟨before, hparent, hbefore, -⟩ := htree.link a n ha
    have hother : a ≠ start := by
      rintro rfl
      have hsame := ha.symm.trans htree.distance_start
      cases hsame
    obtain ⟨via, hvia, htoken⟩ := Option.map_eq_some_iff.mp hparent
    have hturn : pathTurn s.previous start (some a) = .ok (some (a, some before)) := by
      rw [pathTurn, if_neg hother, hvia, ← htoken]
    rw [climb_succ hparent]
    exact WhileLoop.ends_of_next hturn (ih hbefore)

theorem prints_of_mem {trail : List Int}
    (hfound : target ∈ (search graph maxDepth start target).depth)
    (htrail : WhileLoop.Ends (pathTurn (search graph maxDepth start target).previous start)
      (some target) (.ok trail)) :
    Prints graph nameByToken maxDepth start target
      (.ok (startLine maxDepth start target (search graph maxDepth start target) ::
        trail.reverse.map
          (pathLine nameByToken (search graph maxDepth start target).previous start))) := by
  obtain ⟨fuel, hrun⟩ := htrail
  refine ⟨fuel, ?_⟩
  simp only [startLines]
  rw [if_neg (not_not_intro hfound), hrun]
  rfl

theorem prints_of_notMem (hmissed : target ∉ (search graph maxDepth start target).depth) :
    Prints graph nameByToken maxDepth start target
      (.ok [startLine maxDepth start target (search graph maxDepth start target)]) := by
  refine ⟨0, ?_⟩
  simp only [startLines]
  rw [if_pos hmissed]

/-- A printed call is one of the graph, from the method before it on the path. -/
theorem MethodSearch.Sound.call_of_mem (h : s.Sound graph start target maxDepth) {n : Nat}
    (hn : s.depth[target]? = some n) {token : Int} {name opcode offset : String}
    (hline : .path token name (some (opcode, offset)) ∈
      (climb s.toSearch.labels.parent n target).reverse.map
        (pathLine nameByToken s.previous start)) :
    ∃ caller, [caller, token] <:+: (climb s.toSearch.labels.parent n target).reverse ∧
      ⟨token, offset, opcode⟩ ∈ graph.calls caller := by
  obtain ⟨current, hmem, hshown⟩ := List.mem_map.mp hline
  rw [pathLine, Line.path.injEq] at hshown
  obtain ⟨rfl, -, hcall⟩ := hshown
  split_ifs at hcall with hstart
  obtain ⟨via, hvia, hpair⟩ := Option.map_eq_some_iff.mp hcall
  cases hpair
  obtain ⟨edge, hedge, htoken, hoffset, hopcode⟩ := h.via current via hvia
  refine ⟨via.token, ?_, ?_⟩
  · have hparent : s.toSearch.labels.parent current = some via.token :=
      Option.map_eq_some_iff.mpr ⟨via, hvia, rfl⟩
    have hinfix := h.layered.tree.parent_infix_climb hn (List.mem_reverse.mp hmem) hparent
    exact List.reverse_infix.mpr hinfix
  · rw [← htoken, ← hoffset, ← hopcode]
    exact hedge

/-- The search is right for every call graph, every start, target and depth: it finds the target
exactly if a path of at most so many calls leads there, it prints a shortest path with the calls of
the graph, and if it does not find the target and has cut nothing off, there is no path. -/
theorem search_correct (graph : CallGraph) (nameByToken : Int → Option String)
    (start target : Int) (maxDepth : Nat) :
    ∃ s rest, s = search graph maxDepth start target ∧
      Prints graph nameByToken maxDepth start target
        (.ok (startLine maxDepth start target s :: rest)) ∧
      (target ∈ s.depth ↔
        ∃ path, IsPath graph.callees start target path ∧ path.length ≤ maxDepth + 1) ∧
      (target ∈ s.depth → ∃ path, IsShortest graph.callees start target path ∧
        rest = path.map (pathLine nameByToken s.previous start) ∧
        ∀ token name opcode offset, .path token name (some (opcode, offset)) ∈ rest →
          ∃ caller, [caller, token] <:+: path ∧ ⟨token, offset, opcode⟩ ∈ graph.calls caller) ∧
      (target ∉ s.depth → s.limitedNodes = 0 →
        ∀ path, ¬ IsPath graph.callees start target path) := by
  have hsound : (search graph maxDepth start target).Sound graph start target maxDepth :=
    search_sound
  have hqueue : (search graph maxDepth start target).queue = [] := queue_search
  by_cases hfound : target ∈ (search graph maxDepth start target).depth
  · obtain ⟨n, hn⟩ := Option.isSome_iff_exists.mp (Std.TreeMap.mem_iff_isSome_getElem?.mp hfound)
    have hshortest := hsound.isShortest hqueue hn
    have hlength : (climb (search graph maxDepth start target).toSearch.labels.parent n
        target).length = n + 1 := hsound.layered.tree.length_climb hn
    have hwithin := hsound.within target n hn
    refine ⟨_, _, rfl, prints_of_mem hfound (hsound.ends_pathTurn hn),
      iff_of_true hfound ⟨_, hshortest.1, ?_⟩, fun _ => ⟨_, hshortest, rfl,
        fun token name opcode offset => hsound.call_of_mem hn⟩,
      fun hmissed => absurd hfound hmissed⟩
    rw [List.length_reverse, hlength]
    omega
  · refine ⟨_, [], rfl, prints_of_notMem hfound, iff_of_false hfound ?_,
      fun hmem => absurd hmem hfound, fun _ => hsound.no_path hqueue hfound⟩
    intro hpath
    obtain ⟨path, hpath, hlength⟩ := hpath
    exact hfound (hsound.found_of_isPath hqueue hpath hlength)

theorem startLines_of_le {fuel more : Nat} {result : Except ScanError (List Line)}
    (h : startLines graph nameByToken maxDepth fuel start target = some result)
    (hle : fuel ≤ more) :
    startLines graph nameByToken maxDepth more start target = some result := by
  simp only [startLines] at h ⊢
  by_cases hmissed : target ∉ (search graph maxDepth start target).depth
  · rw [if_pos hmissed] at h ⊢
    exact h
  · rw [if_neg hmissed] at h ⊢
    obtain ⟨trail, hrun, hresult⟩ := Option.map_eq_some_iff.mp h
    rw [WhileLoop.run_of_le hrun hle, Option.map_some, hresult]

variable (graph nameByToken start target maxDepth) in
theorem prints_block : ∃ block, Prints graph nameByToken maxDepth start target (.ok block) := by
  by_cases hfound : target ∈ (search graph maxDepth start target).depth
  · obtain ⟨n, hn⟩ := Option.isSome_iff_exists.mp (Std.TreeMap.mem_iff_isSome_getElem?.mp hfound)
    exact ⟨_, prints_of_mem hfound (search_sound.ends_pathTurn hn)⟩
  · exact ⟨_, prints_of_notMem hfound⟩

/-- After its setup the script does not fail: it prints what belongs to each start, in order. -/
theorem allLines_ok (graph : CallGraph) (nameByToken : Int → Option String) (maxDepth : Nat)
    (target : Int) (starts : List Int) :
    ∃ blocks : List (List Line),
      List.Forall₂ (fun start block =>
        Prints graph nameByToken maxDepth start target (.ok block)) starts blocks ∧
      ∃ fuel, ∀ more, fuel ≤ more →
        allLines graph nameByToken maxDepth more target starts = some (.ok blocks.flatten) := by
  induction starts with
  | nil => exact ⟨[], .nil, 0, fun _ _ => rfl⟩
  | cons start starts ih =>
    obtain ⟨blocks, hblocks, later, hlater⟩ := ih
    obtain ⟨block, first, hfirst⟩ := prints_block graph nameByToken start target maxDepth
    refine ⟨block :: blocks, .cons ⟨first, hfirst⟩ hblocks, max first later, fun more hmore => ?_⟩
    have hstart := startLines_of_le hfirst ((Nat.le_max_left first later).trans hmore)
    rw [allLines, hstart]
    dsimp only
    rw [hlater more ((Nat.le_max_right first later).trans hmore)]
    rfl

end IlReachability
end Army3
