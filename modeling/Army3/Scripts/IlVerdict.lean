import Army3.Scripts.IlGraph

/-! What a trace says of the calls in the IL: which calls the names of the two scripts keep, and what
follows from a trace that does not find its target. -/

namespace Army3

namespace IlReachability
namespace MethodSearch

open ShortestPaths

variable {graph : CallGraph} {start target current : Int} {maxDepth : Nat} {s s' : MethodSearch}

/-- If nothing has been counted, nothing in the methods that have been gone through is unknown. -/
def Counted (graph : CallGraph) (s : MethodSearch) : Prop :=
  s.unknownEdges = 0 → ∀ m ∈ s.depth, m ∉ s.queue → graph.unresolved[m]?.getD 0 = 0

theorem counted_initial : (initial start).Counted graph := by
  intro _ m hm hout
  rcases Std.TreeMap.mem_insert.mp hm with hsame | hempty
  · rw [compare_eq_iff_eq.mp hsame] at hout
    exact absurd List.mem_cons_self hout
  · exact absurd hempty Std.TreeMap.not_mem_emptyc

theorem Counted.dequeue {queue : List Int} (h : s.Counted graph)
    (hqueue : s.queue = current :: queue) : (s.dequeue graph current queue).Counted graph := by
  intro hzero m hm hout
  have hsum : s.unknownEdges + graph.unresolved[current]?.getD 0 = 0 := hzero
  by_cases hcurrent : m = current
  · rw [hcurrent]
    omega
  · refine h (by omega) m hm ?_
    rw [hqueue, List.mem_cons]
    exact not_or.mpr ⟨hcurrent, hout⟩

theorem Counted.followEdge (h : s.Counted graph) (edge : Edge) :
    (followEdge current s edge).Counted graph := by
  rw [MethodSearch.followEdge]
  split_ifs with hknown
  · exact h
  · intro hzero m hm hout
    obtain ⟨hold, hnew⟩ := not_or.mp (mt List.mem_append.mpr hout)
    rcases Std.TreeMap.mem_insert.mp hm with hsame | hmem
    · rw [compare_eq_iff_eq.mp hsame] at hnew
      exact absurd List.mem_cons_self hnew
    · exact h hzero m hmem hold

theorem Counted.turn (h : s.Counted graph) (hturn : turn graph target maxDepth s = some s') :
    s'.Counted graph := by
  obtain ⟨current, queue, hqueue, hcases⟩ := turn_cases hturn
  have hleft := h.dequeue hqueue
  rcases hcases with ⟨-, rfl⟩ | ⟨-, -, ⟨-, rfl⟩ | ⟨-, rfl⟩⟩ | ⟨-, -, rfl⟩
  · exact hleft
  · exact hleft
  · exact hleft
  · exact List.foldlRecOn _ _ hleft fun s hs edge _ => hs.followEdge edge

theorem counted_search : (search graph maxDepth start target).Counted graph :=
  StepLoop.finish_of_invariant _ (fun _ _ h hturn => h.turn hturn) counted_initial

/-- What a search that has cut nothing off has gone through is closed under the calls. -/
theorem mem_of_calls (hmissed : target ∉ (search graph maxDepth start target).depth)
    (hlimited : (search graph maxDepth start target).limitedNodes = 0) {a b : Int}
    (ha : a ∈ (search graph maxDepth start target).depth) (hb : b ∈ graph.callees a) :
    b ∈ (search graph maxDepth start target).depth := by
  have hsound : (search graph maxDepth start target).Sound graph start target maxDepth :=
    search_sound
  have hqueue : (search graph maxDepth start target).queue = [] := queue_search
  generalize search graph maxDepth start target = s at *
  obtain ⟨n, hn⟩ := Option.isSome_iff_exists.mp (Std.TreeMap.mem_iff_isSome_getElem?.mp ha)
  have hother : a ≠ target := fun hsame => hmissed (hsame ▸ ha)
  by_cases hshallow : n < maxDepth
  · obtain ⟨m, hm, -⟩ := hsound.expanded hqueue hn hother hshallow n hn b hb
    exact Std.TreeMap.mem_iff_isSome_getElem?.mpr (Option.isSome_iff_exists.mpr ⟨m, hm⟩)
  · have hout : a ∉ s.queue := by
      rw [hqueue]
      exact List.not_mem_nil
    rw [CallGraph.callees, hsound.limited hlimited a n hn hout hother (not_lt.mp hshallow)] at hb
    cases hb

end MethodSearch
end IlReachability

namespace IlDump

open IlReachability

variable {a : Assembly} {table : OpcodeTable} {type : TypeDefinition} {method : MethodDefinition}
  {bytes : Bytes} {instruction : Instruction} {text : String} {token : Int}

theorem toList_lower (text : String) : (lower text).toList = text.toList.map Char.toLower :=
  String.toList_ofList

theorem lower_append (first second : String) :
    lower (first ++ second) = lower first ++ lower second := by
  apply String.toList_inj.mp
  simp only [toList_lower, String.toList_append, List.map_append]

theorem lower_append_inj {first second last : String} :
    lower (first ++ last) = lower (second ++ last) ↔ lower first = lower second := by
  rw [lower_append, lower_append, ← String.toList_inj, ← String.toList_inj, String.toList_append,
    String.toList_append, List.append_left_inj]

theorem mem_tokensByName : token ∈ (a.tokensByName text).getD [] ↔
    ∃ name, (name, token) ∈ a.methodNames ∧ lower name = lower text := by
  rw [Assembly.tokensByName]
  constructor
  · intro hmem
    cases hfound : (a.methodNames.foldl (Grouping.add nameKey Prod.snd)
        (∅ : Std.TreeMap String (List Int)))[lower text]? with
    | none =>
      rw [hfound] at hmem
      cases hmem
    | some tokens =>
      rw [hfound] at hmem
      obtain ⟨rfl, -⟩ := Grouping.getElem?_groups.mp hfound
      obtain ⟨⟨name, other⟩, hentry, hkey, rfl⟩ := Grouping.mem_group.mp hmem
      exact ⟨name, hentry, Option.some.inj hkey⟩
  · rintro ⟨name, hentry, hname⟩
    have hmem : token ∈ Grouping.group nameKey Prod.snd a.methodNames (lower text) :=
      Grouping.mem_group.mpr ⟨(name, token), hentry, congrArg some hname, rfl⟩
    have hfound := Grouping.getElem?_groups.mpr ⟨rfl, List.ne_nil_of_mem hmem⟩
    rw [hfound]
    exact hmem

theorem tokensByName_eq_none (h : ∀ entry ∈ a.methodNames, lower entry.1 ≠ lower text) :
    a.tokensByName text = none := by
  rw [Assembly.tokensByName, Option.eq_none_iff_forall_ne_some]
  intro tokens hfound
  obtain ⟨rfl, hne⟩ := Grouping.getElem?_groups.mp hfound
  obtain ⟨entry, hentry, hkey⟩ := (Grouping.group_ne_nil _).mp hne
  exact h entry hentry (Option.some.inj hkey)

/-- A type of its own in a namespace. -/
def TypeDefinition.Namespaced : TypeDefinition → Prop
  | .topLevel namespaceName _ => namespaceName ≠ ""
  | .nested _ _ _ => False

/-- The first script writes the name that the second one gives the method only for the methods of a
type of its own in a namespace. -/
theorem fullName_eq_iff (type : TypeDefinition) (name : String) :
    lower (getTypeName type ++ "::" ++ name) = lower (type.fullName ++ "::" ++ name) ↔
      type.Namespaced := by
  rw [lower_append_inj, lower_append_inj, TypeDefinition.fullName]
  cases type with
  | topLevel namespaceName typeName =>
    rw [getTypeName, TypeDefinition.Namespaced]
    split_ifs with hempty
    · exact iff_of_true rfl hempty
    · refine iff_of_false (fun hsame => ?_) hempty
      have hlength := congrArg (fun text => text.toList.length) hsame
      simp only [TypeDefinition.namespaceName, TypeDefinition.name, not_not.mp hempty, toList_lower,
        String.toList_append, List.length_map, List.length_append] at hlength
      have hdot : ".".toList.length = 1 := rfl
      omega
  | nested namespaceName typeName declaringType =>
    rw [getTypeName]
    refine iff_of_false (fun hsame => ?_) not_false
    have hlast := congrArg (fun text => text.toList.getLast?) (lower_append_inj.mp hsame)
    simp only [toList_lower, String.toList_append, List.map_append] at hlast
    have hplus : "+".toList.map Char.toLower = ['+'] := rfl
    have hdot : ".".toList.map Char.toLower = ['.'] := rfl
    rw [hplus, hdot, List.getLast?_concat, List.getLast?_concat] at hlast
    exact absurd hlast (by decide)

/-- The token stands for a method of the assembly, itself or specialized. -/
def Assembly.Denotes (a : Assembly) (token : Int) (method : MethodDefinition) : Prop :=
  (tokenKind token = 0x06 ∧ tokenRow token = method.row) ∨
    tokenKind token = 0x2B ∧ a.methodSpecification (tokenRow token) = .ok (.definition method.row)

/-- Nested types have no namespace of their own, and no name begins with a dot. -/
structure Assembly.WellNamed (a : Assembly) : Prop where
  nested : ∀ member ∈ a.members, ∀ namespaceName name declaringType,
    member.1 = .nested namespaceName name declaringType → namespaceName = ""
  dotless : ∀ entry ∈ a.methodNames, entry.1.toList.head? ≠ some '.'

theorem pairwise_owners (a : Assembly) :
    (a.members.map fun (type, method) => (method.token, type.fullName)).Pairwise
      fun first second => ¬ compare first.1 second.1 = .eq := by
  have hnodup := nodup_tokens a
  rw [List.map_map] at hnodup
  refine List.pairwise_map.mpr ((List.pairwise_map.mp hnodup).imp fun hne hsame => ?_)
  exact hne (compare_eq_iff_eq.mp hsame)

theorem resolveRow_definition (hmember : (type, method) ∈ a.members) :
    a.resolveRow (.definition method.row) = .ok (type.fullName ++ "::" ++ method.name) := by
  have howner : a.ownerByToken[method.token]? = some type.fullName :=
    Std.TreeMap.getElem?_ofList_of_mem (compare_eq_iff_eq.mpr rfl) (pairwise_owners a)
      (List.mem_map.mpr ⟨_, hmember, rfl⟩)
  rw [Assembly.resolveRow, a.named method (mem_types hmember)]
  change Except.ok (a.ownerByToken[method.token]?.getD "" ++ "::" ++ method.name) = _
  rw [howner, Option.getD_some]

theorem resolveMethodToken_of_denotes (hmember : (type, method) ∈ a.members)
    (h : a.Denotes token method) :
    a.resolveMethodToken token = .ok (type.fullName ++ "::" ++ method.name) := by
  rw [Assembly.resolveMethodToken]
  rcases h with ⟨hkind, hrow⟩ | ⟨hkind, hmethod⟩
  · rw [if_pos hkind, hrow]
    exact resolveRow_definition hmember
  · rw [hkind, if_neg (by decide), if_neg (by decide), if_pos rfl, hmethod]
    exact resolveRow_definition hmember

theorem calledName_of_denotes (hmember : (type, method) ∈ a.members)
    (hcall : instruction.opcode.name ∈ callOpcodes)
    (htoken : toInt32 bytes instruction.operand = .ok token) (h : a.Denotes token method) :
    a.calledName bytes instruction = some (type.fullName ++ "::" ++ method.name) :=
  calledName_eq_some.mpr ⟨hcall, token, htoken, resolveMethodToken_of_denotes hmember h⟩

theorem dot_of_toLower {c : Char} (h : c.toLower = '.') : c = '.' := by
  delta Char.toLower at h
  split_ifs at h with hupper
  · obtain ⟨hlow, hhigh⟩ := hupper
    have hlow' := UInt32.le_iff_toNat_le.mp hlow
    have hhigh' := UInt32.le_iff_toNat_le.mp hhigh
    have hval := congrArg (fun c => c.val.toNat) h
    simp only [UInt32.toNat_add] at hval
    have hfirst : 'A'.val.toNat = 65 := rfl
    have hlast : 'Z'.val.toNat = 90 := rfl
    have hstep : ('a'.val - 'A'.val).toNat = 32 := rfl
    have hdot : '.'.val.toNat = 46 := rfl
    omega
  · exact h

/-- Other types than those give names that begin with a dot. -/
theorem fullName_dot (hnamed : a.WellNamed) (hmember : (type, method) ∈ a.members)
    (h : ¬ type.Namespaced) : ∃ rest, (type.fullName ++ "::" ++ method.name).toList = '.' :: rest := by
  have hempty : type.namespaceName = "" := by
    cases type with
    | topLevel namespaceName name => exact not_not.mp h
    | nested namespaceName name declaringType =>
      exact hnamed.nested _ hmember namespaceName name declaringType rfl
  rw [TypeDefinition.fullName, hempty]
  simp only [String.toList_append]
  exact ⟨_, rfl⟩

/-- A call of a method of the assembly is kept if its type has a namespace of its own; otherwise it
is counted as not resolved. -/
theorem call_of_denotes (hmember : (type, method) ∈ a.members)
    (hcall : instruction.opcode.name ∈ callOpcodes)
    (htoken : toInt32 bytes instruction.operand = .ok token) (hdenotes : a.Denotes token method) :
    (type.Namespaced → ⟨method.token, "0x" ++ paddedHex 4 instruction.offset.value,
      instruction.opcode.name⟩ ∈ a.edgesOf bytes instruction) ∧
    (a.WellNamed → ¬ type.Namespaced →
      a.edgesOf bytes instruction = [] ∧ a.unresolvedAt bytes instruction = true) := by
  have hcalled := calledName_of_denotes hmember hcall htoken hdenotes
  rw [Assembly.edgesOf, Assembly.unresolvedAt, hcalled, Option.bind_some, Option.any_some]
  constructor
  · intro hnamespaced
    refine List.mem_map_of_mem (mem_tokensByName.mpr ⟨_, List.mem_map.mpr ⟨_, hmember, rfl⟩, ?_⟩)
    exact (fullName_eq_iff type method.name).mpr hnamespaced
  · intro hnamed hother
    obtain ⟨rest, hdot⟩ := fullName_dot hnamed hmember hother
    have hnone : a.tokensByName (type.fullName ++ "::" ++ method.name) = none := by
      refine tokensByName_eq_none fun entry hentry hsame => hnamed.dotless entry hentry ?_
      have hlist := congrArg String.toList hsame
      rw [toList_lower, toList_lower, hdot] at hlist
      cases hname : entry.1.toList with
      | nil =>
        rw [hname] at hlist
        cases hlist
      | cons c rest =>
        rw [hname, List.map_cons, List.map_cons] at hlist
        rw [List.head?_cons, dot_of_toLower (List.cons.inj hlist).1]
    rw [hnone, isUnknown, hnone, isLike, isLike, hdot]
    exact ⟨rfl, rfl⟩

/-- The method has a call instruction for the other one. -/
def DirectlyCalls (a : Assembly) (table : OpcodeTable) (caller callee : Int) : Prop :=
  ∃ type method bytes instructions instruction token type' method',
    (type, method) ∈ a.members ∧ method.token = caller ∧ method.body = some bytes ∧
    Decodes table bytes method.name (.ofInt 0) instructions ∧ instruction ∈ instructions ∧
    instruction.opcode.name ∈ callOpcodes ∧ toInt32 bytes instruction.operand = .ok token ∧
    (type', method') ∈ a.members ∧ method'.token = callee ∧ a.Denotes token method'

/-- The method has a call instruction for something of the name of the other one. -/
def CallsByName (a : Assembly) (table : OpcodeTable) (caller callee : Int) : Prop :=
  ∃ type method bytes instructions instruction text name,
    (type, method) ∈ a.members ∧ method.token = caller ∧ method.body = some bytes ∧
    Decodes table bytes method.name (.ofInt 0) instructions ∧ instruction ∈ instructions ∧
    a.calledName bytes instruction = some text ∧ (name, callee) ∈ a.methodNames ∧
    lower name = lower text

variable {graph : CallGraph} {nameByToken : Int → Option String} {maxDepth : Nat}
  {start target : Int} {lines : List Line} {rows : List Row} {csv : ImportCsv}

theorem prints_start (hprints : Prints graph nameByToken maxDepth start target (.ok lines))
    {found : Bool} {visited depth deepest limited unresolved : Nat}
    (hline : .start start target found visited depth deepest limited unresolved ∈ lines) :
    let s := search graph maxDepth start target
    found = decide (target ∈ s.depth) ∧ limited = s.limitedNodes ∧ unresolved = s.unknownEdges := by
  have hfirst : .start start target found visited depth deepest limited unresolved =
      startLine maxDepth start target (search graph maxDepth start target) := by
    obtain ⟨fuel, hlines⟩ := hprints
    simp only [startLines] at hlines
    split_ifs at hlines
    · obtain ⟨result, -, hresult⟩ := Option.map_eq_some_iff.mp hlines
      cases result with
      | error e => cases hresult
      | ok path =>
        cases hresult
        rcases List.mem_cons.mp hline with hstart | hpath
        · exact hstart
        · obtain ⟨current, -, hcurrent⟩ := List.mem_map.mp hpath
          cases hcurrent
    · cases hlines
      exact List.mem_singleton.mp hline
  rw [startLine, Line.start.injEq] at hfirst
  obtain ⟨-, -, hfound, -, -, -, hlimited, hunresolved⟩ := hfirst
  exact ⟨hfound, hlimited, hunresolved⟩

/-- An edge comes from a call instruction. -/
theorem callsByName_of_mem (hplain : a.PlainTexts table)
    (hdumped : Dumped a table (a.members.map Prod.snd) rows)
    (hgraph : buildGraph a.tokensByName (rows.map fun row => csv.row row.line) = .ok graph)
    {caller callee : Int} (h : callee ∈ graph.callees caller) : CallsByName a table caller callee := by
  obtain ⟨built, hbuilt, hbodies, hothers⟩ := graph_of_dumped csv hplain hdumped
  obtain rfl := Except.ok.inj (hgraph.symm.trans hbuilt)
  obtain ⟨edge, hedge, rfl⟩ := List.mem_map.mp h
  by_cases hbody : ∃ type method, (type, method) ∈ a.members ∧ method.body ≠ none ∧
      method.token = caller
  · obtain ⟨type, method, hmember, hbody, rfl⟩ := hbody
    obtain ⟨bytes, hbytes⟩ := Option.ne_none_iff_exists'.mp hbody
    obtain ⟨instructions, hdecodes⟩ := hdumped.decodes (List.mem_map_of_mem hmember) hbytes
    rw [(hbodies type method bytes instructions hmember hbytes hdecodes).1] at hedge
    obtain ⟨instruction, hinstruction, hedge⟩ := List.mem_flatMap.mp hedge
    obtain ⟨callee, hcallee, rfl⟩ := List.mem_map.mp hedge
    cases hcalled : a.calledName bytes instruction with
    | none =>
      rw [hcalled] at hcallee
      cases hcallee
    | some text =>
      rw [hcalled] at hcallee
      obtain ⟨name, hname, hlower⟩ := mem_tokensByName.mp hcallee
      exact ⟨type, method, bytes, instructions, instruction, text, name, hmember, rfl, hbytes,
        hdecodes, hinstruction, hcalled, hname, hlower⟩
  · rw [(hothers caller fun type method hmember hne hsame =>
      hbody ⟨type, method, hmember, hne, hsame⟩).1] at hedge
    cases hedge

/-- A direct call gives an edge, where everything that the caller calls is known. -/
theorem mem_callees_of_directlyCalls (hplain : a.PlainTexts table) (hnamed : a.WellNamed)
    (hdumped : Dumped a table (a.members.map Prod.snd) rows)
    (hgraph : buildGraph a.tokensByName (rows.map fun row => csv.row row.line) = .ok graph)
    {caller callee : Int} (h : DirectlyCalls a table caller callee)
    (hknown : graph.unresolved[caller]?.getD 0 = 0) : callee ∈ graph.callees caller := by
  obtain ⟨built, hbuilt, hbodies, -⟩ := graph_of_dumped csv hplain hdumped
  obtain rfl := Except.ok.inj (hgraph.symm.trans hbuilt)
  obtain ⟨type, method, bytes, instructions, instruction, token, type', method', hmember, rfl, hbody,
    hdecodes, hinstruction, hcall, htoken, hmember', rfl, hdenotes⟩ := h
  obtain ⟨hcalls, hunknown⟩ := hbodies type method bytes instructions hmember hbody hdecodes
  obtain ⟨hkept, hlost⟩ := call_of_denotes hmember' hcall htoken hdenotes
  have hnamespaced : type'.Namespaced := by
    by_contra hother
    rw [hknown] at hunknown
    exact List.countP_eq_zero.mp hunknown.symm instruction hinstruction (hlost hnamed hother).2
  have hedge : (⟨method'.token, "0x" ++ paddedHex 4 instruction.offset.value,
      instruction.opcode.name⟩ : Edge) ∈ graph.calls method.token := by
    rw [hcalls]
    exact List.mem_flatMap.mpr ⟨instruction, hinstruction, hkept hnamespaced⟩
  exact List.mem_map.mpr ⟨_, hedge, rfl⟩

theorem menuAssembly_wellNamed : menuAssembly.WellNamed where
  nested member hmember namespaceName name declaringType hnested := by
    have hall : ∀ member ∈ menuAssembly.members, member.1.namespaceName = "Game" := by decide
    have htop : ∀ member ∈ menuAssembly.members,
        member.1 = .topLevel member.1.namespaceName member.1.name := by decide
    have h := htop member hmember
    rw [hnested] at h
    cases h
  dotless := by decide

end IlDump
end Army3
