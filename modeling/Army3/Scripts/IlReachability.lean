import Army3.Framework.ShortestPaths
import Army3.Framework.StepLoop
import Army3.Scripts.IlScan
import Mathlib.Data.Finset.Card

/-! `trace-il-reachability.ps1`: which methods lead to a method, by calls found in the IL. -/

namespace Army3
namespace IlReachability

/-- A row of the calls file, as far as it is used. -/
structure CallRow where
  opcode : String
  methodToken : String
  target : String
  ilOffset : String
  deriving DecidableEq, Repr

/-- A call: in `$edges` with the token of the callee, in `$previous` with that of the caller. -/
structure Edge where
  token : Int
  offset : String
  opcode : String
  deriving DecidableEq, Repr

/-- `$edges` and `$unresolved`. -/
structure CallGraph where
  edges : Std.TreeMap Int (List Edge)
  unresolved : Std.TreeMap Int Nat

/-- A printed line. A `PATH` line shows the call that leads to its method, if there is one. -/
inductive Line where
  | start (start target : Int) (found : Bool) (visited maxDepth deepest limitedNodes
      unresolvedEvents : Nat)
  | path (token : Int) (name : String) (via : Option (String × String))
  deriving DecidableEq, Repr

def isHexDigit (c : Char) : Bool :=
  c.isDigit || ('a' ≤ c.toLower && c.toLower ≤ 'f')

def hexDigitValue (c : Char) : Nat :=
  if c.isDigit then c.toNat - 48 else c.toLower.toNat - 87

/-- `Convert-Token`. The `$` of its pattern also stands before a last line feed, which
`ToInt32` refuses. -/
def convertToken (value : String) : Except ScanError Int :=
  let start := value.toList.take 2
  let digits := (value.toList.drop 2).take 8
  let rest := value.toList.drop 10
  if (start = ['0', 'x'] ∨ start = ['0', 'X']) ∧ digits.length = 8 ∧ digits.all isHexDigit ∧
      (rest = [] ∨ rest = ['\n']) then
    if rest = [] then
      .ok (LittleEndian.signed 32 (digits.foldl (fun n c => 16 * n + hexDigitValue c) 0))
    else .error .format
  else .error (.thrown ("Expected method token in 0x06000000 format: " ++ value))

/-- `-eq` on strings, which are ASCII here. -/
def sameText (a b : String) : Bool := a.toList.map Char.toLower = b.toList.map Char.toLower

/-- `-like` with a pattern that ends in its only star. -/
def isLike (value start : String) : Bool :=
  (start.toList.map Char.toLower).isPrefixOf (value.toList.map Char.toLower)

def callOpcodes : List String := ["call", "callvirt", "newobj", "ldftn", "ldvirtftn"]

/-- One row of the calls file. -/
def addRow (tokensByName : String → Option (List Int)) (graph : CallGraph) (row : CallRow) :
    Except ScanError CallGraph := do
  if ¬ callOpcodes.any (sameText row.opcode) then .ok graph
  else
    let caller ← convertToken row.methodToken
    match tokensByName row.target with
    | some callees =>
      let called := callees.map fun callee => Edge.mk callee row.ilOffset row.opcode
      .ok { graph with edges := graph.edges.alter caller fun old => some (old.getD [] ++ called) }
    | none =>
      let edges := graph.edges.alter caller fun old => some (old.getD [])
      if ¬ isLike row.target "System." ∧ ¬ isLike row.target "UnityEngine." then
        .ok ⟨edges, graph.unresolved.alter caller fun old => some (old.getD 0 + 1)⟩
      else .ok { graph with edges := edges }

def buildGraph (tokensByName : String → Option (List Int)) (rows : List CallRow) :
    Except ScanError CallGraph :=
  rows.foldlM (addRow tokensByName) ⟨∅, ∅⟩

/-- The calls of a method, none if it has no entry in `$edges`. -/
def CallGraph.calls (graph : CallGraph) (caller : Int) : List Edge := graph.edges[caller]?.getD []

def CallGraph.callees (graph : CallGraph) (caller : Int) : List Int :=
  (graph.calls caller).map Edge.token

/-- The state of the search from one method. -/
structure MethodSearch where
  queue : List Int
  depth : Std.TreeMap Int Nat
  previous : Std.TreeMap Int Edge
  unknownEdges : Nat
  limitedNodes : Nat

namespace MethodSearch

def initial (start : Int) : MethodSearch :=
  ⟨[start], (∅ : Std.TreeMap Int Nat).insert start 0, ∅, 0, 0⟩

/-- One edge of the current method. -/
def followEdge (current : Int) (s : MethodSearch) (edge : Edge) : MethodSearch :=
  if edge.token ∈ s.depth then s
  else { s with
    depth := s.depth.insert edge.token (s.depth[current]?.getD 0 + 1)
    previous := s.previous.insert edge.token ⟨current, edge.offset, edge.opcode⟩
    queue := s.queue ++ [edge.token] }

variable (graph : CallGraph) (target : Int) (maxDepth : Nat)

/-- `$queue.Dequeue()`, with the count of the calls that are not resolved. -/
def dequeue (current : Int) (queue : List Int) (s : MethodSearch) : MethodSearch :=
  { s with
    queue := queue
    unknownEdges := s.unknownEdges + graph.unresolved[current]?.getD 0 }

/-- One turn of the loop; none if the queue is empty. -/
def turn (s : MethodSearch) : Option MethodSearch :=
  match s.queue with
  | [] => none
  | current :: queue =>
    let s := s.dequeue graph current queue
    if current = target then some s
    else if maxDepth ≤ s.depth[current]?.getD 0 then
      if graph.calls current ≠ [] then some { s with limitedNodes := s.limitedNodes + 1 }
      else some s
    else some ((graph.calls current).foldl (followEdge current) s)

variable {graph target maxDepth} {current : Int} {queue : List Int} {edge : Edge}
  {s s' : MethodSearch}

/-- All that a turn can do. -/
theorem turn_cases (h : turn graph target maxDepth s = some s') :
    ∃ current queue, s.queue = current :: queue ∧
      ((current = target ∧ s' = s.dequeue graph current queue) ∨
        (current ≠ target ∧ maxDepth ≤ s.depth[current]?.getD 0 ∧
          ((graph.calls current ≠ [] ∧ s' = { s.dequeue graph current queue with
              limitedNodes := s.limitedNodes + 1 }) ∨
            (graph.calls current = [] ∧ s' = s.dequeue graph current queue))) ∨
        (current ≠ target ∧ s.depth[current]?.getD 0 < maxDepth ∧
          s' = (graph.calls current).foldl (followEdge current)
            (s.dequeue graph current queue))) := by
  simp only [turn] at h
  cases hqueue : s.queue with
  | nil =>
    rw [hqueue] at h
    cases h
  | cons current queue =>
    rw [hqueue] at h
    refine ⟨current, queue, rfl, ?_⟩
    dsimp only at h
    split_ifs at h with htarget hdeep hcalls
    · exact .inl ⟨htarget, (Option.some.inj h).symm⟩
    · exact .inr (.inl ⟨htarget, hdeep, .inl ⟨hcalls, (Option.some.inj h).symm⟩⟩)
    · exact .inr (.inl ⟨htarget, hdeep, .inr ⟨not_not.mp hcalls, (Option.some.inj h).symm⟩⟩)
    · exact .inr (.inr ⟨htarget, not_le.mp hdeep, (Option.some.inj h).symm⟩)

variable (graph) in
/-- The callees of all methods. -/
def allCallees : List Int := graph.edges.toList.flatMap fun (_, edges) => edges.map Edge.token

theorem token_mem_allCallees (h : edge ∈ graph.calls current) : edge.token ∈ allCallees graph := by
  rw [CallGraph.calls] at h
  cases hcalls : graph.edges[current]? with
  | none =>
    rw [hcalls] at h
    cases h
  | some edges =>
    rw [hcalls] at h
    have hentry := Std.TreeMap.mem_toList_iff_getElem?_eq_some.mpr hcalls
    exact List.mem_flatMap.mpr ⟨(current, edges), hentry, List.mem_map_of_mem h⟩

variable (graph) in
/-- How many callees have not been discovered. -/
def undiscovered (s : MethodSearch) : Nat :=
  ((allCallees graph).toFinset.filter (· ∉ s.depth)).card

/-- An edge leads to a known method, or there is one less to discover. -/
theorem followEdge_progress (current : Int) (s : MethodSearch) (h : edge.token ∈ allCallees graph) :
    followEdge current s edge = s ∨
      (followEdge current s edge).undiscovered graph < s.undiscovered graph := by
  rw [followEdge]
  by_cases hknown : edge.token ∈ s.depth
  · exact .inl (if_pos hknown)
  · refine .inr ?_
    rw [if_neg hknown]
    refine Finset.card_lt_card (Finset.ssubset_iff_of_subset ?_ |>.mpr ⟨edge.token, ?_, ?_⟩)
    · intro token htoken
      rw [Finset.mem_filter] at htoken ⊢
      exact ⟨htoken.1, fun hmem => htoken.2 (Std.TreeMap.mem_insert.mpr (.inr hmem))⟩
    · exact Finset.mem_filter.mpr ⟨List.mem_toFinset.mpr h, hknown⟩
    · intro hmem
      exact (Finset.mem_filter.mp hmem).2 Std.TreeMap.mem_insert_self

theorem foldl_followEdge_progress (current : Int) (s : MethodSearch) (edges : List Edge)
    (h : ∀ edge ∈ edges, edge.token ∈ allCallees graph) :
    edges.foldl (followEdge current) s = s ∨
      (edges.foldl (followEdge current) s).undiscovered graph < s.undiscovered graph := by
  induction edges generalizing s with
  | nil => exact .inl rfl
  | cons edge edges ih =>
    have hlater : ∀ other ∈ edges, other.token ∈ allCallees graph :=
      fun other hmem => h other (List.mem_cons_of_mem edge hmem)
    rw [List.foldl_cons]
    rcases followEdge_progress current s (h edge List.mem_cons_self) with hsame | hless
    · rw [hsame]
      exact ih s hlater
    · rcases ih (followEdge current s edge) hlater with hstays | hfewer
      · rw [hstays]
        exact .inr hless
      · exact .inr (hfewer.trans hless)

variable (graph target maxDepth) in
/-- The loop over the queue. -/
def loop : StepLoop MethodSearch where
  turn := turn graph target maxDepth
  budget := undiscovered graph
  pending s := s.queue.length
  progress := by
    intro s s' h
    obtain ⟨current, queue, hqueue, hcases⟩ := turn_cases h
    have hshorter : (s.dequeue graph current queue).queue.length < s.queue.length := by
      rw [hqueue]
      exact Nat.lt_succ_self queue.length
    rcases hcases with ⟨-, rfl⟩ | ⟨-, -, ⟨-, rfl⟩ | ⟨-, rfl⟩⟩ | ⟨-, -, rfl⟩
    · exact .inr ⟨rfl, hshorter⟩
    · exact .inr ⟨rfl, hshorter⟩
    · exact .inr ⟨rfl, hshorter⟩
    · rcases foldl_followEdge_progress current (s.dequeue graph current queue)
        (graph.calls current) (fun _ => token_mem_allCallees) with hsame | hless
      · rw [hsame]
        exact .inr ⟨rfl, hshorter⟩
      · exact .inl hless

end MethodSearch

variable (graph : CallGraph) (nameByToken : Int → Option String) (maxDepth : Nat)

/-- The search from a method, at its end. -/
def search (start target : Int) : MethodSearch :=
  (MethodSearch.loop graph target maxDepth).finish (MethodSearch.initial start)

/-- One turn of the loop back along `$previous`, which ends after the start; there is no next turn
then. A method without a predecessor would end the script. -/
def pathTurn (previous : Std.TreeMap Int Edge) (start : Int) :
    Option Int → Except ScanError (Option (Int × Option Int))
  | none => .ok none
  | some current =>
    if current = start then .ok (some (current, none))
    else match previous[current]? with
    | some via => .ok (some (current, some via.token))
    | none => .error .argument

def pathLine (previous : Std.TreeMap Int Edge) (start current : Int) : Line :=
  .path current ((nameByToken current).getD "")
    (if current = start then none
      else previous[current]?.map fun via => (via.opcode, via.offset))

def startLine (start target : Int) (s : MethodSearch) : Line :=
  .start start target (target ∈ s.depth) s.depth.size maxDepth (s.depth.values.foldl max 0)
    s.limitedNodes s.unknownEdges

/-- What is printed for a start, if the loop back along `$previous` ends within so many turns. -/
def startLines (fuel : Nat) (start target : Int) : Option (Except ScanError (List Line)) :=
  let s := search graph maxDepth start target
  if target ∉ s.depth then some (.ok [startLine maxDepth start target s])
  else (WhileLoop.run (pathTurn s.previous start) fuel (some target)).map fun result =>
    result.map fun path => startLine maxDepth start target s ::
      path.reverse.map (pathLine nameByToken s.previous start)

/-- What is printed for a start. -/
def Prints (start target : Int) (result : Except ScanError (List Line)) : Prop :=
  ∃ fuel, startLines graph nameByToken maxDepth fuel start target = some result

/-- The outputs for all starts, one after the other. -/
def allLines (fuel : Nat) (target : Int) : List Int → Option (Except ScanError (List Line))
  | [] => some (.ok [])
  | start :: starts =>
    match startLines graph nameByToken maxDepth fuel start target with
    | none => none
    | some (.error e) => some (.error e)
    | some (.ok lines) =>
      (allLines fuel target starts).map fun result => result.map fun later => lines ++ later

/-- What the script does before it searches: it checks its parameters and reads the calls. -/
def setup (tokensByName : String → Option (List Int)) (rows : List CallRow)
    (startTokens : List String) (targetToken : String) :
    Except ScanError (CallGraph × List Int × Int) := do
  if ¬ (1 ≤ maxDepth ∧ maxDepth ≤ 12) then .error .argument
  else
    let target ← convertToken targetToken
    if nameByToken target = none then
      .error (.thrown ("Target method not found: " ++ targetToken))
    else
      let starts ← startTokens.mapM convertToken
      match starts.find? fun start => nameByToken start = none with
      | some start => .error (.thrown ("Start method not found: 0x" ++ paddedHex 8 start))
      | none =>
        let graph ← buildGraph tokensByName rows
        .ok (graph, starts, target)

end IlReachability
end Army3
