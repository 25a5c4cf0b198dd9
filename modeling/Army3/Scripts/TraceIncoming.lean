import Army3.Framework.ShortestPaths
import Army3.Scripts.PseudoCfg
import Mathlib.Algebra.GroupWithZero.Nat

/-! `TraceIncomingToRange.java`: which calls in a range of addresses lead to a function. -/

namespace Army3
namespace TraceIncoming

/-- A function of the program. There is one at an entry point. -/
structure Callable (Address : Type) where
  entryPoint : Address
  name : String
  deriving DecidableEq, Repr

/-- A reference, as far as it is used. -/
structure Reference (Address : Type) where
  fromAddress : Address
  isCall : Bool
  deriving DecidableEq, Repr

/-- The function manager and the reference manager. -/
structure Program (Address : Type) where
  getFunctionContaining : Address → Option (Callable Address)
  getReferencesTo : Address → List (Reference Address)

/-- The chain is joined by arrows where it is printed. -/
structure Node (Address : Type) where
  function : Callable Address
  depth : Nat
  chain : List Address
  deriving DecidableEq, Repr

def Node.entry {Address : Type} (node : Node Address) : Address := node.function.entryPoint

/-- A printed line. -/
inductive Line (Address : Type) where
  | rangeCallsite (site : Address) (depth : Nat) (caller : Callable Address) (chain : List Address)
  | summary (target : Address) (maxDepth : Int) (functions edges rangeHits : Nat)
  deriving DecidableEq, Repr

/-- The state of the search, with the lines printed and how often the monitor has been asked. -/
structure Trace (Address : Type) [LinearOrder Address] where
  queue : List (Node Address)
  bestDepth : Std.TreeMap Address Nat
  rangeHits : Nat
  traversedEdges : Nat
  lines : List (Line Address)
  polls : Nat

section
variable {Address : Type} [LinearOrder Address] (program : Program Address)

/-- The call that a reference to a function is, with the function it is made in. A call of a
function by itself is passed over. -/
def callSite (entry : Address) (reference : Reference Address) :
    Option (Address × Callable Address) :=
  if reference.isCall then
    match program.getFunctionContaining reference.fromAddress with
    | none => none
    | some caller =>
      if caller.entryPoint = entry then none else some (reference.fromAddress, caller)
  else none

/-- The calls of a function. -/
def calls (entry : Address) : List (Address × Callable Address) :=
  (program.getReferencesTo entry).filterMap (callSite program entry)

namespace Trace

def initial (target : Callable Address) : Trace Address :=
  ⟨[⟨target, 0, [target.entryPoint]⟩],
    (∅ : Std.TreeMap Address Nat).insert target.entryPoint 0, 0, 0, [], 0⟩

variable (range : CodeRange Address) (monitor : Monitor) (maxDepth : Int) (node : Node Address)

/-- A call in the range is printed, and the caller is not gone on from there. -/
def hit (s : Trace Address) (site : Address) (caller : Callable Address) : Trace Address :=
  { s with
    lines := s.lines ++ [.rangeCallsite site (node.depth + 1) caller (site :: node.chain)]
    rangeHits := s.rangeHits + 1 }

/-- The caller is gone on from, unless it is known to be no deeper. -/
def ascend (s : Trace Address) (caller : Callable Address) : Trace Address :=
  let nextDepth := node.depth + 1
  let onward : Trace Address := { s with
    bestDepth := s.bestDepth.insert caller.entryPoint nextDepth
    queue := s.queue ++ [⟨caller, nextDepth, caller.entryPoint :: node.chain⟩] }
  match s.bestDepth[caller.entryPoint]? with
  | some previous => if previous ≤ nextDepth then s else onward
  | none => onward

def follow (s : Trace Address) (call : Address × Callable Address) : Trace Address :=
  let s := { s with traversedEdges := s.traversedEdges + 1 }
  if range.Inside call.1 then s.hit node call.1 call.2 else s.ascend node call.2

/-- The loop over the references to the function of a node. -/
def followAll : List (Reference Address) → Trace Address → Trace Address
  | [], s => s
  | reference :: references, s =>
    if monitor s.polls then { s with polls := s.polls + 1 }
    else
      let s := { s with polls := s.polls + 1 }
      match callSite program node.entry reference with
      | none => followAll references s
      | some call => followAll references (s.follow range node call)

/-- One turn of the loop over the queue; none if its condition does not hold. -/
def turn (s : Trace Address) : Option (Trace Address) :=
  match s.queue with
  | [] => none
  | node :: queue =>
    if monitor s.polls then none
    else
      let s := { s with queue := queue, polls := s.polls + 1 }
      if maxDepth ≤ node.depth then some s
      else some (followAll program range monitor node (program.getReferencesTo node.entry) s)

/-- How many chains of calls lead to a function, up to a depth. -/
def chains : Nat → Address → Nat
  | 0, _ => 1
  | depth + 1, entry =>
    1 + ((calls program entry).map fun call => chains depth call.2.entryPoint).sum

/-- The chains that the search may still go along. -/
def ahead (queue : List (Node Address)) : Nat :=
  (queue.map fun node => chains program (maxDepth - node.depth).toNat node.entry).sum

variable {program range monitor maxDepth node} {s s' : Trace Address}

theorem ahead_append (queue : List (Node Address)) (node : Node Address) :
    ahead program maxDepth (queue ++ [node]) = ahead program maxDepth queue +
      chains program (maxDepth - node.depth).toNat node.entry := by
  simp only [ahead, List.map_append, List.map_cons, List.map_nil, List.sum_append, List.sum_cons,
    List.sum_nil, Nat.add_zero]

theorem ahead_ascend (caller : Callable Address) (s : Trace Address) :
    ahead program maxDepth (s.ascend node caller).queue ≤ ahead program maxDepth s.queue +
      chains program (maxDepth - (node.depth + 1 : Nat)).toNat caller.entryPoint := by
  rw [ascend]
  split
  · split_ifs
    · exact Nat.le_add_right _ _
    · exact (ahead_append _ _).le
  · exact (ahead_append _ _).le

variable (program range maxDepth node) in
theorem ahead_follow (call : Address × Callable Address) (s : Trace Address) :
    ahead program maxDepth (s.follow range node call).queue ≤ ahead program maxDepth s.queue +
      chains program (maxDepth - (node.depth + 1 : Nat)).toNat call.2.entryPoint := by
  rw [follow]
  split_ifs
  · exact Nat.le_add_right _ _
  · exact ahead_ascend call.2 { s with traversedEdges := s.traversedEdges + 1 }

variable (program range monitor maxDepth node) in
theorem ahead_followAll (references : List (Reference Address)) (s : Trace Address) :
    ahead program maxDepth (followAll program range monitor node references s).queue ≤
      ahead program maxDepth s.queue +
        ((references.filterMap (callSite program node.entry)).map fun call =>
          chains program (maxDepth - (node.depth + 1 : Nat)).toNat call.2.entryPoint).sum := by
  induction references generalizing s with
  | nil => exact Nat.le_add_right _ _
  | cons reference references ih =>
    rw [followAll]
    split_ifs
    · exact Nat.le_add_right _ _
    · cases hcall : callSite program node.entry reference with
      | none =>
        rw [List.filterMap_cons_none hcall]
        exact ih _
      | some call =>
        rw [List.filterMap_cons_some hcall, List.map_cons, List.sum_cons]
        have hrest := ih (({ s with polls := s.polls + 1 } : Trace Address).follow range node call)
        have hone := ahead_follow program range maxDepth node call { s with polls := s.polls + 1 }
        dsimp only at hone ⊢
        omega

theorem ahead_turn (h : turn program range monitor maxDepth s = some s') :
    ahead program maxDepth s'.queue < ahead program maxDepth s.queue := by
  rw [turn] at h
  cases hqueue : s.queue with
  | nil =>
    rw [hqueue] at h
    cases h
  | cons node queue =>
    rw [hqueue] at h
    have hpos : ∀ depth entry, 0 < chains program depth entry := by
      intro depth entry
      cases depth <;> rw [chains] <;> omega
    have hfront : ahead program maxDepth (node :: queue) =
        chains program (maxDepth - node.depth).toNat node.entry + ahead program maxDepth queue := rfl
    dsimp only at h
    split_ifs at h with hcancelled hdeep
    · cases h
      have hone := hpos (maxDepth - node.depth).toNat node.entry
      dsimp only
      omega
    · cases h
      have hdepth : (maxDepth - node.depth).toNat = (maxDepth - (node.depth + 1 : Nat)).toNat + 1 := by
        omega
      have hall := ahead_followAll program range monitor maxDepth node
        (program.getReferencesTo node.entry) { s with queue := queue, polls := s.polls + 1 }
      rw [hfront, hdepth, chains, calls]
      dsimp only at hall
      omega

variable (program range monitor maxDepth) in
/-- The loop over the queue. Each turn goes along a chain of calls. -/
def loop : StepLoop (Trace Address) where
  turn := turn program range monitor maxDepth
  budget s := ahead program maxDepth s.queue
  pending _ := 0
  progress _ _ h := .inl (ahead_turn h)

end Trace

variable (range : CodeRange Address) (monitor : Monitor) (maxDepth : Int)

/-- The search for a function, at its end. -/
def trace (target : Callable Address) : Trace Address :=
  (Trace.loop program range monitor maxDepth).finish (.initial target)

/-- `run`, with the arguments parsed. -/
def run (text : Address → String) (targetAddress : Address) : Except String (List (Line Address)) :=
  match program.getFunctionContaining targetAddress with
  | none => .error ("No function contains target " ++ text targetAddress)
  | some target =>
    let s := trace program range monitor maxDepth target
    .ok (s.lines ++
      [.summary target.entryPoint maxDepth s.bestDepth.size s.traversedEdges s.rangeHits])

end

end TraceIncoming
end Army3
