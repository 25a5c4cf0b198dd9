import Army3.Framework.ShortestPaths
import Army3.Scripts.PseudoCfg

/-! `TracePseudoReachability.java`: whether the code leads from one address to another, and how. -/

namespace Army3
namespace TraceReachability

variable {Address : Type}

/-- `LIMIT` -/
def limit : Nat := 10000

/-- A printed line. -/
inductive Line (Address : Type) where
  | summary (start target : Address) (reached : Bool) (visited errors indirect limit : Nat)
  | pathLength (length : Nat)
  | step (index : Nat) (address : Address) (instruction : Option (PseudoInstruction Address))
  | path (address : Address) (instruction : Option (PseudoInstruction Address))
  deriving DecidableEq, Repr

/-- The state of the walk. The visited addresses are in order. -/
structure TraceWalk (Address : Type) [LinearOrder Address] where
  queue : List Address
  seen : List Address
  previous : Std.TreeMap Address (Option Address)
  errors : Nat
  indirect : Nat
  reached : Bool
  polls : Nat

variable [LinearOrder Address]

namespace TraceWalk

def initial (start : Address) : TraceWalk Address :=
  ⟨[start], [], (∅ : Std.TreeMap Address (Option Address)).insert start none, 0, 0, false, 0⟩

/-- The first address is taken from the queue. -/
def removeFirst (queue : List Address) (w : TraceWalk Address) : TraceWalk Address :=
  { w with queue := queue, polls := w.polls + 1 }

section
variable (queue : List Address) (w : TraceWalk Address)

@[simp] theorem removeFirst_seen : (w.removeFirst queue).seen = w.seen := rfl

@[simp] theorem removeFirst_reached : (w.removeFirst queue).reached = w.reached := rfl

end

variable (disassemble : PseudoDisassembler Address) (range : CodeRange Address)
  (target : Address) (monitor : Monitor) (here : Address)

/-- `enqueue`; the address that is reached comes last. -/
def enqueue (w : TraceWalk Address) (next : Address) : TraceWalk Address :=
  if ¬ range.Inside next ∨ next ∈ w.previous then w
  else { w with
    previous := w.previous.insert next (some here)
    queue := w.queue ++ [next] }

def followJump (instruction : PseudoInstruction Address) (w : TraceWalk Address) :
    TraceWalk Address :=
  if instruction.isJump then
    if instruction.isComputed || instruction.flows.isEmpty then
      { w with indirect := w.indirect + 1 }
    else instruction.flows.foldl (enqueue range here) w
  else w

def followFallThrough (instruction : PseudoInstruction Address) (w : TraceWalk Address) :
    TraceWalk Address :=
  match instruction.fallThrough with
  | none => w
  | some fall => w.enqueue range here fall

/-- An address that is visited for the first time. The loop breaks at the target. -/
def visit (w : TraceWalk Address) : TraceWalk Address :=
  let w := { w with seen := w.seen ++ [here] }
  if here = target then { w with reached := true }
  else match decode disassemble here with
  | none => { w with errors := w.errors + 1 }
  | some instruction =>
    (w.followJump range here instruction).followFallThrough range here instruction

variable {disassemble range target monitor here} {next : Address} {w w' : TraceWalk Address}

/-- Two states differ in their queues and predecessor maps only. -/
structure SameCounts (w w' : TraceWalk Address) : Prop where
  seen : w'.seen = w.seen
  errors : w'.errors = w.errors
  indirect : w'.indirect = w.indirect
  reached : w'.reached = w.reached

theorem SameCounts.trans {w'' : TraceWalk Address} (h : SameCounts w w')
    (h' : SameCounts w' w'') : SameCounts w w'' :=
  ⟨h'.seen.trans h.seen, h'.errors.trans h.errors, h'.indirect.trans h.indirect,
    h'.reached.trans h.reached⟩

theorem sameCounts_enqueue : SameCounts w (w.enqueue range here next) := by
  rw [enqueue]
  split_ifs <;> exact ⟨rfl, rfl, rfl, rfl⟩

theorem sameCounts_foldl_enqueue (flows : List Address) :
    SameCounts w (flows.foldl (enqueue range here) w) := by
  induction flows generalizing w with
  | nil => exact ⟨rfl, rfl, rfl, rfl⟩
  | cons flow flows ih => exact sameCounts_enqueue.trans ih

theorem sameCounts_followFallThrough (range : CodeRange Address) (here : Address)
    (instruction : PseudoInstruction Address) (w : TraceWalk Address) :
    SameCounts w (w.followFallThrough range here instruction) := by
  rw [followFallThrough]
  cases instruction.fallThrough with
  | none => exact ⟨rfl, rfl, rfl, rfl⟩
  | some fall => exact sameCounts_enqueue

theorem sameCounts_followJump {instruction : PseudoInstruction Address}
    (h : ¬ instruction.IsIndirect) : SameCounts w (w.followJump range here instruction) := by
  rw [PseudoInstruction.isIndirect_iff, not_and] at h
  rw [followJump]
  by_cases hjump : instruction.isJump = true
  · rw [if_pos hjump, if_neg (h hjump)]
    exact sameCounts_foldl_enqueue _
  · rw [if_neg hjump]
    exact ⟨rfl, rfl, rfl, rfl⟩

theorem followJump_of_isIndirect {instruction : PseudoInstruction Address}
    (h : instruction.IsIndirect) :
    w.followJump range here instruction = { w with indirect := w.indirect + 1 } := by
  obtain ⟨hjump, hunknown⟩ := PseudoInstruction.isIndirect_iff.mp h
  rw [followJump, if_pos hjump, if_pos hunknown]

theorem visit_target : (w.visit disassemble range target target) =
    { w with seen := w.seen ++ [target], reached := true } := by
  rw [visit, if_pos rfl]

theorem visit_of_none (hother : here ≠ target) (h : decode disassemble here = none) :
    w.visit disassemble range target here =
      { w with seen := w.seen ++ [here], errors := w.errors + 1 } := by
  rw [visit, if_neg hother, h]

theorem visit_of_some (hother : here ≠ target) {instruction : PseudoInstruction Address}
    (h : decode disassemble here = some instruction) :
    w.visit disassemble range target here =
      (({ w with seen := w.seen ++ [here] } : TraceWalk Address).followJump range here
        instruction).followFallThrough range here instruction := by
  rw [visit, if_neg hother, h]

theorem visit_seen : (w.visit disassemble range target here).seen = w.seen ++ [here] := by
  by_cases htarget : here = target
  · rw [htarget, visit_target]
  · cases hdecode : decode disassemble here with
    | none => rw [visit_of_none htarget hdecode]
    | some instruction =>
      rw [visit_of_some htarget hdecode, (sameCounts_followFallThrough _ _ _ _).seen]
      by_cases hindirect : instruction.IsIndirect
      · rw [followJump_of_isIndirect hindirect]
      · rw [(sameCounts_followJump hindirect).seen]

variable (disassemble range target monitor) in
/-- The loop over the queue, which does not go on once it has been left by the `break`. -/
def loop : RangeLoop Address (TraceWalk Address) where
  queue := TraceWalk.queue
  seen := TraceWalk.seen
  range := range
  limit := limit
  goesOn w := !w.reached && !monitor w.polls
  removeFirst := removeFirst
  visit := visit disassemble range target
  queue_removeFirst _ _ := rfl
  seen_removeFirst _ _ := rfl
  seen_visit _ _ := visit_seen

end TraceWalk

variable (disassemble : PseudoDisassembler Address) (range : CodeRange Address) (target : Address)
  (monitor : Monitor)

/-- The walk, at its end. -/
def walk : TraceWalk Address :=
  (TraceWalk.loop disassemble range target monitor).finish (TraceWalk.initial range.start)

/-- The loop back along `previous`: it goes on while there is an address, so many times at most. -/
def rebuild (previous : Std.TreeMap Address (Option Address)) :
    Nat → Option Address → List Address
  | 0, _ => []
  | _ + 1, none => []
  | budget + 1, some here => here :: rebuild previous budget previous[here]?.join

/-- The path from the start to the target. -/
def tracedPath (w : TraceWalk Address) : List Address :=
  (rebuild w.previous (limit + 1) (some target)).reverse

/-- The loop over the path, from an index on. Here the disassembler may throw, and an instruction
between the ends may not be null. -/
def pathLines (size : Nat) : Nat → List Address → Except String (List (Line Address))
  | _, [] => .ok []
  | index, address :: rest => do
    let instruction ← disassemble address
    let steps := if size ≤ 2000 then [Line.step index address instruction] else []
    let shows ←
      if index = 0 ∨ index + 1 = size then Except.ok true
      else match instruction with
      | none => Except.error "NullPointerException"
      | some instruction => Except.ok (instruction.isJump || instruction.isCall)
    let later ← pathLines size (index + 1) rest
    .ok (steps ++ (if shows then [Line.path address instruction] else []) ++ later)

/-- `run`: the lines printed, or the exception thrown. -/
def run : Except String (List (Line Address)) :=
  if range.start ≤ target ∧ target < range.limit then do
    let w := walk disassemble range target monitor
    let summary := Line.summary range.start target w.reached w.seen.length w.errors w.indirect limit
    if w.reached then do
      let path := tracedPath target w
      let lines ← pathLines disassemble path.length 0 path
      .ok (summary :: .pathLength path.length :: lines)
    else .ok [summary]
  else .error "Require start <= target < end"

end TraceReachability
end Army3
