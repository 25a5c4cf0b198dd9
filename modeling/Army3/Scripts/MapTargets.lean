import Army3.Framework.LittleEndian
import Army3.Scripts.IlScan
import Army3.Scripts.PseudoCfg
import Mathlib.Data.List.Sort

/-! `MapTargetsToJumpTableCases.java`: which cases of a jump table lead to the targets. -/

namespace Army3
namespace MapTargets

variable {Address : Type}

/-- `LIMIT_PER_CASE` -/
def limitPerCase : Nat := 30000

/-- What the script asks of the program: its image base, `Address.add`, `Memory.getBytes` on an
array of the given length, and its disassembler. -/
structure Program (Address : Type) where
  imageBase : Address
  add : Address → Int → Except String Address
  getBytes : Address → (length : Nat) → Except String (Vector UInt8 length)
  disassemble : PseudoDisassembler Address

/-- The arguments of the script, parsed. The targets are a set in the order of the arguments. -/
structure Arguments (Address : Type) where
  table : Address
  count : Int
  bias : Int
  range : CodeRange Address
  targets : List Address
  distinct : targets.Nodup

/-- The state of the walk from one case entry. The visited addresses are in order. -/
structure CaseWalk (Address : Type) [LinearOrder Address] where
  queue : List Address
  seen : List Address
  reached : List Address
  indirectSites : Std.TreeSet Address
  errors : Nat
  indirect : Nat
  polls : Nat

/-- A printed line. -/
inductive Line (Address : Type) where
  | caseBytes (commands : List String) (entry : Address) (reached : List Address)
      (visited errors indirect : Nat) (indirectSites : List Address)
  | unresolvedCaseBytes (commands : List String) (entry : Address)
      (visited errors indirect : Nat) (indirectSites : List Address)
  deriving DecidableEq, Repr

def Line.entry : Line Address → Address
  | .caseBytes _ entry _ _ _ _ _ => entry
  | .unresolvedCaseBytes _ entry _ _ _ _ => entry

variable [LinearOrder Address]

/-- The command bytes by destination, `bytesByDestination`. -/
abbrev Cases (Address : Type) [LinearOrder Address] := Std.TreeMap Address (List String)

/-- `String.format("%02X", signedByte & 0xff)`, or dashes outside of a signed byte. The
subtraction is one of Java's `int`. -/
def commandText (index : Nat) (bias : Int) : String :=
  let signedByte := ((index : Int) - bias).bmod 0x100000000
  if -128 ≤ signedByte ∧ signedByte ≤ 127 then paddedHex 2 (signedByte % 256) else "--"

/-- One entry of the table. A stub that is not an `E9` jump is passed over. -/
def resolveEntry (program : Program Address) (arguments : Arguments Address)
    (cases : Cases Address) (index : Nat) : Except String (Cases Address) := do
  let slot ← program.add arguments.table (4 * index)
  let raw ← program.getBytes slot 4
  let stub ← program.add program.imageBase (LittleEndian.ofBytes raw.toList)
  let jump ← program.getBytes stub 5
  if jump[0] ≠ 0xE9 then pure cases
  else do
    let displacement := LittleEndian.signed 32 (LittleEndian.ofBytes jump.toList.tail)
    let destination ← program.add stub (5 + displacement)
    pure (cases.alter destination fun commands =>
      some (commands.getD [] ++ [commandText index arguments.bias]))

/-- `bytesByDestination` after the loop over the table. -/
def resolveCases (program : Program Address) (arguments : Arguments Address) :
    Except String (Cases Address) :=
  (List.range arguments.count.toNat).foldlM (resolveEntry program arguments) ∅

namespace CaseWalk

def initial (start : Address) : CaseWalk Address := ⟨[start], [], [], ∅, 0, 0, 0⟩

/-- The first address is taken from the queue. -/
def removeFirst (queue : List Address) (w : CaseWalk Address) : CaseWalk Address :=
  { w with queue := queue, polls := w.polls + 1 }

section
variable (queue : List Address) (w : CaseWalk Address)

@[simp] theorem removeFirst_seen : (w.removeFirst queue).seen = w.seen := rfl

@[simp] theorem removeFirst_reached : (w.removeFirst queue).reached = w.reached := rfl

@[simp] theorem removeFirst_indirectSites :
    (w.removeFirst queue).indirectSites = w.indirectSites := rfl

end

variable (disassemble : PseudoDisassembler Address) (range : CodeRange Address)
  (targets : List Address) (monitor : Monitor)

/-- An address that is visited for the first time. -/
def visit (here : Address) (w : CaseWalk Address) : CaseWalk Address :=
  let w := { w with
    seen := w.seen ++ [here]
    reached :=
      if targets.contains here && !w.reached.contains here then w.reached ++ [here]
      else w.reached }
  match decode disassemble here with
  | none => { w with errors := w.errors + 1 }
  | some instruction =>
    let w :=
      if instruction.isJump then
        if instruction.isComputed || instruction.flows.isEmpty then
          { w with
            indirect := w.indirect + 1
            indirectSites := w.indirectSites.insert here }
        else { w with queue := w.queue ++ instruction.flows.filter range.Inside }
      else w
    { w with queue := w.queue ++ instruction.fallThrough.toList.filter range.Inside }

variable {disassemble range targets monitor} {here : Address} {queue : List Address}
  {w : CaseWalk Address}

theorem visit_seen : (w.visit disassemble range targets here).seen = w.seen ++ [here] := by
  simp only [visit]
  cases decode disassemble here with
  | none => rfl
  | some instruction =>
    dsimp only
    split_ifs <;> rfl

theorem visit_queue :
    (w.visit disassemble range targets here).queue = w.queue ++ edges disassemble range here := by
  simp only [visit]
  cases hdecode : decode disassemble here with
  | none => rw [edges_of_none hdecode, List.append_nil]
  | some instruction =>
    rw [edges_visited hdecode]
    dsimp only
    by_cases hjump : instruction.isJump = true
    · rw [if_pos hjump]
      by_cases hunknown : (instruction.isComputed || instruction.flows.isEmpty) = true
      · rw [if_pos hunknown, PseudoInstruction.directFlows_of_unknown hunknown, List.filter_nil,
          List.nil_append]
      · rw [if_neg hunknown, PseudoInstruction.directFlows_of_known hjump hunknown,
          List.append_assoc]
    · rw [if_neg hjump, PseudoInstruction.directFlows_of_not_isJump hjump, List.filter_nil,
        List.nil_append]

theorem visit_reached : (w.visit disassemble range targets here).reached =
    if here ∈ targets ∧ here ∉ w.reached then w.reached ++ [here] else w.reached := by
  have hadd : (targets.contains here && !w.reached.contains here) = true ↔
      here ∈ targets ∧ here ∉ w.reached := by simp
  rw [← if_congr hadd rfl rfl]
  simp only [visit]
  cases decode disassemble here with
  | none => rfl
  | some instruction =>
    dsimp only
    split_ifs <;> rfl

theorem visit_errors : (w.visit disassemble range targets here).errors =
    if (decode disassemble here).isSome then w.errors else w.errors + 1 := by
  simp only [visit]
  cases decode disassemble here with
  | none => rfl
  | some instruction =>
    rw [if_pos Option.isSome_some]
    dsimp only
    split_ifs <;> rfl

theorem visit_indirect (h : IsIndirectSite disassemble here) :
    (w.visit disassemble range targets here).indirect = w.indirect + 1 ∧
      (w.visit disassemble range targets here).indirectSites = w.indirectSites.insert here := by
  obtain ⟨instruction, hdecode, hindirect⟩ := h
  obtain ⟨hjump, hunknown⟩ := PseudoInstruction.isIndirect_iff.mp hindirect
  simp only [visit, hdecode, hjump, hunknown, if_true, and_self]

theorem visit_not_indirect (h : ¬ IsIndirectSite disassemble here) :
    (w.visit disassemble range targets here).indirect = w.indirect ∧
      (w.visit disassemble range targets here).indirectSites = w.indirectSites := by
  simp only [visit]
  cases hdecode : decode disassemble here with
  | none => exact ⟨rfl, rfl⟩
  | some instruction =>
    rw [isIndirectSite_iff hdecode, PseudoInstruction.isIndirect_iff, not_and] at h
    dsimp only
    by_cases hjump : instruction.isJump = true
    · rw [if_pos hjump, if_neg (h hjump)]
      exact ⟨rfl, rfl⟩
    · rw [if_neg hjump]
      exact ⟨rfl, rfl⟩

variable (disassemble range targets monitor) in
/-- The loop over the queue of one case entry. -/
def loop : RangeLoop Address (CaseWalk Address) where
  queue := CaseWalk.queue
  seen := CaseWalk.seen
  range := range
  limit := limitPerCase
  goesOn w := w.reached.length < targets.length && !monitor w.polls
  removeFirst := removeFirst
  visit := visit disassemble range targets
  queue_removeFirst _ _ := rfl
  seen_removeFirst _ _ := rfl
  seen_visit _ _ := visit_seen

end CaseWalk

variable (program : Program Address) (arguments : Arguments Address) (monitor : Address → Monitor)

/-- The walk from a case entry, at its end. The monitor is one for each entry. -/
def caseWalk (start : Address) : CaseWalk Address :=
  (CaseWalk.loop program.disassemble arguments.range arguments.targets (monitor start)).finish
    (CaseWalk.initial start)

/-- What is printed about a case entry. -/
def caseLines (commands : List String) (start : Address) (w : CaseWalk Address) :
    List (Line Address) :=
  if w.reached ≠ [] then
    [.caseBytes commands start w.reached w.seen.length w.errors w.indirect w.indirectSites.toList]
  else if ¬ w.indirectSites.isEmpty then
    [.unresolvedCaseBytes commands start w.seen.length w.errors w.indirect
      w.indirectSites.toList]
  else []

/-- `run`: the lines printed, or the exception thrown. -/
def run : Except String (List (Line Address)) := do
  let cases ← resolveCases program arguments
  pure (cases.toList.flatMap fun (start, commands) =>
    if arguments.range.Inside start then
      caseLines commands start (caseWalk program arguments monitor start)
    else [])

end MapTargets
end Army3
