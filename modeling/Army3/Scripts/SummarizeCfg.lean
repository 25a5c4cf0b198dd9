import Army3.Scripts.PseudoCfg

/-! `SummarizePseudoCfg.java`: what a range of code calls, writes and compares, and where it
leaves the range. -/

namespace Army3
namespace SummarizeCfg

variable {Address : Type}

/-- `LIMIT` -/
def limit : Nat := 12000

/-- What is put into `exits`: the text of the instruction and where it leaves to. -/
inductive Exit (Address : Type) where
  | jump (text : String) (target : Address)
  | fallThrough (text : String) (fall : Address)
  deriving DecidableEq, Repr

/-- A printed line. -/
inductive Line (Address : Type) where
  | summary (start rangeEnd : Address) (visited errors indirect limit : Nat)
  | callTarget (target : Address) (count : Nat) (sites : List Address)
  | write (address : Address) (text : String)
  | compare (address : Address) (text : String)
  | exit (address : Address) (exit : Exit Address)
  deriving DecidableEq, Repr

def writeMnemonics : List String :=
  ["MOV ", "MOVZX ", "MOVSX ", "LEA ", "XOR ", "OR ", "AND ", "ADD ", "SUB ", "INC ", "DEC ",
    "BTS ", "CMPXCHG "]

def compareMnemonics : List String := ["CMP ", "TEST "]

/-- `upper.startsWith`, for one of the mnemonics. The texts of instructions are ASCII. -/
def startsWithAny (mnemonics : List String) (text : String) : Bool :=
  mnemonics.any fun mnemonic => mnemonic.toList.isPrefixOf (text.toList.map Char.toUpper)

def firstOperandIsMemory (text : String) : Bool :=
  match text.toList.idxOf? ' ', text.toList.idxOf? ',' with
  | some space, some comma =>
    let first := (text.toList.take comma).drop (space + 1)
    space < comma && first.contains '[' && first.contains ']'
  | _, _ => false

/-- The state of the walk. The visited addresses are in order. -/
structure CfgWalk (Address : Type) [LinearOrder Address] where
  queue : List Address
  seen : List Address
  calls : Std.TreeMap Address (List Address)
  writes : Std.TreeMap Address String
  compares : Std.TreeMap Address String
  exits : Std.TreeMap Address (Exit Address)
  errors : Nat
  indirect : Nat
  polls : Nat

variable [LinearOrder Address]

namespace CfgWalk

def initial (start : Address) : CfgWalk Address := ⟨[start], [], ∅, ∅, ∅, ∅, 0, 0, 0⟩

/-- The first address is taken from the queue. -/
def removeFirst (queue : List Address) (w : CfgWalk Address) : CfgWalk Address :=
  { w with queue := queue, polls := w.polls + 1 }

section
variable (queue : List Address) (w : CfgWalk Address)

@[simp] theorem removeFirst_seen : (w.removeFirst queue).seen = w.seen := rfl

@[simp] theorem removeFirst_exits : (w.removeFirst queue).exits = w.exits := rfl

end

variable (disassemble : PseudoDisassembler Address) (range : CodeRange Address)
  (monitor : Monitor) (here : Address) (instruction : PseudoInstruction Address)

def noteAccess (w : CfgWalk Address) : CfgWalk Address := { w with
  writes :=
    if startsWithAny writeMnemonics instruction.text && firstOperandIsMemory instruction.text then
      w.writes.insert here instruction.text
    else w.writes
  compares :=
    if startsWithAny compareMnemonics instruction.text then
      w.compares.insert here instruction.text
    else w.compares }

def noteCall (w : CfgWalk Address) : CfgWalk Address :=
  if instruction.isCall then
    if instruction.flows.isEmpty || instruction.isComputed then
      { w with indirect := w.indirect + 1 }
    else
      { w with calls := instruction.flows.foldl (fun calls target =>
          calls.alter target fun sites => some (sites.getD [] ++ [here])) w.calls }
  else w

/-- One target of a direct jump. -/
def jumpTo (w : CfgWalk Address) (target : Address) : CfgWalk Address :=
  if range.Inside target then { w with queue := w.queue ++ [target] }
  else { w with exits := w.exits.insert here (.jump instruction.text target) }

def followJump (w : CfgWalk Address) : CfgWalk Address :=
  if instruction.isJump then
    if instruction.flows.isEmpty || instruction.isComputed then
      { w with indirect := w.indirect + 1 }
    else instruction.flows.foldl (jumpTo range here instruction) w
  else w

def followFallThrough (w : CfgWalk Address) : CfgWalk Address :=
  match instruction.fallThrough with
  | none => w
  | some fall =>
    if range.Inside fall then { w with queue := w.queue ++ [fall] }
    else if instruction.isCall then w
    else { w with exits := w.exits.insert here (.fallThrough instruction.text fall) }

/-- An address that is visited for the first time. -/
def visit (w : CfgWalk Address) : CfgWalk Address :=
  let w := { w with seen := w.seen ++ [here] }
  match decode disassemble here with
  | none => { w with errors := w.errors + 1 }
  | some instruction =>
    (((w.noteAccess here instruction).noteCall here instruction).followJump range here
      instruction).followFallThrough range here instruction

/-- The ways in which an instruction leaves the range, in the order in which they are put into
`exits`. -/
def exitsOf : List (Exit Address) :=
  (instruction.directFlows.filter fun target => ¬ range.Inside target).map
      (Exit.jump instruction.text) ++
    if instruction.isCall then []
    else (instruction.fallThrough.toList.filter fun fall => ¬ range.Inside fall).map
      (Exit.fallThrough instruction.text)

variable {disassemble range monitor here instruction} {w : CfgWalk Address}

@[simp] theorem noteAccess_queue : (w.noteAccess here instruction).queue = w.queue := rfl

@[simp] theorem noteAccess_seen : (w.noteAccess here instruction).seen = w.seen := rfl

@[simp] theorem noteAccess_exits : (w.noteAccess here instruction).exits = w.exits := rfl

@[simp] theorem noteCall_queue : (w.noteCall here instruction).queue = w.queue := by
  rw [noteCall]
  split_ifs <;> rfl

@[simp] theorem noteCall_seen : (w.noteCall here instruction).seen = w.seen := by
  rw [noteCall]
  split_ifs <;> rfl

@[simp] theorem noteCall_exits : (w.noteCall here instruction).exits = w.exits := by
  rw [noteCall]
  split_ifs <;> rfl

/-- Exits that are put under one address, in their order. -/
def putExits (here : Address) (put : List (Exit Address))
    (exits : Std.TreeMap Address (Exit Address)) : Std.TreeMap Address (Exit Address) :=
  put.foldl (fun exits exit => exits.insert here exit) exits

theorem foldl_jumpTo (flows : List Address) : flows.foldl (jumpTo range here instruction) w =
    { w with
      queue := w.queue ++ flows.filter range.Inside
      exits := putExits here ((flows.filter fun target => ¬ range.Inside target).map
        (Exit.jump instruction.text)) w.exits } := by
  induction flows generalizing w with
  | nil => simp [putExits]
  | cons target flows ih =>
    rw [List.foldl_cons, ih, jumpTo]
    by_cases hinside : range.Inside target
    · simp [hinside]
    · simp [hinside, putExits]

theorem followJump_queue : (w.followJump range here instruction).queue =
    w.queue ++ instruction.directFlows.filter range.Inside := by
  rw [followJump, Bool.or_comm]
  split_ifs with hjump hunknown
  · simp [PseudoInstruction.directFlows_of_unknown hunknown]
  · rw [PseudoInstruction.directFlows_of_known hjump hunknown, foldl_jumpTo]
  · simp [PseudoInstruction.directFlows_of_not_isJump hjump]

theorem followJump_seen : (w.followJump range here instruction).seen = w.seen := by
  rw [followJump]
  split_ifs with hjump hunknown
  · rfl
  · rw [foldl_jumpTo]
  · rfl

theorem followJump_exits : (w.followJump range here instruction).exits =
    putExits here ((instruction.directFlows.filter fun target => ¬ range.Inside target).map
      (Exit.jump instruction.text)) w.exits := by
  rw [followJump, Bool.or_comm]
  split_ifs with hjump hunknown
  · simp [PseudoInstruction.directFlows_of_unknown hunknown, putExits]
  · rw [PseudoInstruction.directFlows_of_known hjump hunknown, foldl_jumpTo]
  · simp [PseudoInstruction.directFlows_of_not_isJump hjump, putExits]

theorem followFallThrough_queue : (w.followFallThrough range here instruction).queue =
    w.queue ++ instruction.fallThrough.toList.filter range.Inside := by
  rw [followFallThrough]
  cases hfall : instruction.fallThrough with
  | none => simp
  | some fall =>
    dsimp only
    split_ifs with hinside hcall
    · simp [hinside]
    · simp [hinside]
    · simp [hinside]

theorem followFallThrough_seen : (w.followFallThrough range here instruction).seen = w.seen := by
  rw [followFallThrough]
  cases instruction.fallThrough with
  | none => rfl
  | some fall =>
    dsimp only
    split_ifs <;> rfl

theorem followFallThrough_exits : (w.followFallThrough range here instruction).exits =
    putExits here (if instruction.isCall then []
      else (instruction.fallThrough.toList.filter fun fall => ¬ range.Inside fall).map
        (Exit.fallThrough instruction.text)) w.exits := by
  rw [followFallThrough]
  cases hfall : instruction.fallThrough with
  | none => simp [putExits]
  | some fall =>
    dsimp only
    split_ifs with hinside hcall
    · rfl
    · simp [hinside, putExits]
    · rfl
    · simp [hinside, putExits]

theorem visit_seen : (w.visit disassemble range here).seen = w.seen ++ [here] := by
  rw [visit]
  cases decode disassemble here with
  | none => rfl
  | some instruction =>
    dsimp only
    rw [followFallThrough_seen, followJump_seen, noteCall_seen, noteAccess_seen]

theorem visit_queue : (w.visit disassemble range here).queue =
    w.queue ++ edges disassemble range here := by
  rw [visit]
  cases hdecode : decode disassemble here with
  | none => rw [edges_of_none hdecode, List.append_nil]
  | some instruction =>
    dsimp only
    rw [followFallThrough_queue, followJump_queue, noteCall_queue, noteAccess_queue,
      edges_visited hdecode, List.append_assoc]

theorem visit_exits : (w.visit disassemble range here).exits =
    putExits here ((decode disassemble here).elim [] (exitsOf range)) w.exits := by
  rw [visit]
  cases decode disassemble here with
  | none => rfl
  | some instruction =>
    dsimp only
    rw [followFallThrough_exits, followJump_exits, noteCall_exits, noteAccess_exits,
      Option.elim_some, exitsOf, putExits, putExits, putExits, List.foldl_append]

variable (disassemble range monitor) in
/-- The loop over the queue. -/
def loop : RangeLoop Address (CfgWalk Address) where
  queue := CfgWalk.queue
  seen := CfgWalk.seen
  range := range
  limit := limit
  goesOn w := !monitor w.polls
  removeFirst := removeFirst
  visit := visit disassemble range
  queue_removeFirst _ _ := rfl
  seen_removeFirst _ _ := rfl
  seen_visit _ _ := visit_seen

end CfgWalk

variable (disassemble : PseudoDisassembler Address) (range : CodeRange Address) (monitor : Monitor)

/-- The walk over the range, at its end. -/
def walk : CfgWalk Address :=
  (CfgWalk.loop disassemble range monitor).finish (CfgWalk.initial range.start)

def report (w : CfgWalk Address) : List (Line Address) :=
  .summary range.start range.limit w.seen.length w.errors w.indirect limit ::
    (w.calls.toList.map fun (target, sites) => .callTarget target sites.length sites) ++
    (w.writes.toList.map fun (address, text) => .write address text) ++
    (w.compares.toList.map fun (address, text) => .compare address text) ++
    w.exits.toList.map fun (address, exit) => .exit address exit

/-- `run`: the lines printed, or the exception thrown. -/
def run : Except String (List (Line Address)) :=
  if range.start < range.limit then .ok (report range (walk disassemble range monitor))
  else .error "Require start < end"

end SummarizeCfg
end Army3
