import Army3.Scripts.RangeSearch
import Mathlib.Data.List.Infix

/-! `FindPseudoInstructions.java`: the instructions in a range whose text contains a token. -/

namespace Army3
namespace FindInstructions

/-- `LIMIT` -/
def limit : Nat := 12000

/-- A printed line. -/
inductive Line (Address : Type) where
  | found (site : Address) (token text : String)
  | summary (start stop : Address) (visited found errors limit : Nat)
  deriving DecidableEq, Repr

/-- `toUpperCase`; the texts are ASCII. -/
def toUpperCase (text : String) : String := String.ofList (text.toList.map Char.toUpper)

/-- The first token that the text contains. -/
def firstToken (tokens : List String) (text : String) : Option String :=
  tokens.find? fun token => token.toList <:+: (toUpperCase text).toList

/-- The state of the walk. -/
structure FindWalk (Address : Type) where
  queue : List Address
  seen : List Address
  errors : Nat
  lines : List (Line Address)
  polls : Nat

variable {Address : Type} [LinearOrder Address]

namespace FindWalk

def initial (start : Address) : FindWalk Address := ⟨[start], [], 0, [], 0⟩

omit [LinearOrder Address] in
/-- The first address is taken from the queue. -/
def removeFirst (queue : List Address) (w : FindWalk Address) : FindWalk Address :=
  { w with queue := queue, polls := w.polls + 1 }

variable (disassemble : PseudoDisassembler Address) (range : CodeRange Address)
  (tokens : List String) (monitor : Monitor) (here : Address)

def printMatch (instruction : PseudoInstruction Address) (w : FindWalk Address) :
    FindWalk Address :=
  match firstToken tokens instruction.text with
  | some token => { w with lines := w.lines ++ [.found here token instruction.text] }
  | none => w

/-- `if (inside(target, start, end)) queue.addLast(target)`. -/
def enqueue (w : FindWalk Address) (target : Address) : FindWalk Address :=
  if range.Inside target then { w with queue := w.queue ++ [target] } else w

/-- The targets of a jump, with what is known of those of a computed one. -/
def followJump (instruction : PseudoInstruction Address) (w : FindWalk Address) :
    FindWalk Address :=
  if instruction.isJump then instruction.flows.foldl (enqueue range) w else w

def followFallThrough (instruction : PseudoInstruction Address) (w : FindWalk Address) :
    FindWalk Address :=
  match instruction.fallThrough with
  | some fallThrough => w.enqueue range fallThrough
  | none => w

/-- An address that is visited for the first time. -/
def visit (w : FindWalk Address) : FindWalk Address :=
  let w := { w with seen := w.seen ++ [here] }
  match decode disassemble here with
  | none => { w with errors := w.errors + 1 }
  | some instruction =>
    ((w.printMatch tokens here instruction).followJump range instruction).followFallThrough range
      instruction

variable {disassemble range tokens monitor here} {w w' : FindWalk Address}
  {instruction : PseudoInstruction Address}

theorem foldl_enqueue (flows : List Address) (w : FindWalk Address) :
    flows.foldl (enqueue range) w =
      { w with queue := w.queue ++ flows.filter range.Inside } := by
  induction flows generalizing w with
  | nil => simp
  | cons flow flows ih =>
    rw [List.foldl_cons, ih, enqueue]
    by_cases hinside : range.Inside flow
    · rw [if_pos hinside, RangeLoop.filter_cons_of_inside hinside, List.append_assoc]
      rfl
    · rw [if_neg hinside, RangeLoop.filter_cons_of_outside hinside]

theorem followJump_eq (w : FindWalk Address) : w.followJump range instruction =
    { w with queue := w.queue ++
      (if instruction.isJump then instruction.flows else []).filter range.Inside } := by
  rw [followJump]
  split_ifs
  · exact foldl_enqueue _ _
  · simp

theorem followFallThrough_eq (w : FindWalk Address) : w.followFallThrough range instruction =
    { w with queue := w.queue ++ instruction.fallThrough.toList.filter range.Inside } := by
  rw [followFallThrough]
  cases instruction.fallThrough with
  | some fallThrough => exact foldl_enqueue [fallThrough] w
  | none => simp

/-- The line that is printed for an address. -/
def lineAt (disassemble : PseudoDisassembler Address) (tokens : List String) (here : Address) :
    Option (Line Address) :=
  (decode disassemble here).bind fun instruction =>
    (firstToken tokens instruction.text).map fun token => .found here token instruction.text

omit [LinearOrder Address] in
theorem printMatch_eq (h : decode disassemble here = some instruction) (w : FindWalk Address) :
    w.printMatch tokens here instruction =
      { w with lines := w.lines ++ (lineAt disassemble tokens here).toList } := by
  rw [printMatch, lineAt, h, Option.bind_some]
  cases firstToken tokens instruction.text with
  | some token => rfl
  | none => simp

/-- The addresses in the range at which the code may go on. -/
def findEdges (disassemble : PseudoDisassembler Address) (range : CodeRange Address)
    (here : Address) : List Address :=
  match decode disassemble here with
  | none => []
  | some instruction => instruction.everyFollower.filter range.Inside

theorem visit_of_none (h : decode disassemble here = none) :
    w.visit disassemble range tokens here =
      { w with seen := w.seen ++ [here], errors := w.errors + 1 } := by
  rw [visit, h]

theorem visit_of_some (h : decode disassemble here = some instruction) :
    w.visit disassemble range tokens here = { w with
      seen := w.seen ++ [here]
      queue := w.queue ++ findEdges disassemble range here
      lines := w.lines ++ (lineAt disassemble tokens here).toList } := by
  rw [visit, h]
  dsimp only
  rw [printMatch_eq h, followJump_eq, followFallThrough_eq, findEdges, h]
  simp only [PseudoInstruction.everyFollower, List.filter_append, List.append_assoc]

theorem visit_seen : (w.visit disassemble range tokens here).seen = w.seen ++ [here] := by
  cases h : decode disassemble here with
  | none => rw [visit_of_none h]
  | some instruction => rw [visit_of_some h]

variable (disassemble range tokens monitor) in
/-- The loop over the queue. -/
def loop : RangeLoop Address (FindWalk Address) where
  queue := FindWalk.queue
  seen := FindWalk.seen
  range := range
  limit := limit
  goesOn w := !monitor w.polls
  removeFirst := removeFirst
  visit := visit disassemble range tokens
  queue_removeFirst _ _ := rfl
  seen_removeFirst _ _ := rfl
  seen_visit _ _ := visit_seen

theorem filter_findEdges : (findEdges disassemble range here).filter range.Inside =
    findEdges disassemble range here := by
  rw [findEdges]
  split
  · rfl
  · rw [List.filter_filter]
    simp only [Bool.and_self]

theorem loop_follows :
    (loop disassemble range tokens monitor).Follows (findEdges disassemble range) := by
  intro here w
  change ((w.visit disassemble range tokens here).queue).filter range.Inside =
    w.queue.filter range.Inside ++ _
  cases h : decode disassemble here with
  | none => rw [visit_of_none h, findEdges, h, List.append_nil]
  | some instruction => rw [visit_of_some h, List.filter_append, filter_findEdges]

/-- The lines and the errors are those of the visited addresses. -/
structure Sound (disassemble : PseudoDisassembler Address) (tokens : List String)
    (w : FindWalk Address) : Prop where
  lines : w.lines = w.seen.filterMap (lineAt disassemble tokens)
  errors : w.errors = w.seen.countP fun a => (decode disassemble a).isNone

theorem Sound.visit (h : w.Sound disassemble tokens) :
    (w.visit disassemble range tokens here).Sound disassemble tokens := by
  cases hdecode : decode disassemble here with
  | none =>
    have hline : lineAt disassemble tokens here = none := by rw [lineAt, hdecode, Option.bind_none]
    rw [visit_of_none hdecode]
    refine ⟨?_, ?_⟩
    · rw [List.filterMap_append, List.filterMap_cons_none hline, List.filterMap_nil, List.append_nil]
      exact h.lines
    · rw [List.countP_append, ← h.errors]
      simp [hdecode]
  | some instruction =>
    rw [visit_of_some hdecode]
    refine ⟨?_, ?_⟩
    · rw [List.filterMap_append, ← h.lines]
      cases hline : lineAt disassemble tokens here with
      | none => rw [List.filterMap_cons_none hline]; rfl
      | some line => rw [List.filterMap_cons_some hline]; rfl
    · rw [List.countP_append, ← h.errors]
      simp [hdecode]

theorem Sound.turn (h : w.Sound disassemble tokens)
    (hturn : (loop disassemble range tokens monitor).turn w = some w') :
    w'.Sound disassemble tokens := by
  obtain ⟨here, rest, -, -, -, ⟨-, rfl⟩ | ⟨-, -, rfl⟩⟩ :=
    (loop disassemble range tokens monitor).turn_cases hturn
  · exact ⟨h.lines, h.errors⟩
  · exact Sound.visit (w := w.removeFirst rest) ⟨h.lines, h.errors⟩

end FindWalk

open FindWalk

variable (disassemble : PseudoDisassembler Address) (range : CodeRange Address)
  (tokens : List String) (monitor : Monitor)

/-- The walk, at its end. -/
def walk : FindWalk Address :=
  (FindWalk.loop disassemble range (tokens.map toUpperCase) monitor).finish
    (FindWalk.initial range.start)

/-- `run`, with the addresses parsed: the lines printed, or the exception thrown. -/
def run : Except String (List (Line Address)) :=
  if tokens = [] then .error "Pass START END and one or more TOKEN values"
  else if range.limit ≤ range.start then .error "Require START < END"
  else
    let w := walk disassemble range tokens monitor
    .ok (w.lines ++
      [.summary range.start range.limit w.seen.length w.lines.length w.errors limit])

/-- A search that nobody cancels prints, for the first 12000 addresses that can be reached and in
breadth-first order, each instruction whose text contains one of the tokens, once and with the first
such token, and counts the addresses that do not decode. -/
theorem find_instructions_exact (h : range.start < range.limit) (htokens : tokens ≠ [])
    (huncancelled : ∀ turn, monitor turn = false) :
    ∃ seen : List Address, seen.Nodup ∧
      (∃ n, seen <+: BreadthFirst.order (findEdges disassemble range) range.start n) ∧
      (∀ a, a ∈ seen ↔
        BreadthFirst.AmongFirst (findEdges disassemble range) range.start limit a) ∧
      let found := seen.filterMap (lineAt disassemble (tokens.map toUpperCase))
      run disassemble range tokens monitor = .ok (found ++ [.summary range.start range.limit seen.length
        found.length (seen.countP fun a => (decode disassemble a).isNone) limit]) := by
  have hsearching : (FindWalk.loop disassemble range (tokens.map toUpperCase) monitor).Searching
      (findEdges disassemble range) range.start (FindWalk.initial range.start) :=
    RangeLoop.searching_start rfl rfl ⟨le_refl _, h⟩
  have hfinished := RangeLoop.finish_searching loop_follows hsearching
  have hsound : (walk disassemble range tokens monitor).Sound disassemble (tokens.map toUpperCase) :=
    (FindWalk.loop disassemble range (tokens.map toUpperCase) monitor).finish_of_invariant
      (fun _ _ hw hturn => hw.turn hturn) ⟨rfl, rfl⟩
  refine ⟨(walk disassemble range tokens monitor).seen, hfinished.walked.nodup,
    hfinished.walked.prefix_order, fun a => ?_, ?_⟩
  · refine hsearching.mem_seen_iff loop_follows ?_
    change (!monitor _) = true
    rw [huncancelled]
    rfl
  · intro found
    rw [run, if_neg htokens, if_neg (not_le.mpr h)]
    dsimp only
    rw [hsound.errors, hsound.lines]

/-- A jump at 0x10 to itself, with one token in upper case. -/
theorem find_instructions_exact_jump :
    let disassemble : PseudoDisassembler Nat := fun _ =>
      .ok (some ⟨2, true, false, false, [0x10], some 0x30, "JZ 0x10"⟩)
    ∃ lines, run disassemble ⟨0x10, 0x20⟩ ["cmp", "jz"] (fun _ => false) = .ok lines ∧
      .found 0x10 "JZ" "JZ 0x10" ∈ lines := by
  intro disassemble
  obtain ⟨seen, -, -, hseen, hrun⟩ := find_instructions_exact disassemble ⟨0x10, 0x20⟩ ["cmp", "jz"]
    (fun _ => false) (by decide) (by decide) fun _ => rfl
  have hmem : 0x10 ∈ seen := (hseen 0x10).mpr
    ⟨0, by simp [BreadthFirst.order, BreadthFirst.layers, limit]⟩
  refine ⟨_, hrun, List.mem_append_left _ (List.mem_filterMap.mpr ⟨0x10, hmem, ?_⟩)⟩
  decide +kernel

end FindInstructions
end Army3
