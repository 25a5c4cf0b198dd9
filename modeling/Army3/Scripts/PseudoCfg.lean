import Army3.Framework.BreadthFirst
import Army3.Framework.StepLoop

/-! The decoded code that the Ghidra scripts walk over. -/

namespace Army3

/-- What the walks ask of a `PseudoInstruction`. -/
structure PseudoInstruction (Address : Type) where
  length : Int
  isJump : Bool
  isCall : Bool
  isComputed : Bool
  flows : List Address
  fallThrough : Option Address
  text : String
  deriving DecidableEq, Repr

/-- `PseudoDisassembler.disassemble`, which throws or may return null. -/
abbrev PseudoDisassembler (Address : Type) :=
  Address → Except String (Option (PseudoInstruction Address))

/-- The code from `start` up to but not including `limit`. -/
structure CodeRange (Address : Type) where
  start : Address
  limit : Address

/-- `monitor.isCancelled()`, by the number of the turn in which it is asked. -/
abbrev Monitor := Nat → Bool

section
variable {Address : Type}

/-- A jump whose targets are not known. -/
def PseudoInstruction.IsIndirect (instruction : PseudoInstruction Address) : Prop :=
  instruction.isJump = true ∧ (instruction.isComputed = true ∨ instruction.flows = [])

/-- The targets of a jump that are known. -/
def PseudoInstruction.directFlows (instruction : PseudoInstruction Address) : List Address :=
  if instruction.isJump && !instruction.isComputed then instruction.flows else []

/-- The addresses at which the code may go on. -/
def PseudoInstruction.followers (instruction : PseudoInstruction Address) : List Address :=
  instruction.directFlows ++ instruction.fallThrough.toList

/-- The addresses at which the code may go on, with what is known of the targets of a computed
jump. -/
def PseudoInstruction.everyFollower (instruction : PseudoInstruction Address) : List Address :=
  (if instruction.isJump then instruction.flows else []) ++ instruction.fallThrough.toList

/-- The instruction at an address, where a walk counts no error. -/
def decode (disassemble : PseudoDisassembler Address) (here : Address) :
    Option (PseudoInstruction Address) :=
  match disassemble here with
  | .error _ => none
  | .ok none => none
  | .ok (some instruction) => if instruction.length < 1 then none else some instruction

/-- There is a jump at the address whose targets are not known. -/
def IsIndirectSite (disassemble : PseudoDisassembler Address) (here : Address) : Prop :=
  ∃ instruction, decode disassemble here = some instruction ∧ instruction.IsIndirect

variable {disassemble : PseudoDisassembler Address} {here : Address}
  {instruction : PseudoInstruction Address}

theorem PseudoInstruction.directFlows_of_unknown
    (h : (instruction.isComputed || instruction.flows.isEmpty) = true) :
    instruction.directFlows = [] := by
  rw [directFlows]
  rcases Bool.or_eq_true_iff.mp h with hcomputed | hempty
  · simp [hcomputed]
  · simp [List.isEmpty_iff.mp hempty]

theorem PseudoInstruction.directFlows_of_known (hjump : instruction.isJump = true)
    (h : ¬ (instruction.isComputed || instruction.flows.isEmpty) = true) :
    instruction.directFlows = instruction.flows := by
  have hdirect : instruction.isComputed = false := by
    simp only [Bool.or_eq_true, not_or, Bool.not_eq_true] at h
    exact h.1
  simp [directFlows, hjump, hdirect]

theorem PseudoInstruction.directFlows_of_not_isJump (h : ¬ instruction.isJump = true) :
    instruction.directFlows = [] := by
  simp [directFlows, h]

theorem PseudoInstruction.isIndirect_iff : instruction.IsIndirect ↔ instruction.isJump = true ∧
    (instruction.isComputed || instruction.flows.isEmpty) = true := by
  rw [IsIndirect, Bool.or_eq_true, List.isEmpty_iff]

theorem PseudoInstruction.everyFollower_of_not_isIndirect (h : ¬ instruction.IsIndirect) :
    instruction.everyFollower = instruction.followers := by
  rw [isIndirect_iff, not_and] at h
  rw [everyFollower, followers]
  by_cases hjump : instruction.isJump = true
  · rw [if_pos hjump, directFlows_of_known hjump (h hjump)]
  · rw [if_neg hjump, directFlows_of_not_isJump hjump]

theorem disassemble_of_decode
    (h : decode disassemble here = some instruction) :
    disassemble here = .ok (some instruction) := by
  rw [decode] at h
  split at h
  · cases h
  · cases h
  · rename_i found hfound
    split_ifs at h
    rw [hfound, Option.some.inj h]

theorem isIndirectSite_iff (h : decode disassemble here = some instruction) :
    IsIndirectSite disassemble here ↔ instruction.IsIndirect := by
  simp [IsIndirectSite, h]

theorem not_isIndirectSite (h : decode disassemble here = none) :
    ¬ IsIndirectSite disassemble here := by
  simp [IsIndirectSite, h]

variable [LinearOrder Address]

def CodeRange.Inside (range : CodeRange Address) (here : Address) : Prop :=
  range.start ≤ here ∧ here < range.limit

instance (range : CodeRange Address) (here : Address) : Decidable (range.Inside here) :=
  inferInstanceAs (Decidable (_ ∧ _))

/-- The direct jumps and fall-throughs from an address that stay in the range. -/
def edges (disassemble : PseudoDisassembler Address) (range : CodeRange Address)
    (here : Address) : List Address :=
  match decode disassemble here with
  | none => []
  | some instruction => instruction.followers.filter range.Inside

variable {range : CodeRange Address} {next : Address}

theorem edges_of_none (h : decode disassemble here = none) : edges disassemble range here = [] := by
  rw [edges, h]

theorem edges_of_some (h : decode disassemble here = some instruction) :
    edges disassemble range here = instruction.followers.filter range.Inside := by
  rw [edges, h]

theorem edges_visited (h : decode disassemble here = some instruction) :
    edges disassemble range here = instruction.directFlows.filter range.Inside ++
      instruction.fallThrough.toList.filter range.Inside := by
  rw [edges_of_some h, PseudoInstruction.followers, List.filter_append]

theorem inside_of_mem_edges (h : next ∈ edges disassemble range here) : range.Inside next := by
  cases hdecode : decode disassemble here with
  | none =>
    rw [edges_of_none hdecode] at h
    cases h
  | some instruction =>
    rw [edges_of_some hdecode, List.mem_filter] at h
    exact of_decide_eq_true h.2

variable (disassemble range) in
/-- A walk from `start` that asks whether it has visited an address when it takes it from the queue:
it has visited `seen`, in this order, and has `queue` before it. -/
structure RangeWalk (limit : Nat) (start : Address) (seen queue : List Address) : Prop where
  walked : BreadthFirst.Walked (edges disassemble range) start seen queue
  bounded : seen.length ≤ limit
  inside : ∀ a ∈ queue, range.Inside a

variable {limit : Nat} {start : Address} {seen queue : List Address}

theorem rangeWalk_start (h : range.Inside start) :
    RangeWalk disassemble range limit start [] [start] := by
  refine ⟨BreadthFirst.walked_start, Nat.zero_le limit, fun a ha => ?_⟩
  rw [List.mem_singleton.mp ha]
  exact h

theorem RangeWalk.skip (h : RangeWalk disassemble range limit start seen (here :: queue))
    (hskip : ¬ range.Inside here ∨ here ∈ seen) :
    RangeWalk disassemble range limit start seen queue := by
  have hinside : range.Inside here := h.inside here List.mem_cons_self
  have hseen : here ∈ seen := hskip.resolve_left (not_not_intro hinside)
  exact ⟨h.walked.skip hseen, h.bounded, fun a ha => h.inside a (List.mem_cons_of_mem here ha)⟩

theorem RangeWalk.visit (h : RangeWalk disassemble range limit start seen (here :: queue))
    (hlimit : seen.length < limit) (hnew : here ∉ seen) :
    RangeWalk disassemble range limit start (seen ++ [here])
      (queue ++ edges disassemble range here) := by
  refine ⟨h.walked.visit hnew, ?_, fun a ha => ?_⟩
  · rw [List.length_append, List.length_singleton]
    exact hlimit
  · rcases List.mem_append.mp ha with hold | hedge
    · exact h.inside a (List.mem_cons_of_mem here hold)
    · exact inside_of_mem_edges hedge

/-- The loop that the walks share. It goes on while there is an address to visit, the limit is not
reached and the walk wants to; it takes the first address from the queue, passes over it if it is
outside of the range or has been visited, and visits it otherwise. -/
structure RangeLoop (Address σ : Type) where
  queue : σ → List Address
  seen : σ → List Address
  range : CodeRange Address
  limit : Nat
  goesOn : σ → Bool
  removeFirst : List Address → σ → σ
  visit : Address → σ → σ
  queue_removeFirst : ∀ rest w, queue (removeFirst rest w) = rest
  seen_removeFirst : ∀ rest w, seen (removeFirst rest w) = seen w
  seen_visit : ∀ a w, seen (visit a w) = seen w ++ [a]

namespace RangeLoop

variable {σ : Type} (loop : RangeLoop Address σ) {w w' : σ}

/-- One turn of the loop; none if its condition does not hold. -/
def turn (w : σ) : Option σ :=
  match loop.queue w with
  | [] => none
  | here :: rest =>
    if (loop.seen w).length < loop.limit ∧ loop.goesOn w = true then
      let w := loop.removeFirst rest w
      if ¬ loop.range.Inside here ∨ (loop.seen w).contains here then some w
      else some (loop.visit here w)
    else none

/-- All that a turn can do. -/
theorem turn_cases (h : loop.turn w = some w') :
    ∃ here rest, loop.queue w = here :: rest ∧ (loop.seen w).length < loop.limit ∧
      loop.goesOn w = true ∧
      (((¬ loop.range.Inside here ∨ here ∈ loop.seen w) ∧ w' = loop.removeFirst rest w) ∨
        (loop.range.Inside here ∧ here ∉ loop.seen w ∧
          w' = loop.visit here (loop.removeFirst rest w))) := by
  simp only [turn] at h
  cases hqueue : loop.queue w with
  | nil =>
    rw [hqueue] at h
    cases h
  | cons here rest =>
    rw [hqueue] at h
    dsimp only at h
    simp only [List.contains_iff_mem, loop.seen_removeFirst] at h
    split_ifs at h with hgoes hskip
    · exact ⟨here, rest, rfl, hgoes.1, hgoes.2, .inl ⟨hskip, (Option.some.inj h).symm⟩⟩
    · rw [not_or, not_not] at hskip
      exact ⟨here, rest, rfl, hgoes.1, hgoes.2,
        .inr ⟨hskip.1, hskip.2, (Option.some.inj h).symm⟩⟩

theorem turn_eq_none (h : loop.turn w = none) :
    loop.queue w = [] ∨ loop.limit ≤ (loop.seen w).length ∨ loop.goesOn w = false := by
  simp only [turn] at h
  cases hqueue : loop.queue w with
  | nil => exact .inl rfl
  | cons here rest =>
    rw [hqueue] at h
    dsimp only at h
    split_ifs at h with hgoes
    rw [not_and_or, not_lt, Bool.not_eq_true] at hgoes
    exact .inr hgoes

/-- Each turn visits an address or takes one from the queue. -/
def toStepLoop : StepLoop σ where
  turn := loop.turn
  budget w := loop.limit - (loop.seen w).length
  pending w := (loop.queue w).length
  progress := by
    intro w w' h
    obtain ⟨here, rest, hqueue, hlimit, -, ⟨-, rfl⟩ | ⟨-, -, rfl⟩⟩ := loop.turn_cases h
    · refine .inr ⟨?_, ?_⟩
      · rw [loop.seen_removeFirst]
      · rw [loop.queue_removeFirst, hqueue]
        exact Nat.lt_succ_self rest.length
    · refine .inl ?_
      rw [loop.seen_visit, loop.seen_removeFirst, List.length_append, List.length_singleton]
      omega

/-- The state in which the loop ends. -/
def finish (w : σ) : σ := loop.toStepLoop.finish w

theorem finish_of_invariant {P : σ → Prop}
    (hstep : ∀ w w', P w → loop.turn w = some w' → P w') (hw : P w) : P (loop.finish w) :=
  loop.toStepLoop.finish_of_invariant hstep hw

/-- Why a walk has ended. -/
theorem finish_cases (w : σ) : loop.queue (loop.finish w) = [] ∨
    loop.limit ≤ (loop.seen (loop.finish w)).length ∨ loop.goesOn (loop.finish w) = false :=
  loop.turn_eq_none (loop.toStepLoop.turn_finish w)

end RangeLoop

end

end Army3
