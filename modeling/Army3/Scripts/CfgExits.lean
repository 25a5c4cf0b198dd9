import Army3.Scripts.SummarizeCfg

/-! Which of the ways out of the range a summary lists. -/

namespace Army3
namespace SummarizeCfg

open BreadthFirst

variable {Address : Type} [LinearOrder Address]

namespace CfgWalk

variable {disassemble : PseudoDisassembler Address} {range : CodeRange Address} {monitor : Monitor}
  {here : Address} {w w' : CfgWalk Address} {exits : Std.TreeMap Address (Exit Address)}

/-- Under one address only the exit that is put last remains. -/
theorem getElem?_putExits_self (put : List (Exit Address)) :
    (putExits here put exits)[here]? = put.getLast?.or exits[here]? := by
  induction put generalizing exits with
  | nil => rfl
  | cons exit put ih =>
    change (putExits here put (exits.insert here exit))[here]? = _
    rw [ih, Std.TreeMap.getElem?_insert_self, List.getLast?_cons]
    cases put.getLast? with
    | none => rfl
    | some last => rfl

theorem getElem?_putExits_of_ne (put : List (Exit Address)) {a : Address} (h : here ≠ a) :
    (putExits here put exits)[a]? = exits[a]? := by
  induction put generalizing exits with
  | nil => rfl
  | cons exit put ih =>
    change (putExits here put (exits.insert here exit))[a]? = _
    rw [ih, Std.TreeMap.getElem?_insert, if_neg (mt compare_eq_iff_eq.mp h)]

/-- What holds between the turns of the walk. -/
structure Sound (disassemble : PseudoDisassembler Address) (range : CodeRange Address)
    (w : CfgWalk Address) : Prop where
  walk : RangeWalk disassemble range limit range.start w.seen w.queue
  exits : ∀ a, w.exits[a]? =
    if a ∈ w.seen then ((decode disassemble a).elim [] (exitsOf range)).getLast? else none

theorem sound_initial (h : range.start < range.limit) :
    (initial range.start).Sound disassemble range where
  walk := rangeWalk_start ⟨le_refl _, h⟩
  exits a := by simp [initial]

theorem Sound.visit (h : w.Sound disassemble range) {queue : List Address}
    (hqueue : w.queue = here :: queue) (hlimit : w.seen.length < limit) (hnew : here ∉ w.seen) :
    ((w.removeFirst queue).visit disassemble range here).Sound disassemble range := by
  constructor
  · rw [visit_seen, visit_queue]
    exact (hqueue ▸ h.walk).visit hlimit hnew
  · intro a
    rw [visit_seen, visit_exits, removeFirst_seen, removeFirst_exits]
    have hexits := h.exits a
    by_cases hah : here = a
    · subst hah
      rw [if_neg hnew] at hexits
      rw [getElem?_putExits_self, if_pos (List.mem_append_right _ (List.mem_singleton_self _)),
        hexits, Option.or_none]
    · rw [getElem?_putExits_of_ne _ hah, hexits]
      simp [Ne.symm hah]

theorem Sound.turn (h : w.Sound disassemble range)
    (hturn : (loop disassemble range monitor).turn w = some w') : w'.Sound disassemble range := by
  obtain ⟨here, queue, hqueue, hlimit, -, hcases⟩ :=
    (loop disassemble range monitor).turn_cases hturn
  change w.queue = here :: queue at hqueue
  rcases hcases with ⟨hskip, rfl⟩ | ⟨-, hnew, rfl⟩
  · exact ⟨(hqueue ▸ h.walk).skip hskip, h.exits⟩
  · exact h.visit hqueue hlimit hnew

/-- The walk has not been cut off: no address that it came to is left unvisited. -/
def Exhausted (w : CfgWalk Address) : Prop := ∀ a ∈ w.queue, a ∈ w.seen

end CfgWalk

open CfgWalk

variable (disassemble : PseudoDisassembler Address) (range : CodeRange Address) (monitor : Monitor)

/-- The instruction leaves the range in at most one way. -/
def LeavesOneWay (instruction : PseudoInstruction Address) : Prop :=
  ∀ exit ∈ exitsOf range instruction, ∀ other ∈ exitsOf range instruction, exit = other

/-- Every way out of the range that the instruction at an address has is in a line. -/
def Listed (lines : List (Line Address)) (address : Address)
    (instruction : PseudoInstruction Address) : Prop :=
  ∀ exit ∈ exitsOf range instruction, .exit address exit ∈ lines

variable {disassemble range}

theorem walk_sound (h : range.start < range.limit) :
    (walk disassemble range monitor).Sound disassemble range :=
  RangeLoop.finish_of_invariant _ (fun _ _ hw hturn => hw.turn hturn) (CfgWalk.sound_initial h)

theorem exit_mem_report {w : CfgWalk Address} {address : Address} {exit : Exit Address} :
    .exit address exit ∈ report range w ↔ w.exits[address]? = some exit := by
  rw [← Std.TreeMap.mem_toList_iff_getElem?_eq_some]
  simp [report]

theorem forall_getLast?_iff {α : Type} {l : List α} :
    (∀ a ∈ l, l.getLast? = some a) ↔ ∀ a ∈ l, ∀ b ∈ l, a = b := by
  constructor
  · intro h a ha b hb
    have hsame := (h a ha).symm.trans (h b hb)
    exact Option.some.inj hsame
  · intro h a ha
    cases hlast : l.getLast? with
    | none =>
      rw [List.getLast?_eq_none_iff.mp hlast] at ha
      cases ha
    | some last => rw [h a ha last (List.mem_of_getLast? hlast)]

/-- The exits of a visited instruction are all listed exactly when it leaves in one way. -/
theorem CfgWalk.Sound.listed_iff {w : CfgWalk Address} (h : w.Sound disassemble range)
    {address : Address} {instruction : PseudoInstruction Address} (hseen : address ∈ w.seen)
    (hdecode : decode disassemble address = some instruction) :
    Listed range (report range w) address instruction ↔ LeavesOneWay range instruction := by
  have hexits := h.exits address
  rw [if_pos hseen, hdecode, Option.elim_some] at hexits
  rw [LeavesOneWay, ← forall_getLast?_iff, Listed]
  simp only [exit_mem_report, hexits]

/-- A walk that nobody cancels is cut off exactly if more addresses can be reached than it may
visit. -/
theorem exhausted_iff_atMost (hrange : range.start < range.limit)
    (huncancelled : ∀ turn, monitor turn = false) :
    (walk disassemble range monitor).Exhausted ↔
      AtMost (edges disassemble range) range.start limit := by
  have hsound : (walk disassemble range monitor).Sound disassemble range :=
    walk_sound monitor hrange
  have hends : limit ≤ (walk disassemble range monitor).seen.length ∨
      (walk disassemble range monitor).queue = [] := by
    rcases (CfgWalk.loop disassemble range monitor).finish_cases (CfgWalk.initial range.start)
      with hqueue | hlimit | hstops
    · exact .inr hqueue
    · exact .inl hlimit
    · change (!monitor _) = false at hstops
      rw [huncancelled] at hstops
      cases hstops
  exact (hsound.walk.walked.atMost_iff hsound.walk.bounded hends).symm

/-- When a summary lists every way out of the range: of a visited instruction, if it has only one;
of all of them in a walk that is not cut off, if no instruction that can be reached has two. -/
theorem exits_listed_iff (hrange : range.start < range.limit) :
    ∃ lines, run disassemble range monitor = .ok lines ∧
      (∀ address ∈ (walk disassemble range monitor).seen, ∀ instruction,
        decode disassemble address = some instruction →
          (Listed range lines address instruction ↔ LeavesOneWay range instruction)) ∧
      ((walk disassemble range monitor).Exhausted →
        ((∀ address ∈ (walk disassemble range monitor).seen, ∀ instruction,
          decode disassemble address = some instruction →
            Listed range lines address instruction) ↔
        ∀ address, Reaches (edges disassemble range) range.start address → ∀ instruction,
          decode disassemble address = some instruction → LeavesOneWay range instruction)) := by
  have hsound : (walk disassemble range monitor).Sound disassemble range :=
    walk_sound monitor hrange
  refine ⟨report range (walk disassemble range monitor), if_pos hrange,
    fun address hseen instruction hdecode => hsound.listed_iff hseen hdecode, ?_⟩
  intro hexhausted
  constructor
  · intro hlisted address hreach instruction hdecode
    have hseen := (hsound.walk.walked.mem_seen_iff hexhausted).mpr hreach
    exact (hsound.listed_iff hseen hdecode).mp (hlisted address hseen instruction hdecode)
  · intro hone address hseen instruction hdecode
    have hreach := (hsound.walk.walked.mem_seen_iff hexhausted).mp hseen
    exact (hsound.listed_iff hseen hdecode).mpr (hone address hreach instruction hdecode)

/-- A conditional jump out of the range at its last address. -/
def jumpOut : PseudoInstruction Nat :=
  ⟨2, true, false, false, [48], some 32, "JZ 0x30"⟩

theorem exits_listed_jumpOut : ∃ lines,
    run (fun _ => .ok (some jumpOut)) ⟨30, 32⟩ (fun _ => false) = .ok lines ∧
      (∀ address ∈ (walk (fun _ => .ok (some jumpOut)) ⟨30, 32⟩ (fun _ => false)).seen,
        ∀ instruction, decode (fun _ => .ok (some jumpOut)) address = some instruction →
          (Listed ⟨30, 32⟩ lines address instruction ↔ LeavesOneWay ⟨30, 32⟩ instruction)) ∧
      ((walk (fun _ => .ok (some jumpOut)) ⟨30, 32⟩ (fun _ => false)).Exhausted →
        ((∀ address ∈ (walk (fun _ => .ok (some jumpOut)) ⟨30, 32⟩ (fun _ => false)).seen,
          ∀ instruction, decode (fun _ => .ok (some jumpOut)) address = some instruction →
            Listed ⟨30, 32⟩ lines address instruction) ↔
        ∀ address, Reaches (edges (fun _ => .ok (some jumpOut)) ⟨30, 32⟩) 30 address →
          ∀ instruction, decode (fun _ => .ok (some jumpOut)) address = some instruction →
            LeavesOneWay ⟨30, 32⟩ instruction)) :=
  exits_listed_iff _ (by decide)

theorem exit_overwritten : ¬ ∀ (disassemble : PseudoDisassembler Nat) (range : CodeRange Nat)
    (monitor : Monitor) (lines : List (Line Nat)), range.start < range.limit →
      run disassemble range monitor = .ok lines →
      (walk disassemble range monitor).Exhausted →
      ∀ address ∈ (walk disassemble range monitor).seen, ∀ instruction,
        decode disassemble address = some instruction →
          Listed range lines address instruction := by
  intro hclaim
  have hwalk : walk (fun _ => .ok (some jumpOut)) ⟨30, 32⟩ (fun _ => false) =
      ⟨[], [30], ∅, ∅, ∅, (∅ : Std.TreeMap Nat (Exit Nat)).insert 30 (.fallThrough "JZ 0x30" 32),
        0, 0, 1⟩ := StepLoop.finish_eq_after _ 1 rfl
  have hlisted := hclaim (fun _ => .ok (some jumpOut)) ⟨30, 32⟩ (fun _ => false) _ (by decide) rfl
  rw [hwalk] at hlisted
  have hline := hlisted (fun a ha => absurd ha List.not_mem_nil) 30 (List.mem_singleton_self 30)
    jumpOut rfl (.jump "JZ 0x30" 48) (by decide)
  rw [exit_mem_report] at hline
  exact absurd hline (by decide)

end SummarizeCfg
end Army3
