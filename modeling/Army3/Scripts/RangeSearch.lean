import Army3.Scripts.PseudoCfg

/-! What any walk over a range visits that puts what follows on an address in its queue. -/

namespace Army3
namespace RangeLoop

open BreadthFirst

variable {Address σ : Type} [LinearOrder Address] (loop : RangeLoop Address σ)

/-- The addresses in the queue that are not passed over for being outside of the range. -/
def waiting (w : σ) : List Address := (loop.queue w).filter loop.range.Inside

/-- A visit puts the addresses that follow in the queue, and perhaps some outside of the range. -/
def Follows (succ : Address → List Address) : Prop :=
  ∀ a w, loop.waiting (loop.visit a w) = loop.waiting w ++ succ a

/-- A walk between two turns. -/
structure Searching (succ : Address → List Address) (start : Address) (w : σ) : Prop where
  walked : Walked succ start (loop.seen w) (loop.waiting w)
  bounded : (loop.seen w).length ≤ loop.limit

variable {loop} {succ : Address → List Address} {start : Address} {w w' : σ}

theorem filter_cons_of_inside {range : CodeRange Address} {a : Address} (h : range.Inside a)
    (rest : List Address) : (a :: rest).filter range.Inside = a :: rest.filter range.Inside := by
  simp [h]

theorem filter_cons_of_outside {range : CodeRange Address} {a : Address} (h : ¬ range.Inside a)
    (rest : List Address) : (a :: rest).filter range.Inside = rest.filter range.Inside := by
  simp [h]

theorem searching_start (hqueue : loop.queue w = [start]) (hseen : loop.seen w = [])
    (hinside : loop.range.Inside start) : loop.Searching succ start w := by
  refine ⟨?_, ?_⟩
  · rw [waiting, hqueue, hseen, filter_cons_of_inside hinside]
    exact walked_start
  · rw [hseen]
    exact Nat.zero_le _

theorem waiting_removeFirst (rest : List Address) :
    loop.waiting (loop.removeFirst rest w) = rest.filter loop.range.Inside := by
  rw [waiting, loop.queue_removeFirst]

theorem Searching.turn (hfollows : loop.Follows succ) (h : loop.Searching succ start w)
    (hturn : loop.turn w = some w') : loop.Searching succ start w' := by
  obtain ⟨here, rest, hqueue, hlimit, -, ⟨hskip, rfl⟩ | ⟨hinside, hnew, rfl⟩⟩ :=
    loop.turn_cases hturn
  · refine ⟨?_, ?_⟩
    · have hwalked := h.walked
      rw [waiting, hqueue] at hwalked
      rw [loop.seen_removeFirst, waiting_removeFirst]
      by_cases hinside : loop.range.Inside here
      · rw [filter_cons_of_inside hinside] at hwalked
        exact hwalked.skip (hskip.resolve_left (not_not_intro hinside))
      · rw [filter_cons_of_outside hinside] at hwalked
        exact hwalked
    · rw [loop.seen_removeFirst]
      exact h.bounded
  · have hwalked := h.walked
    rw [waiting, hqueue, filter_cons_of_inside hinside] at hwalked
    refine ⟨?_, ?_⟩
    · rw [loop.seen_visit, loop.seen_removeFirst, hfollows, waiting_removeFirst]
      exact hwalked.visit hnew
    · rw [loop.seen_visit, loop.seen_removeFirst, List.length_append, List.length_singleton]
      exact hlimit

theorem finish_searching (hfollows : loop.Follows succ) (h : loop.Searching succ start w) :
    loop.Searching succ start (loop.finish w) :=
  loop.finish_of_invariant (fun _ _ hw hturn => hw.turn hfollows hturn) h

/-- A walk that has not been stopped has visited the first so many addresses that can be reached, in
breadth-first order. -/
theorem Searching.mem_seen_iff (hfollows : loop.Follows succ) (h : loop.Searching succ start w)
    (hgoes : loop.goesOn (loop.finish w) = true) {a : Address} :
    a ∈ loop.seen (loop.finish w) ↔ AmongFirst succ start loop.limit a := by
  obtain ⟨hwalked, hbounded⟩ := finish_searching hfollows h
  refine ⟨hwalked.amongFirst hbounded, hwalked.mem_of_amongFirst ?_⟩
  rcases loop.finish_cases w with hempty | hlimit | hstopped
  · refine .inr fun b hb => ?_
    rw [waiting, hempty] at hb
    cases hb
  · exact .inl hlimit
  · rw [hgoes] at hstopped
    cases hstopped

theorem Searching.amongFirst_of_mem_seen (hfollows : loop.Follows succ)
    (h : loop.Searching succ start w) {a : Address} (ha : a ∈ loop.seen (loop.finish w)) :
    AmongFirst succ start loop.limit a := by
  obtain ⟨hwalked, hbounded⟩ := finish_searching hfollows h
  exact hwalked.amongFirst hbounded ha

/-- A walk that starts outside of the range visits nothing. -/
theorem seen_finish_of_outside (hqueue : loop.queue w = [start]) (hseen : loop.seen w = [])
    (houtside : ¬ loop.range.Inside start) : loop.seen (loop.finish w) = [] := by
  have hall := loop.finish_of_invariant (w := w)
    (P := fun w => loop.seen w = [] ∧ ∀ a ∈ loop.queue w, ¬ loop.range.Inside a) ?_ ⟨hseen, ?_⟩
  · exact hall.1
  · intro w w' hw hturn
    obtain ⟨here, rest, hfirst, -, -, ⟨-, rfl⟩ | ⟨hinside, -⟩⟩ := loop.turn_cases hturn
    · rw [loop.seen_removeFirst, loop.queue_removeFirst]
      exact ⟨hw.1, fun a ha => hw.2 a (hfirst ▸ List.mem_cons_of_mem here ha)⟩
    · exact absurd hinside (hw.2 here (hfirst ▸ List.mem_cons_self))
  · intro a ha
    rw [hqueue, List.mem_singleton] at ha
    rw [ha]
    exact houtside

end RangeLoop
end Army3
