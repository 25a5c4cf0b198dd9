import Mathlib.Data.List.Infix

/-! Systems that take one event after another: what holds at the end, and all the way. -/

namespace Army3
namespace EventRun

variable {σ ε : Type} (step : σ → ε → σ)

def run (s : σ) (events : List ε) : σ := events.foldl step s

/-- Every state on the way has the property, the first and the last included. -/
def Throughout (P : σ → Prop) (s : σ) (events : List ε) : Prop :=
  ∀ done, done <+: events → P (run step s done)

variable {step} {P : σ → Prop} {s : σ} {events : List ε} {event : ε}

theorem run_concat : run step s (events ++ [event]) = step (run step s events) event :=
  List.foldl_append

theorem run_append {more : List ε} :
    run step s (events ++ more) = run step (run step s events) more := List.foldl_append

theorem invariant (hstep : ∀ s event, P s → P (step s event)) (h : P s) (events : List ε) :
    P (run step s events) := by
  induction events generalizing s with
  | nil => exact h
  | cons event events ih => exact ih (hstep s event h)

/-- What no event undoes still holds later. -/
theorem stays (hstep : ∀ s event, P s → P (step s event)) {done : List ε} (hdone : done <+: events)
    (h : P (run step s done)) : P (run step s events) := by
  obtain ⟨more, rfl⟩ := hdone
  rw [run_append]
  exact invariant hstep h more

theorem throughout_concat :
    Throughout step P s (events ++ [event]) ↔
      Throughout step P s events ∧ P (run step s (events ++ [event])) := by
  simp only [Throughout, List.prefix_concat_iff]
  constructor
  · intro h
    exact ⟨fun done hdone => h done (.inr hdone), h _ (.inl rfl)⟩
  · rintro ⟨h, hlast⟩ done (rfl | hdone)
    · exact hlast
    · exact h done hdone

theorem Throughout.last (h : Throughout step P s events) : P (run step s events) :=
  h events List.prefix_rfl

end EventRun
end Army3
