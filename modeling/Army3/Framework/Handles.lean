import Army3.Framework.Tracing

/-! Handles: opened, used while they are open, and closed once. -/

namespace Army3

inductive HandleEvent (η : Type) where
  | opens (handle : η)
  | uses (handle : η)
  | closes (handle : η)
  | other
  deriving DecidableEq

namespace HandleEvent

variable {η : Type} [DecidableEq η]

/-- The handles held afterwards; there are none after a step that breaks the rules. -/
def step (held : List η) : HandleEvent η → Option (List η)
  | .opens handle => if handle ∈ held then none else some (handle :: held)
  | .uses handle => if handle ∈ held then some held else none
  | .closes handle => if handle ∈ held then some (held.erase handle) else none
  | .other => some held

variable {ω : Type} (view : ω → HandleEvent η)

/-- The steps keep the rules, and lead from some handles held to others. -/
def Moves (held : List η) (trace : List ω) (held' : List η) : Prop :=
  (trace.map view).foldlM step held = some held'

variable {view} {held held' held'' : List η} {first later trace : List ω} {event last : ω} {handle : η}

theorem Moves.nil : Moves view held [] held := rfl

theorem moves_cons : Moves view held (event :: trace) held'' ↔
    ∃ held', step held (view event) = some held' ∧ Moves view held' trace held'' := by
  simp only [Moves, List.map_cons, List.foldlM_cons, Option.bind_eq_bind, Option.bind_eq_some_iff]

theorem Moves.append (hfirst : Moves view held first held') (hlater : Moves view held' later held'') :
    Moves view held (first ++ later) held'' := by
  induction first generalizing held with
  | nil =>
    obtain rfl := Option.some.inj hfirst
    exact hlater
  | cons event first ih =>
    obtain ⟨next, hstep, hrest⟩ := moves_cons.mp hfirst
    exact moves_cons.mpr ⟨next, hstep, ih hrest⟩

theorem Moves.of_stays (h : ∀ event ∈ trace, step held (view event) = some held) :
    Moves view held trace held := by
  induction trace with
  | nil => exact .nil
  | cons event trace ih =>
    obtain ⟨hfirst, hlater⟩ := List.forall_mem_cons.mp h
    exact moves_cons.mpr ⟨held, hfirst, ih hlater⟩

section

open Traced

variable {ε α β : Type} {x : Traced ω ε α} {f : α → Traced ω ε β}

variable (view) in
/-- As many handles are held afterwards as before, whether it comes back or raises. -/
def Keeps (held : List η) (x : Traced ω ε α) : Prop := Moves view held x.trace held

variable (view) in
/-- It comes back with a handle that is held from then on, or raises and leaves none behind. -/
structure Acquires (held : List η) (x : Traced ω ε η) : Prop where
  ok : ∀ handle, x.result = .ok handle → handle ∉ held ∧ Moves view held x.trace (handle :: held)
  error : ∀ e, x.result = .error e → Moves view held x.trace held

theorem keeps_pure {a : α} : Keeps view held (pure a : Traced ω ε α) := .nil

theorem keeps_raise {e : ε} : Keeps view held (raise e : Traced ω ε α) := .nil

theorem keeps_raiseIf {condition : Prop} [Decidable condition] {e : ε} :
    Keeps view held (raiseIf condition e : Traced ω ε Unit) := by
  unfold raiseIf
  split
  · exact keeps_raise
  · exact keeps_pure

theorem Keeps.of_every (h : Every (fun event => step held (view event) = some held) x) :
    Keeps view held x := .of_stays h

theorem keeps_ask {answer : Except ε α} (h : step held (view event) = some held) :
    Keeps view held (ask event answer) := .of_every (every_ask.mpr h)

theorem keeps_bind (hx : Keeps view held x) (hf : ∀ a, x.result = .ok a → Keeps view held (f a)) :
    Keeps view held (x >>= f) := by
  cases h : x.result with
  | ok a =>
    rw [Keeps, bind_of_ok h]
    exact hx.append (hf a h)
  | error e =>
    rw [Keeps, bind_of_error h]
    exact hx

/-- The handle is closed when the body comes back and when it raises. -/
theorem keeps_session {acquire : Traced ω ε η} {body : η → Traced ω ε β} {close : η → ω}
    (hacquire : Acquires view held acquire) (hclose : ∀ handle, view (close handle) = .closes handle)
    (hbody : ∀ handle, acquire.result = .ok handle → Keeps view (handle :: held) (body handle)) :
    Keeps view held (acquire >>= fun handle => (body handle).andFinally (close handle)) := by
  cases h : acquire.result with
  | ok handle =>
    rw [Keeps, bind_of_ok h]
    refine (hacquire.ok handle h).2.append ((hbody handle h).append (moves_cons.mpr ⟨held, ?_, .nil⟩))
    rw [hclose, step, if_pos List.mem_cons_self, List.erase_cons_head]
  | error e =>
    rw [Keeps, bind_of_error h]
    exact hacquire.error e h

theorem Acquires.after {f : α → Traced ω ε η} (hx : Keeps view held x)
    (hf : ∀ a, x.result = .ok a → Acquires view held (f a)) : Acquires view held (x >>= f) := by
  cases h : x.result with
  | ok a =>
    rw [bind_of_ok h]
    refine ⟨fun handle hok => ?_, fun e he => hx.append ((hf a h).error e he)⟩
    obtain ⟨hfresh, hmoves⟩ := (hf a h).ok handle hok
    exact ⟨hfresh, hx.append hmoves⟩
  | error e =>
    rw [bind_of_error h]
    refine ⟨fun handle hok => ?_, fun _ _ => hx⟩
    cases hok

/-- A handle that is tried out first: where that raises, it is closed at once. -/
theorem Acquires.checked {opens : Traced ω ε η} {check : η → Traced ω ε Unit} {close : η → ω}
    (hopens : Acquires view held opens) (hclose : ∀ handle, view (close handle) = .closes handle)
    (hcheck : ∀ handle, opens.result = .ok handle → Keeps view (handle :: held) (check handle)) :
    Acquires view held
      (opens >>= fun handle => (check handle).onError (close handle) >>= fun _ => pure handle) := by
  cases h : opens.result with
  | error e =>
    rw [bind_of_error h]
    refine ⟨fun handle hok => ?_, fun e' _ => hopens.error e h⟩
    cases hok
  | ok handle =>
    rw [bind_of_ok h]
    obtain ⟨hfresh, hmoves⟩ := hopens.ok handle h
    have hkeeps := hcheck handle h
    cases hresult : (check handle).result with
    | ok done =>
      have honError : (check handle).onError (close handle) = check handle := by
        simp only [onError, hresult]
      rw [honError, bind_of_ok hresult]
      refine ⟨fun given hgiven => ?_, fun e he => ?_⟩
      · obtain rfl : handle = given := Except.ok.inj hgiven
        exact ⟨hfresh, hmoves.append (hkeeps.append .nil)⟩
      · cases he
    | error e =>
      have honError : (check handle).onError (close handle) =
          (check handle).andFinally (close handle) := by
        simp only [onError, hresult]
      have hraises : ((check handle).andFinally (close handle)).result = .error e := hresult
      rw [honError, bind_of_error hraises]
      refine ⟨fun given hgiven => ?_, fun _ _ => ?_⟩
      · cases hgiven
      · refine hmoves.append (hkeeps.append (moves_cons.mpr ⟨held, ?_, .nil⟩))
        rw [hclose, step, if_pos List.mem_cons_self, List.erase_cons_head]

end

end HandleEvent
end Army3
