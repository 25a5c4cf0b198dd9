import Mathlib.Data.List.Basic

/-! Members that join one after another, are numbered as they join, and share nothing. -/

namespace Army3

inductive RosterEvent (ε : Type) where
  | join
  | act (id : Nat) (event : ε)
  deriving DecidableEq

/-- The number of the next to join, and the members so far with their numbers. -/
structure Roster (σ : Type) where
  nextId : Nat := 1
  members : List (Nat × σ) := []

namespace Roster

variable {σ ε : Type} (start : σ) (act : σ → ε → σ)

def step (r : Roster σ) : RosterEvent ε → Roster σ
  | .join => ⟨r.nextId + 1, r.members ++ [(r.nextId, start)]⟩
  | .act id event =>
    { r with members := r.members.map fun m => if m.1 = id then (m.1, act m.2 event) else m }

def run (r : Roster σ) (schedule : List (RosterEvent ε)) : Roster σ := schedule.foldl (step start act) r

/-- The events of one member. -/
def own (id : Nat) : List (RosterEvent ε) → List ε
  | [] => []
  | .join :: schedule => own id schedule
  | .act other event :: schedule => if id = other then event :: own id schedule else own id schedule

def joins (schedule : List (RosterEvent ε)) : Nat :=
  schedule.countP fun | .join => true | .act _ _ => false

/-- Each that joins, left to its own events. -/
def apart (next : Nat) : List (RosterEvent ε) → List (Nat × σ)
  | [] => []
  | .join :: schedule => (next, (own next schedule).foldl act start) :: apart (next + 1) schedule
  | .act _ _ :: schedule => apart next schedule

theorem joins_cons_join (schedule : List (RosterEvent ε)) :
    joins (.join :: schedule) = joins schedule + 1 := List.countP_cons_of_pos rfl

theorem joins_cons_act (id : Nat) (event : ε) (schedule : List (RosterEvent ε)) :
    joins (.act id event :: schedule) = joins schedule := List.countP_cons_of_neg (by simp)

/-- Under any schedule the members are those that were there, each after its own events, and
those that joined, each left to its own events. -/
theorem run_members (r : Roster σ) (schedule : List (RosterEvent ε)) :
    (run start act r schedule).members =
      (r.members.map fun m => (m.1, (own m.1 schedule).foldl act m.2)) ++
        apart start act r.nextId schedule := by
  induction schedule generalizing r with
  | nil => simp [run, own, apart]
  | cons event schedule ih =>
    have hstep : run start act r (event :: schedule) = run start act (step start act r event) schedule :=
      rfl
    rw [hstep, ih]
    cases event with
    | join => simp only [step, own, apart, List.map_append, List.map_cons, List.map_nil,
        List.append_assoc, List.singleton_append]
    | act id event =>
      simp only [step, own, apart, List.map_map]
      congr 1
      refine List.map_congr_left fun m _ => ?_
      by_cases h : m.1 = id
      · simp only [Function.comp, if_pos h, List.foldl_cons]
      · simp only [Function.comp, if_neg h]

theorem run_empty (schedule : List (RosterEvent ε)) :
    (run start act {} schedule).members = apart start act 1 schedule := by
  rw [run_members]
  rfl

theorem apart_ids (next : Nat) (schedule : List (RosterEvent ε)) :
    (apart start act next schedule).map Prod.fst = List.range' next (joins schedule) := by
  induction schedule generalizing next with
  | nil => rfl
  | cons event schedule ih =>
    cases event with
    | join =>
      rw [joins_cons_join, List.range'_succ, ← ih]
      rfl
    | act id event =>
      rw [joins_cons_act, ← ih]
      rfl

theorem mem_apart {next id : Nat} {m : σ} {schedule : List (RosterEvent ε)} :
    (id, m) ∈ apart start act next schedule ↔
      ∃ before after, schedule = before ++ .join :: after ∧ id = next + joins before ∧
        m = (own id after).foldl act start := by
  induction schedule generalizing next with
  | nil => simp [apart]
  | cons event schedule ih =>
    cases event with
    | join =>
      rw [apart, List.mem_cons, ih]
      constructor
      · rintro (h | ⟨before, after, rfl, rfl, rfl⟩)
        · obtain ⟨rfl, rfl⟩ := Prod.mk.inj h
          exact ⟨[], schedule, rfl, rfl, rfl⟩
        · refine ⟨.join :: before, after, rfl, ?_, rfl⟩
          rw [joins_cons_join]
          omega
      · rintro ⟨before, after, hcut, rfl, rfl⟩
        rcases List.cons_eq_append_iff.mp hcut with ⟨rfl, hafter⟩ | ⟨before', rfl, rfl⟩
        · obtain ⟨-, rfl⟩ := List.cons.inj hafter
          exact .inl rfl
        · rw [joins_cons_join]
          exact .inr ⟨before', after, rfl, by omega, rfl⟩
    | act other event =>
      rw [apart, ih]
      constructor
      · rintro ⟨before, after, rfl, rfl, rfl⟩
        exact ⟨.act other event :: before, after, rfl, by rw [joins_cons_act], rfl⟩
      · rintro ⟨before, after, hcut, rfl, rfl⟩
        rcases List.cons_eq_append_iff.mp hcut with ⟨rfl, hafter⟩ | ⟨before', rfl, rfl⟩
        · cases (List.cons.inj hafter).1
        · exact ⟨before', after, rfl, by rw [joins_cons_act], rfl⟩

/-- The members of a roster that began empty: one for each join, after its own later events. -/
theorem mem_run {id : Nat} {m : σ} {schedule : List (RosterEvent ε)} :
    (id, m) ∈ (run start act {} schedule).members ↔
      ∃ before after, schedule = before ++ .join :: after ∧ id = 1 + joins before ∧
        m = (own id after).foldl act start := by
  rw [run_empty, mem_apart]

theorem run_ids (schedule : List (RosterEvent ε)) :
    (run start act {} schedule).members.map Prod.fst = List.range' 1 (joins schedule) := by
  rw [run_empty, apart_ids]

end Roster
end Army3
