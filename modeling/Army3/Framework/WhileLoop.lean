import Mathlib.Logic.Relation

/-! Loops that may fail, that need not end, and that emit something at each turn. -/

namespace WhileLoop

variable {σ ε α : Type}

/-- The loop under a bound on its turns. A turn fails, is the end, or emits and goes on. -/
def run (turn : σ → Except ε (Option (α × σ))) : Nat → σ → Option (Except ε (List α))
  | 0, _ => none
  | fuel + 1, s =>
    match turn s with
    | .error e => some (.error e)
    | .ok none => some (.ok [])
    | .ok (some (a, s')) => (run turn fuel s').map fun result => result.map (a :: ·)

def Ends (turn : σ → Except ε (Option (α × σ))) (s : σ) (result : Except ε (List α)) : Prop :=
  ∃ fuel, run turn fuel s = some result

def Next (turn : σ → Except ε (Option (α × σ))) (s s' : σ) : Prop :=
  ∃ a, turn s = .ok (some (a, s'))

def Reaches (turn : σ → Except ε (Option (α × σ))) : σ → σ → Prop :=
  Relation.ReflTransGen (Next turn)

def Fails (turn : σ → Except ε (Option (α × σ))) (s : σ) : Prop := ∃ e, turn s = .error e

variable {turn : σ → Except ε (Option (α × σ))} {s s' : σ} {a : α} {e : ε} {emitted : List α}
  {result : Except ε (List α)}

theorem run_error (h : turn s = .error e) (fuel : Nat) :
    run turn (fuel + 1) s = some (.error e) := by
  rw [run, h]

theorem run_over (h : turn s = .ok none) (fuel : Nat) : run turn (fuel + 1) s = some (.ok []) := by
  rw [run, h]

theorem run_next (h : turn s = .ok (some (a, s'))) (fuel : Nat) :
    run turn (fuel + 1) s = (run turn fuel s').map fun result => result.map (a :: ·) := by
  rw [run, h]

/-- A loop that has ended has ended in any longer time too. -/
theorem run_of_le {fuel more : Nat} (h : run turn fuel s = some result) (hle : fuel ≤ more) :
    run turn more s = some result := by
  induction fuel generalizing s more result with
  | zero => cases h
  | succ fuel ih =>
    cases more with
    | zero => exact absurd hle (Nat.not_succ_le_zero fuel)
    | succ more =>
      cases hturn : turn s with
      | error e =>
        rw [run_error hturn] at h ⊢
        exact h
      | ok next =>
        cases next with
        | none =>
          rw [run_over hturn] at h ⊢
          exact h
        | some next =>
          obtain ⟨a, s'⟩ := next
          rw [run_next hturn, Option.map_eq_some_iff] at h
          obtain ⟨later, hlater, hresult⟩ := h
          rw [run_next hturn, ih hlater (Nat.le_of_succ_le_succ hle), Option.map_some, hresult]

theorem ends_of_over (h : turn s = .ok none) : Ends turn s (.ok []) := ⟨1, run_over h 0⟩

theorem ends_of_error (h : turn s = .error e) : Ends turn s (.error e) := ⟨1, run_error h 0⟩

theorem ends_of_next (h : turn s = .ok (some (a, s'))) (hend : Ends turn s' result) :
    Ends turn s (result.map (a :: ·)) := by
  obtain ⟨fuel, hrun⟩ := hend
  exact ⟨fuel + 1, by rw [run_next h, hrun, Option.map_some]⟩

/-- A loop has failed exactly when it has reached a turn that fails. -/
theorem ends_error_iff : (∃ e, Ends turn s (.error e)) ↔ ∃ q, Reaches turn s q ∧ Fails turn q := by
  constructor
  · intro hend
    obtain ⟨e, fuel, hrun⟩ := hend
    induction fuel generalizing s with
    | zero => cases hrun
    | succ fuel ih =>
      cases hturn : turn s with
      | error e' => exact ⟨s, .refl, e', hturn⟩
      | ok next =>
        cases next with
        | none =>
          rw [run_over hturn] at hrun
          cases hrun
        | some next =>
          obtain ⟨a, s'⟩ := next
          rw [run_next hturn, Option.map_eq_some_iff] at hrun
          obtain ⟨result, hlater, hmap⟩ := hrun
          cases result with
          | ok emitted => cases hmap
          | error e' =>
            obtain ⟨q, hq, hfails⟩ := ih (hlater.trans (congrArg some hmap))
            exact ⟨q, .head ⟨a, hturn⟩ hq, hfails⟩
  · intro hreach
    obtain ⟨q, hq, e, hfails⟩ := hreach
    induction hq using Relation.ReflTransGen.head_induction_on with
    | refl => exact ⟨e, ends_of_error hfails⟩
    | head hnext _ ih =>
      obtain ⟨a, hturn⟩ := hnext
      obtain ⟨e', hend⟩ := ih
      exact ⟨e', ends_of_next hturn hend⟩

/-- The first turn of a loop that has come to its end. -/
theorem ends_ok_cases (h : Ends turn s (.ok emitted)) :
    (turn s = .ok none ∧ emitted = []) ∨
      ∃ a s' later, turn s = .ok (some (a, s')) ∧ emitted = a :: later ∧
        Ends turn s' (.ok later) := by
  obtain ⟨fuel, hrun⟩ := h
  cases fuel with
  | zero => cases hrun
  | succ fuel =>
    cases hturn : turn s with
    | error e =>
      rw [run_error hturn] at hrun
      cases hrun
    | ok next =>
      cases next with
      | none =>
        rw [run_over hturn] at hrun
        exact .inl ⟨rfl, (Except.ok.inj (Option.some.inj hrun)).symm⟩
      | some next =>
        obtain ⟨a, s'⟩ := next
        rw [run_next hturn, Option.map_eq_some_iff] at hrun
        obtain ⟨result, hlater, hmap⟩ := hrun
        cases result with
        | error e => cases hmap
        | ok later => exact .inr ⟨a, s', later, rfl, (Except.ok.inj hmap).symm, fuel, hlater⟩

/-- A loop that has come to its end would have done so from every position it has reached, with a
later part of what it has emitted. -/
theorem ends_ok_of_reaches {q : σ} (hend : Ends turn s (.ok emitted)) (hreach : Reaches turn s q) :
    ∃ later, Ends turn q (.ok later) ∧ later <:+ emitted := by
  induction hreach using Relation.ReflTransGen.head_induction_on generalizing emitted with
  | refl => exact ⟨emitted, hend, List.suffix_refl emitted⟩
  | head hnext _ ih =>
    obtain ⟨a, hnext⟩ := hnext
    rcases ends_ok_cases hend with ⟨hover, -⟩ | ⟨b, r, later, hturn, rfl, hlater⟩
    · rw [hover] at hnext
      cases hnext
    · rw [hturn] at hnext
      cases hnext
      obtain ⟨rest, hrest, hsuffix⟩ := ih hlater
      exact ⟨rest, hrest, hsuffix.trans (List.suffix_cons _ later)⟩

/-- A loop ends if a number goes down at every turn that is reached. -/
theorem ends_of_decreasing (size : σ → Nat)
    (h : ∀ q q', Reaches turn s q → Next turn q q' → size q' < size q) :
    ∃ result, Ends turn s result := by
  induction hsize : size s using Nat.strongRecOn generalizing s with
  | _ n ih =>
    cases hturn : turn s with
    | error e => exact ⟨.error e, ends_of_error hturn⟩
    | ok next =>
      cases next with
      | none => exact ⟨.ok [], ends_of_over hturn⟩
      | some next =>
        obtain ⟨a, s'⟩ := next
        have hnext : Next turn s s' := ⟨a, hturn⟩
        have hless : size s' < n := hsize ▸ h s s' .refl hnext
        obtain ⟨result, hend⟩ := ih (size s') hless
          (fun q q' hq hqq' => h q q' (.head hnext hq) hqq') rfl
        exact ⟨_, ends_of_next hturn hend⟩

/-- A loop that stays among positions from which it goes on never ends. -/
theorem run_eq_none_of_closed (positions : σ → Prop)
    (hclosed : ∀ q, positions q → ∃ a q', turn q = .ok (some (a, q')) ∧ positions q')
    (hs : positions s) (fuel : Nat) : run turn fuel s = none := by
  induction fuel generalizing s with
  | zero => rfl
  | succ fuel ih =>
    obtain ⟨a, s', hturn, hs'⟩ := hclosed s hs
    rw [run_next hturn, ih hs', Option.map_none]

end WhileLoop
