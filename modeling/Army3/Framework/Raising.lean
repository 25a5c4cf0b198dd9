import Mathlib.Init

/-! Stateful code that may raise: an exception leaves the state as it was when it was raised. -/

abbrev Raising (σ ε α : Type) := ExceptT ε (StateM σ) α

namespace Raising

variable {σ ε α β : Type} {x : Raising σ ε α} {f : α → Raising σ ε β} {s s' : σ}

theorem run_bind_of_ok {a : α} (h : x.run s = (.ok a, s')) : (x >>= f).run s = (f a).run s' := by
  rw [ExceptT.run_bind]
  simp only [bind, StateT.bind, h]

theorem run_bind_of_error {e : ε} (h : x.run s = (.error e, s')) :
    (x >>= f).run s = (.error e, s') := by
  rw [ExceptT.run_bind]
  simp only [bind, StateT.bind, h]
  rfl

theorem except_bind_eq_ok {y : Except ε α} {g : α → Except ε β} {b : β} :
    (y >>= g) = .ok b ↔ ∃ a, y = .ok a ∧ g a = .ok b := by
  cases y with
  | error e => simp [bind, Except.bind]
  | ok a => simp [bind, Except.bind]

/-- A loop over a list gathers what its items give, if each turn does. -/
theorem foldlM_gathers {step : σ → α → Except ε σ} (Holds : σ → Prop) (Gives : α → Prop)
    (hstep : ∀ s a s', step s a = .ok s' → (Holds s' ↔ Holds s ∨ Gives a)) {items : List α}
    (h : items.foldlM step s = .ok s') : Holds s' ↔ Holds s ∨ ∃ a ∈ items, Gives a := by
  induction items generalizing s with
  | nil =>
    cases h
    simp
  | cons a items ih =>
    rw [List.foldlM_cons] at h
    obtain ⟨middle, hfirst, hlater⟩ := except_bind_eq_ok.mp h
    rw [ih hlater, hstep s a middle hfirst, or_assoc]
    simp only [List.mem_cons, exists_eq_or_imp]

/-- A loop whose turns raise only in what they read first has read all before it does the rest. -/
theorem foldlM_eq_mapM {step : σ → α → Except ε σ} {read : α → Except ε β} {apply : σ → β → σ}
    (hstep : ∀ s a, step s a = (read a).map (apply s)) (items : List α) (s : σ) :
    items.foldlM step s = (items.mapM read).map fun found => found.foldl apply s := by
  induction items generalizing s with
  | nil => rfl
  | cons a items ih =>
    rw [List.foldlM_cons, List.mapM_cons, hstep]
    cases read a with
    | error e => rfl
    | ok b =>
      change items.foldlM step (apply s b) = _
      rw [ih]
      cases h : items.mapM read with
      | error e => simp only [bind, Except.bind, Except.map]
      | ok found => simp only [bind, Except.bind, Except.map, pure, Except.pure, List.foldl_cons]

/-- A loop whose turns all add the same number. -/
theorem foldlM_count {step : Nat → α → Except ε Nat} {items : List α} {number : Nat}
    (hstep : ∀ a ∈ items, ∀ n, step n a = .ok (n + number)) (n : Nat) :
    items.foldlM step n = .ok (n + items.length * number) := by
  induction items generalizing n with
  | nil => exact congrArg Except.ok (by simp)
  | cons a items ih =>
    obtain ⟨hfirst, hlater⟩ := List.forall_mem_cons.mp hstep
    rw [List.foldlM_cons, hfirst]
    change items.foldlM step (n + number) = _
    rw [ih hlater, List.length_cons, Nat.add_assoc, Nat.succ_mul, Nat.add_comm number]

/-- Where every item can be read, so can the list. -/
theorem mapM_of_forall {read : α → Except ε β} {value : α → β} {items : List α}
    (h : ∀ a ∈ items, read a = .ok (value a)) : items.mapM read = .ok (items.map value) := by
  induction items with
  | nil => rfl
  | cons a items ih =>
    obtain ⟨hfirst, hlater⟩ := List.forall_mem_cons.mp h
    rw [List.mapM_cons, hfirst, ih hlater]
    rfl

/-- Where what is read says which item it was read for, all items have been read in order. -/
theorem map_of_mapM {read : α → Except ε β} {back : β → α}
    (hback : ∀ a b, read a = .ok b → back b = a) {items : List α} {found : List β}
    (h : items.mapM read = .ok found) : found.map back = items := by
  induction items generalizing found with
  | nil =>
    cases h
    rfl
  | cons a items ih =>
    rw [List.mapM_cons] at h
    obtain ⟨b, hfirst, h⟩ := except_bind_eq_ok.mp h
    obtain ⟨rest, hrest, h⟩ := except_bind_eq_ok.mp h
    cases h
    rw [List.map_cons, hback a b hfirst, ih hrest]

theorem run_bind_eq_ok {b : β} :
    (x >>= f).run s = (.ok b, s') ↔ ∃ a t, x.run s = (.ok a, t) ∧ (f a).run t = (.ok b, s') := by
  constructor
  · intro h
    cases hx : x.run s with
    | mk r t =>
      cases r with
      | error e =>
        rw [run_bind_of_error hx] at h
        cases h
      | ok a =>
        rw [run_bind_of_ok hx] at h
        exact ⟨a, t, rfl, h⟩
  · intro hall
    obtain ⟨a, t, hx, hf⟩ := hall
    rw [run_bind_of_ok hx]
    exact hf

theorem run_get_bind (f : σ → Raising σ ε β) (s : σ) :
    (get >>= f).run s = (f s).run s := rfl

theorem run_liftM_of_ok {y : Except ε α} {a : α} (h : y = .ok a) (s : σ) :
    (liftM y : Raising σ ε α).run s = (.ok a, s) := by
  rw [h]
  rfl

theorem run_liftM_of_error {y : Except ε α} {e : ε} (h : y = .error e) (s : σ) :
    (liftM y : Raising σ ε α).run s = (.error e, s) := by
  rw [h]
  rfl

/-- The code only looks at the state, and raises nothing but `bad` exceptions. -/
def Checks (bad : ε → Prop) (x : Raising σ ε α) : Prop :=
  ∀ s, (∃ a, x.run s = (.ok a, s)) ∨ ∃ e, bad e ∧ x.run s = (.error e, s)

variable {bad : ε → Prop}

theorem Checks.pure (a : α) : Checks bad (Pure.pure a : Raising σ ε α) := fun _ => .inl ⟨a, rfl⟩

theorem Checks.throw {e : ε} (h : bad e) : Checks bad (throw e : Raising σ ε α) :=
  fun _ => .inr ⟨e, h, rfl⟩

theorem Checks.bind (hx : Checks bad x) (hf : ∀ a, Checks bad (f a)) : Checks bad (x >>= f) := by
  intro s
  rcases hx s with ⟨a, ha⟩ | ⟨e, hbad, he⟩
  · rw [run_bind_of_ok ha]
    exact hf a s
  · exact .inr ⟨e, hbad, run_bind_of_error he⟩

/-- After a check the code goes on where it was. -/
theorem Checks.run_bind_eq_ok (hx : Checks bad x) {b : β} :
    (x >>= f).run s = (.ok b, s') ↔ ∃ a, x.run s = (.ok a, s) ∧ (f a).run s = (.ok b, s') := by
  constructor
  · intro h
    rcases hx s with ⟨a, ha⟩ | ⟨e, -, he⟩
    · rw [run_bind_of_ok ha] at h
      exact ⟨a, ha, h⟩
    · rw [run_bind_of_error he] at h
      cases h
  · intro hall
    obtain ⟨a, ha, hf⟩ := hall
    rw [run_bind_of_ok ha]
    exact hf

theorem Checks.ite {c : Prop} [Decidable c] {y : Raising σ ε α} (hx : c → Checks bad x)
    (hy : ¬ c → Checks bad y) : Checks bad (if c then x else y) := by
  by_cases h : c
  · rw [if_pos h]
    exact hx h
  · rw [if_neg h]
    exact hy h

/-- The code leaves a part of the state alone, however it ends. -/
def Keeps {γ : Type} (view : σ → γ) (x : Raising σ ε α) : Prop :=
  ∀ s, view (x.run s).2 = view s

variable {γ : Type} {view : σ → γ}

theorem Keeps.pure (a : α) : Keeps view (Pure.pure a : Raising σ ε α) := fun _ => rfl

theorem Keeps.bind (hx : Keeps view x) (hf : ∀ a, Keeps view (f a)) : Keeps view (x >>= f) := by
  intro s
  have hfirst := hx s
  cases h : x.run s with
  | mk r t =>
    rw [h] at hfirst
    cases r with
    | error e => rw [run_bind_of_error h, ← hfirst]
    | ok a => rw [run_bind_of_ok h, hf a t, ← hfirst]

/-- The code may assign what it read, as long as the part in view stays. -/
theorem Keeps.get_bind {f : σ → Raising σ ε β}
    (hf : ∀ s, view ((f s).run s).2 = view s) : Keeps view (MonadState.get >>= f) := hf

theorem Keeps.forM {items : List β} {f : β → Raising σ ε PUnit} (hf : ∀ b, Keeps view (f b)) :
    Keeps view (items.forM f) := by
  induction items with
  | nil => exact Keeps.pure _
  | cons item items ih => exact (hf item).bind fun _ => ih

/-- From a state with `pre` the code ends in one with `post`, or raises in one with `fail`. -/
def Runs (pre : σ → Prop) (x : Raising σ ε α) (post : α → σ → Prop) (fail : σ → Prop) : Prop :=
  ∀ s, pre s → match x.run s with
    | (.ok a, s') => post a s'
    | (.error _, s') => fail s'

variable {pre : σ → Prop} {post : α → σ → Prop} {fail : σ → Prop}

theorem Runs.pure {a : α} (h : ∀ s, pre s → post a s) :
    Runs pre (Pure.pure a : Raising σ ε α) post fail := h

theorem Runs.throw {e : ε} (h : ∀ s, pre s → fail s) :
    Runs pre (throw e : Raising σ ε α) post fail := h

theorem Runs.bind {middle : α → σ → Prop} {last : β → σ → Prop} (hx : Runs pre x middle fail)
    (hf : ∀ a, Runs (middle a) (f a) last fail) : Runs pre (x >>= f) last fail := by
  intro s hs
  have hfirst := hx s hs
  cases h : x.run s with
  | mk r t =>
    rw [h] at hfirst
    cases r with
    | error e =>
      rw [run_bind_of_error h]
      exact hfirst
    | ok a =>
      rw [run_bind_of_ok h]
      exact hf a t hfirst

theorem Runs.ite {c : Prop} [Decidable c] {y : Raising σ ε α} (hx : c → Runs pre x post fail)
    (hy : ¬ c → Runs pre y post fail) : Runs pre (if c then x else y) post fail := by
  by_cases h : c
  · rw [if_pos h]
    exact hx h
  · rw [if_neg h]
    exact hy h

/-- What every turn of a loop preserves, the loop preserves. -/
theorem Runs.forM {inv : σ → Prop} {items : List β} {f : β → Raising σ ε PUnit}
    (hf : ∀ item ∈ items, Runs inv (f item) (fun _ => inv) inv) :
    Runs inv (items.forM f) (fun _ => inv) inv := by
  induction items with
  | nil => exact Runs.pure fun _ hs => hs
  | cons item items ih =>
    have hlater := ih fun later hmem => hf later (List.mem_cons_of_mem item hmem)
    exact (hf item List.mem_cons_self).bind fun _ => hlater

/-- Code may be looked at state by state. -/
theorem Runs.of_states (h : ∀ s, pre s → Runs (· = s) x post fail) : Runs pre x post fail :=
  fun s hs => h s hs s rfl

theorem Runs.weaken {pre' : σ → Prop} {post' : α → σ → Prop} {fail' : σ → Prop}
    (h : Runs pre x post fail) (hpre : ∀ s, pre' s → pre s) (hpost : ∀ a s, post a s → post' a s)
    (hfail : ∀ s, fail s → fail' s) : Runs pre' x post' fail' := by
  intro s hs
  have hspec := h s (hpre s hs)
  cases hrun : x.run s with
  | mk r t =>
    rw [hrun] at hspec
    cases r with
    | error e => exact hfail t hspec
    | ok a => exact hpost a t hspec

theorem run_tryCatch (handler : ε → Raising σ ε α) :
    (MonadExcept.tryCatch x handler : Raising σ ε α).run s =
      match x.run s with
      | (.ok a, t) => (.ok a, t)
      | (.error e, t) => (handler e).run t := by
  change (bind (m := StateM σ) x.run fun r => match r with
    | .ok a => pure (.ok a)
    | .error e => (handler e).run) s = _
  simp only [bind, StateT.bind]
  cases x.run s with
  | mk r t => cases r <;> rfl

/-- `try: x; except: handler`. -/
theorem Runs.tryCatch {handler : ε → Raising σ ε α} {fail' : σ → Prop} (hx : Runs pre x post fail)
    (hhandler : ∀ e, Runs fail (handler e) post fail') :
    Runs pre (MonadExcept.tryCatch x handler) post fail' := by
  intro s hs
  have hspec := hx s hs
  rw [run_tryCatch]
  cases hrun : x.run s with
  | mk r t =>
    rw [hrun] at hspec
    cases r with
    | error e => exact hhandler e t hspec
    | ok a => exact hspec

end Raising
