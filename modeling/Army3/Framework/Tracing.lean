import Mathlib.Data.List.Forall2

/-! Computations that may fail and keep a trace of what they have asked for, also when they fail. -/

structure Traced (ω ε α : Type) where
  trace : List ω
  result : Except ε α

namespace Traced

variable {ω ε α β : Type}

instance : Monad (Traced ω ε) where
  pure a := ⟨[], .ok a⟩
  bind x f :=
    match x.result with
    | .ok a => ⟨x.trace ++ (f a).trace, (f a).result⟩
    | .error e => ⟨x.trace, .error e⟩

/-- One question and its answer. -/
def ask (question : ω) (answer : Except ε α) : Traced ω ε α := ⟨[question], answer⟩

/-- A step that asks nothing, and may raise. -/
def ofExcept (answer : Except ε α) : Traced ω ε α := ⟨[], answer⟩

def raise (e : ε) : Traced ω ε α := ⟨[], .error e⟩

/-- `raise` on a condition. -/
def raiseIf (condition : Prop) [Decidable condition] (e : ε) : Traced ω ε Unit :=
  if condition then raise e else pure ()

/-- `[f(item) for item in items]` -/
def collect (f : α → Traced ω ε β) : List α → Traced ω ε (List β)
  | [] => pure []
  | item :: items => do
    let b ← f item
    let bs ← collect f items
    pure (b :: bs)

/-- `try: … finally: …`, with a last call that always comes back. -/
def andFinally (x : Traced ω ε α) (last : ω) : Traced ω ε α := ⟨x.trace ++ [last], x.result⟩

/-- `try: … except Exception: …; raise`, with one call before it raises again. -/
def onError (x : Traced ω ε α) (last : ω) : Traced ω ε α :=
  match x.result with
  | .ok _ => x
  | .error _ => x.andFinally last

/-- The same computation, as part of one that asks and raises other things too. -/
def within {ω' ε' : Type} (question : ω → ω') (error : ε → ε') (x : Traced ω ε α) : Traced ω' ε' α :=
  ⟨x.trace.map question, x.result.mapError error⟩

/-- Every question has the property. -/
def Every (P : ω → Prop) (x : Traced ω ε α) : Prop := ∀ question ∈ x.trace, P question

variable {x : Traced ω ε α} {f : α → Traced ω ε β} {P : ω → Prop} {a : α} {b : β} {e : ε}

theorem bind_of_ok (h : x.result = .ok a) : x >>= f = ⟨x.trace ++ (f a).trace, (f a).result⟩ := by
  simp only [bind, h]

theorem bind_of_error (h : x.result = .error e) : x >>= f = ⟨x.trace, .error e⟩ := by
  simp only [bind, h]

theorem result_pure_eq_ok {a' : α} : (pure a : Traced ω ε α).result = .ok a' ↔ a = a' := by
  simp only [pure, Except.ok.injEq]

theorem result_ask_eq_ok {question : ω} {answer : Except ε α} :
    (ask question answer).result = .ok a ↔ answer = .ok a := Iff.rfl

theorem result_ofExcept_eq_ok {answer : Except ε α} :
    (ofExcept answer : Traced ω ε α).result = .ok a ↔ answer = .ok a := Iff.rfl

theorem result_bind_eq_ok :
    (x >>= f).result = .ok b ↔ ∃ a, x.result = .ok a ∧ (f a).result = .ok b := by
  cases h : x.result with
  | ok a => simp [bind_of_ok h]
  | error e => simp [bind_of_error h]

theorem result_raiseIf_eq_ok {condition : Prop} [Decidable condition] {done : Unit} :
    (raiseIf condition e : Traced ω ε Unit).result = .ok done ↔ ¬ condition := by
  unfold raiseIf
  by_cases h : condition
  · simp [h, raise]
  · simp [h, pure]

theorem every_pure : Every P (pure a : Traced ω ε α) := by
  intro question hquestion
  cases hquestion

theorem every_ofExcept {answer : Except ε α} : Every P (ofExcept answer : Traced ω ε α) := by
  intro question hquestion
  cases hquestion

theorem every_raise : Every P (raise e : Traced ω ε α) := by
  intro question hquestion
  cases hquestion

theorem every_ask {question : ω} {answer : Except ε α} :
    Every P (ask question answer) ↔ P question := by
  simp [Every, ask]

theorem every_ite {condition : Prop} [Decidable condition] {y : Traced ω ε α}
    (hx : condition → Every P x) (hy : ¬ condition → Every P y) :
    Every P (if condition then x else y) := by
  by_cases h : condition
  · rw [if_pos h]
    exact hx h
  · rw [if_neg h]
    exact hy h

theorem every_pure_unless {condition : Prop} [Decidable condition] :
    Every P (if condition then pure a else x) ↔ (¬ condition → Every P x) := by
  by_cases h : condition
  · rw [if_pos h]
    exact iff_of_true every_pure fun hnot => absurd h hnot
  · rw [if_neg h]
    exact ⟨fun hevery _ => hevery, fun hevery => hevery h⟩

theorem every_raiseIf {condition : Prop} [Decidable condition] :
    Every P (raiseIf condition e : Traced ω ε Unit) :=
  every_ite (fun _ => every_raise) fun _ => every_pure

theorem Every.mono {Q : ω → Prop} (h : Every P x) (hPQ : ∀ question, P question → Q question) :
    Every Q x := fun question hquestion => hPQ question (h question hquestion)

/-- What comes after a step is asked only if the step has an answer. -/
theorem every_bind :
    Every P (x >>= f) ↔ Every P x ∧ ∀ a, x.result = .ok a → Every P (f a) := by
  cases h : x.result with
  | ok a =>
    simp only [Every, bind_of_ok h, List.mem_append, Except.ok.injEq, forall_eq']
    constructor
    · intro hall
      exact ⟨fun q hq => hall q (.inl hq), fun q hq => hall q (.inr hq)⟩
    · intro hall q hq
      rcases hq with hfirst | hlater
      · exact hall.1 q hfirst
      · exact hall.2 q hlater
  | error e => simp [Every, bind_of_error h]

theorem every_andFinally {last : ω} : Every P (x.andFinally last) ↔ Every P x ∧ P last := by
  simp only [Every, andFinally, List.forall_mem_append, List.forall_mem_singleton]

theorem every_onError {last : ω} (h : Every P x) (hlast : P last) : Every P (x.onError last) := by
  unfold onError
  split
  · exact h
  · exact every_andFinally.mpr ⟨h, hlast⟩

theorem result_onError {last : ω} : (x.onError last).result = x.result := by
  unfold onError
  split <;> rfl

theorem result_within_eq_ok {ω' ε' : Type} {question : ω → ω'} {error : ε → ε'} :
    (x.within question error).result = .ok a ↔ x.result = .ok a := by
  unfold within
  cases x.result with
  | ok b => simp only [Except.mapError, Except.ok.injEq]
  | error e => simp only [Except.mapError, reduceCtorEq]

theorem every_within {ω' ε' : Type} {question : ω → ω'} {error : ε → ε'} {Q : ω' → Prop} :
    Every Q (x.within question error) ↔ Every (fun asked => Q (question asked)) x := by
  simp only [Every, within, List.forall_mem_map]

/-- A last step that asks nothing. -/
theorem every_map {g : α → β} : Every P (x >>= fun a => pure (g a)) ↔ Every P x := by
  rw [every_bind]
  exact and_iff_left fun _ _ => every_pure

theorem every_collect {items : List α} (h : ∀ item ∈ items, Every P (f item)) :
    Every P (collect f items) := by
  induction items with
  | nil => exact every_pure
  | cons item items ih =>
    refine every_bind.mpr ⟨h item List.mem_cons_self, fun b _ => every_bind.mpr ⟨?_, ?_⟩⟩
    · exact ih fun later hlater => h later (List.mem_cons_of_mem item hlater)
    · exact fun bs _ => every_pure

theorem result_collect_eq_ok {items : List α} {bs : List β} :
    (collect f items).result = .ok bs ↔
      List.Forall₂ (fun item b => (f item).result = .ok b) items bs := by
  induction items generalizing bs with
  | nil =>
    rw [List.forall₂_nil_left_iff]
    exact result_pure_eq_ok.trans eq_comm
  | cons item items ih =>
    rw [List.forall₂_cons_left_iff]
    simp only [collect, result_bind_eq_ok, result_pure_eq_ok, ih]
    constructor
    · intro hall
      obtain ⟨b, hb, rest, hrest, rfl⟩ := hall
      exact ⟨b, rest, hb, hrest, rfl⟩
    · intro hall
      obtain ⟨b, rest, hb, hrest, rfl⟩ := hall
      exact ⟨b, hb, rest, hrest, rfl⟩

end Traced
