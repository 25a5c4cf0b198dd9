import Army3.Framework.Tracing

/-! What a computation asks, stage by stage, as far as it gets. -/

namespace Traced

variable {ω ε α β : Type}

/-- The computation comes back with an answer. -/
def Returns (x : Traced ω ε α) : Prop := ∃ a, x.result = .ok a

/-- A part of a computation: when its questions have a property, and when it comes back. -/
structure Stage where
  holds : Prop
  returns : Prop

/-- Every stage holds that is reached. -/
def Held : List Stage → Prop
  | [] => True
  | stage :: later => stage.holds ∧ (stage.returns → Held later)

/-- The stages say exactly what the computation does. -/
structure Staged (P : ω → Prop) (x : Traced ω ε α) (stages : List Stage) : Prop where
  every : Every P x ↔ Held stages
  returns : Returns x ↔ ∀ stage ∈ stages, stage.returns

variable {P : ω → Prop} {x : Traced ω ε α} {f : α → Traced ω ε β} {stages later : List Stage}
  {holds : Prop} {a : α} {b : β}

theorem held_append :
    Held (stages ++ later) ↔ Held stages ∧ ((∀ stage ∈ stages, stage.returns) → Held later) := by
  induction stages with
  | nil => simp [Held]
  | cons stage stages ih =>
    simp only [List.cons_append, Held, ih, List.forall_mem_cons]
    constructor
    · intro hheld
      exact ⟨⟨hheld.1, fun hreturns => (hheld.2 hreturns).1⟩,
        fun hall => (hheld.2 hall.1).2 hall.2⟩
    · intro hheld
      exact ⟨hheld.1.1, fun hreturns => ⟨hheld.1.2 hreturns, fun hall => hheld.2 ⟨hreturns, hall⟩⟩⟩

theorem returns_bind : Returns (x >>= f) ↔ ∃ a, x.result = .ok a ∧ Returns (f a) := by
  simp only [Returns, result_bind_eq_ok]
  constructor
  · intro hrun
    obtain ⟨b, a, ha, hb⟩ := hrun
    exact ⟨a, ha, b, hb⟩
  · intro hrun
    obtain ⟨a, ha, b, hb⟩ := hrun
    exact ⟨b, a, ha, hb⟩

theorem returns_pure : Returns (pure a : Traced ω ε α) := ⟨a, rfl⟩

/-- A computation that asks nothing wrong and comes back has no stages. -/
theorem staged_quiet (hevery : Every P x) (hreturns : Returns x) : Staged P x [] :=
  ⟨iff_of_true hevery trivial, iff_of_true hreturns (List.forall_mem_nil _)⟩

theorem staged_pure : Staged P (pure a : Traced ω ε α) [] := staged_quiet every_pure returns_pure

theorem staged_single (h : Every P x ↔ holds) : Staged P x [⟨holds, Returns x⟩] := by
  constructor
  · simp only [Held, h, implies_true, and_true]
  · simp only [List.forall_mem_singleton]

theorem staged_bind (hx : Staged P x stages) (hf : ∀ a, x.result = .ok a → Staged P (f a) later) :
    Staged P (x >>= f) (stages ++ later) := by
  constructor
  · rw [every_bind, held_append, hx.every, ← hx.returns]
    refine and_congr_right fun _ => ⟨?_, ?_⟩
    · intro hall hreturns
      obtain ⟨a, ha⟩ := hreturns
      exact (hf a ha).every.mp (hall a ha)
    · intro hheld a ha
      exact (hf a ha).every.mpr (hheld ⟨a, ha⟩)
  · rw [returns_bind, List.forall_mem_append, ← hx.returns]
    constructor
    · intro hrun
      obtain ⟨a, ha, hnext⟩ := hrun
      exact ⟨⟨a, ha⟩, (hf a ha).returns.mp hnext⟩
    · intro hall
      obtain ⟨a, ha⟩ := hall.1
      exact ⟨a, ha, (hf a ha).returns.mpr hall.2⟩

/-- A step whose answer is known is left out. -/
theorem staged_bind_quiet (hevery : Every P x) (ha : x.result = .ok a) (hf : Staged P (f a) later) :
    Staged P (x >>= f) later := by
  refine staged_bind (staged_quiet hevery ⟨a, ha⟩) fun a' ha' => ?_
  obtain rfl : a = a' := Except.ok.inj (ha.symm.trans ha')
  exact hf

theorem staged_bind_single (h : Every P x ↔ holds)
    (hf : ∀ a, x.result = .ok a → Staged P (f a) later) :
    Staged P (x >>= f) (⟨holds, Returns x⟩ :: later) :=
  staged_bind (staged_single h) hf

/-- A last step that asks nothing. -/
theorem staged_map (hx : Staged P x stages) {g : α → β} :
    Staged P (x >>= fun a => pure (g a)) stages := by
  have hbind := staged_bind hx fun a _ => staged_pure (a := g a)
  rwa [List.append_nil] at hbind

section

variable {item : α} {items : List α}

theorem staged_collect_nil : Staged P (collect f []) [] := staged_pure

theorem staged_collect_cons (hitem : Staged P (f item) stages)
    (hitems : Staged P (collect f items) later) :
    Staged P (collect f (item :: items)) (stages ++ later) :=
  staged_bind hitem fun _ _ => staged_map hitems

theorem staged_collect {stagesOf : α → List Stage}
    (h : ∀ item ∈ items, Staged P (f item) (stagesOf item)) :
    Staged P (collect f items) (items.flatMap stagesOf) := by
  induction items with
  | nil => exact staged_collect_nil
  | cons item items ih =>
    have hrest := ih fun other hother => h other (List.mem_cons_of_mem item hother)
    exact staged_collect_cons (h item List.mem_cons_self) hrest

end

end Traced
