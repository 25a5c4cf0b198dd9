import Army3.Framework.FileTree

/-! How a path leads through a file tree: the walk of the operating system, which follows a limited
number of links, and the path with all its links resolved. -/

namespace Files

variable {ν δ : Type} [DecidableEq ν]

/-- How far steps lead before a link: to a path, to a link that sends the walk elsewhere with the
steps still to do, or nowhere. -/
inductive Stop (ν : Type) where
  | arrived (path : List ν)
  | turned (dir : List ν) (steps : List (Step ν))
  | lost

/-- The path that goes down by these names. -/
def down (names : List ν) : List (Step ν) := names.map .down

namespace Tree

def advance (t : Tree ν δ) : List ν → List (Step ν) → Stop ν
  | cur, [] => .arrived cur
  | cur, step :: steps =>
    match t.node? cur with
    | some .directory =>
      match step with
      | .here => t.advance cur steps
      | .up => t.advance cur.dropLast steps
      | .down name =>
        match t.node? (cur ++ [name]) with
        | none => .lost
        | some (.link absolute target) => .turned (if absolute then [] else cur) (target ++ steps)
        | some _ => t.advance (cur ++ [name]) steps
    | _ => .lost

/-- Where steps from a directory lead through at most so many links. -/
def walk (t : Tree ν δ) : Nat → List ν → List (Step ν) → Option (List ν)
  | 0, cur, steps =>
    match t.advance cur steps with
    | .arrived path => some path
    | _ => none
  | links + 1, cur, steps =>
    match t.advance cur steps with
    | .arrived path => some path
    | .turned dir steps => t.walk links dir steps
    | .lost => none

/-- One step of a path with its links resolved; `..` undoes the last name, and what does not
exist is kept as it is written. -/
def resolveStep (t : Tree ν δ) : Nat → List ν → Step ν → Option (List ν)
  | _, cur, .here => some cur
  | _, cur, .up => some cur.dropLast
  | 0, cur, .down name =>
    match t.node? (cur ++ [name]) with
    | some (.link _ _) => none
    | _ => some (cur ++ [name])
  | depth + 1, cur, .down name =>
    match t.node? (cur ++ [name]) with
    | some (.link absolute target) =>
      target.foldlM (t.resolveStep depth) (if absolute then [] else cur)
    | _ => some (cur ++ [name])

attribute [local simp] advance walk resolveStep

/-- The path without links that steps from the root stand for. A chain of links longer than the
number of entries has come back to where it was. -/
def realpath (t : Tree ν δ) (steps : List (Step ν)) : Option (List ν) :=
  steps.foldlM (t.resolveStep t.entries.length) []

/-- No link stands on the way to `p` or there. -/
def Direct (t : Tree ν δ) (p : List ν) : Prop :=
  ∀ q node, q <+: p → t.node? q = some node → ¬ node.IsLink

variable {t : Tree ν δ} {cur names p q : List ν}

theorem Direct.upwards (h : t.Direct p) (hq : q <+: p) : t.Direct q :=
  fun r node hr => h r node (hr.trans hq)

theorem direct_nil : t.Direct [] := by
  intro q node hq hnode hlink
  rw [List.prefix_nil.mp hq, t.root] at hnode
  obtain rfl := Option.some.inj hnode
  exact hlink

theorem Direct.concat {name : ν} (h : t.Direct cur)
    (hlast : ∀ node, t.node? (cur ++ [name]) = some node → ¬ node.IsLink) :
    t.Direct (cur ++ [name]) := by
  intro q node hq hnode
  rcases List.prefix_concat_iff.mp hq with rfl | hq
  · exact hlast node hnode
  · exact h q node hq hnode

/-- No link is met below a branch without links. -/
theorem Direct.append (h : t.Direct p) (hfree : (t.below p).LinkFree) : t.Direct (p ++ q) := by
  intro r node hr hnode
  rcases List.prefix_or_prefix_of_prefix hr (List.prefix_append p q) with hhigh | ⟨low, hlow⟩
  · exact h r node hhigh hnode
  · subst hlow
    exact hfree low node (by rw [Branch.node?_below]; exact hnode)

theorem advance_missing {name : ν} {steps : List (Step ν)} (h : t.node? (cur ++ [name]) = none) :
    t.advance cur (.down name :: steps) = .lost := by
  unfold advance
  cases t.node? cur with
  | none => rfl
  | some node => cases node <;> simp [h]

theorem advance_enters {name : ν} {node : Node ν δ} {steps : List (Step ν)}
    (h : t.node? (cur ++ [name]) = some node) (hlink : ¬ node.IsLink) :
    t.advance cur (.down name :: steps) = t.advance (cur ++ [name]) steps := by
  have hdir : t.node? cur = some .directory :=
    Branch.node?_of_append (by rw [h]; rfl) (List.cons_ne_nil name [])
  cases node with
  | file data => simp [advance, hdir, h]
  | directory => simp [advance, hdir, h]
  | link absolute target => exact absurd trivial hlink

theorem advance_of_direct (h : t.Direct (cur ++ names)) (hcur : (t.node? cur).isSome) :
    t.advance cur (down names) =
      if (t.node? (cur ++ names)).isSome then .arrived (cur ++ names) else .lost := by
  induction names generalizing cur with
  | nil => simp [down, advance, hcur]
  | cons name names ih =>
    have hsplit : cur ++ name :: names = cur ++ [name] ++ names := by simp
    rw [hsplit] at h ⊢
    change t.advance cur (.down name :: down names) = _
    cases hchild : t.node? (cur ++ [name]) with
    | none =>
      have hlost : t.node? (cur ++ [name] ++ names) = none := Branch.node?_append_of_none hchild
      rw [advance_missing hchild, hlost]
      rfl
    | some node =>
      have hlink := h (cur ++ [name]) node (List.prefix_append _ _) hchild
      rw [advance_enters hchild hlink, ih h (by rw [hchild]; rfl)]

/-- Without a link on it, a path leads where its names say, if anything is there. -/
theorem walk_of_direct (h : t.Direct p) (links : Nat) :
    t.walk links [] (down p) = if (t.node? p).isSome then some p else none := by
  have hroot : (t.node? []).isSome := by rw [t.root]; rfl
  have hadvance : t.advance [] (down p) = if (t.node? p).isSome then .arrived p else .lost :=
    advance_of_direct h hroot
  by_cases hp : (t.node? p).isSome
  · rw [if_pos hp] at hadvance ⊢
    cases links <;> simp [walk, hadvance]
  · rw [if_neg hp] at hadvance ⊢
    cases links <;> simp [walk, hadvance]

/-- Everything above an existing path is a directory. -/
theorem direct_dropLast (h : (t.node? p).isSome) : t.Direct p.dropLast := by
  intro q node hq hnode hlink
  have hqp : q <+: p := hq.trans (List.dropLast_prefix p)
  obtain ⟨low, rfl⟩ := hqp
  by_cases hlow : low = []
  · subst hlow
    rw [List.append_nil] at hq
    have hq : q = [] := by
      by_contra hne
      exact not_prefix_dropLast_self hne hq
    rw [hq, t.root] at hnode
    obtain rfl := Option.some.inj hnode
    exact hlink
  · rw [Branch.node?_of_append h hlow] at hnode
    obtain rfl := Option.some.inj hnode
    exact hlink

theorem direct_of_node? {node : Node ν δ} (h : t.node? p = some node) (hlink : ¬ node.IsLink) :
    t.Direct p := by
  by_cases hp : p = []
  · subst hp
    exact direct_nil
  · rw [← List.dropLast_concat_getLast hp] at h ⊢
    have hparent := direct_dropLast (t := t) (by rw [h]; rfl)
    rw [List.dropLast_concat] at hparent
    apply hparent.concat
    intro other hother
    rw [h] at hother
    obtain rfl := Option.some.inj hother
    exact hlink

theorem advance_append (first later : List (Step ν)) :
    t.advance cur (first ++ later) =
      match t.advance cur first with
      | .arrived path => t.advance path later
      | .turned dir steps => .turned dir (steps ++ later)
      | .lost => .lost := by
  induction first generalizing cur with
  | nil => simp [advance]
  | cons step first ih =>
    simp only [List.cons_append, advance]
    cases t.node? cur with
    | none => rfl
    | some node =>
      cases node with
      | file data => rfl
      | link absolute target => rfl
      | directory =>
        cases step with
        | here => exact ih
        | up => exact ih
        | down name =>
          cases hchild : t.node? (cur ++ [name]) with
          | none => simp [hchild]
          | some child => cases child <;> simp [hchild, ih]

/-- A walk that arrives goes on from there. -/
theorem walk_append {links : Nat} {first : List (Step ν)} (h : t.walk links cur first = some p) :
    ∃ left, ∀ later, t.walk links cur (first ++ later) = t.walk left p later := by
  induction links generalizing cur first with
  | zero =>
    cases hadvance : t.advance cur first with
    | arrived path =>
      simp only [walk, hadvance, Option.some.injEq] at h
      subst h
      exact ⟨0, fun later => by simp only [walk, advance_append, hadvance]⟩
    | turned dir steps => simp [walk, hadvance] at h
    | lost => simp [walk, hadvance] at h
  | succ links ih =>
    cases hadvance : t.advance cur first with
    | arrived path =>
      simp only [walk, hadvance, Option.some.injEq] at h
      subst h
      exact ⟨links + 1, fun later => by simp only [walk, advance_append, hadvance]⟩
    | turned dir steps =>
      simp only [walk, hadvance] at h
      obtain ⟨left, hleft⟩ := ih h
      exact ⟨left, fun later => by simp only [walk, advance_append, hadvance, hleft]⟩
    | lost => simp [walk, hadvance] at h

/-- Nothing lies below a file. -/
theorem walk_below_file {data : δ} (h : t.node? p = some (.file data)) (links : Nat)
    (step : Step ν) (steps : List (Step ν)) : t.walk links p (step :: steps) = none := by
  cases links <;> simp [walk, advance, h]

theorem foldlM_keeps {α β : Type} {P : α → Prop} {f : α → β → Option α}
    (hf : ∀ a b a', P a → f a b = some a' → P a') {items : List β} {a a' : α} (ha : P a)
    (h : items.foldlM f a = some a') : P a' := by
  induction items generalizing a with
  | nil =>
    obtain rfl := Option.some.inj h
    exact ha
  | cons item items ih =>
    rw [List.foldlM_cons] at h
    obtain ⟨middle, hmiddle, hrest⟩ := Option.bind_eq_some_iff.mp h
    exact ih (hf a item middle ha hmiddle) hrest

theorem resolveStep_plain {name : ν} (depth : Nat)
    (h : ∀ node, t.node? (cur ++ [name]) = some node → ¬ node.IsLink) :
    t.resolveStep depth cur (.down name) = some (cur ++ [name]) := by
  cases hchild : t.node? (cur ++ [name]) with
  | none => cases depth <;> simp [resolveStep, hchild]
  | some node =>
    have hlink := h node hchild
    cases node with
    | file data => cases depth <;> simp [resolveStep, hchild]
    | directory => cases depth <;> simp [resolveStep, hchild]
    | link absolute target => exact absurd trivial hlink

/-- What one step can do: stay on the way, go down where no link stands, or follow the link. -/
theorem resolveStep_cases {depth : Nat} {step : Step ν}
    (h : t.resolveStep depth cur step = some p) :
    p <+: cur ∨
    (∃ name, (∀ node, t.node? (cur ++ [name]) = some node → ¬ node.IsLink) ∧
      p = cur ++ [name]) ∨
    ∃ (rest : Nat) (absolute : Bool) (target : List (Step ν)), depth = rest + 1 ∧
      target.foldlM (t.resolveStep rest) (if absolute then [] else cur) = some p := by
  cases step with
  | here =>
    obtain rfl : cur = p := by cases depth <;> exact Option.some.inj h
    exact .inl (List.prefix_refl cur)
  | up =>
    obtain rfl : cur.dropLast = p := by cases depth <;> exact Option.some.inj h
    exact .inl (List.dropLast_prefix cur)
  | down name =>
    by_cases hplain : ∀ node, t.node? (cur ++ [name]) = some node → ¬ node.IsLink
    · rw [resolveStep_plain depth hplain] at h
      exact .inr (.inl ⟨name, hplain, (Option.some.inj h).symm⟩)
    · push Not at hplain
      obtain ⟨node, hnode, hlink⟩ := hplain
      cases node with
      | file data => exact absurd hlink id
      | directory => exact absurd hlink id
      | link absolute target =>
        cases depth with
        | zero => simp [resolveStep, hnode] at h
        | succ rest =>
          simp only [resolveStep, hnode] at h
          exact .inr (.inr ⟨rest, absolute, target, rfl, h⟩)

theorem resolveStep_direct {depth : Nat} {step : Step ν} (hcur : t.Direct cur)
    (h : t.resolveStep depth cur step = some p) : t.Direct p := by
  induction depth using Nat.strongRecOn generalizing cur step p with
  | ind depth ih =>
    rcases resolveStep_cases h with hpre | ⟨name, hplain, rfl⟩ |
      ⟨rest, absolute, target, rfl, hfold⟩
    · exact hcur.upwards hpre
    · exact hcur.concat hplain
    · have hstart : t.Direct (if absolute then [] else cur) := by
        cases absolute
        · exact hcur
        · exact direct_nil
      exact foldlM_keeps (fun _ _ _ hdir hstep => ih rest (by omega) hdir hstep) hstart hfold

/-- Resolved paths have no links on them. -/
theorem realpath_direct {steps : List (Step ν)} (h : t.realpath steps = some p) : t.Direct p :=
  foldlM_keeps (fun _ _ _ hcur hstep => resolveStep_direct hcur hstep) direct_nil h

theorem foldlM_resolveStep_down (depth : Nat) (h : t.Direct (cur ++ names)) :
    (down names).foldlM (t.resolveStep depth) cur = some (cur ++ names) := by
  induction names generalizing cur with
  | nil => simp [down]
  | cons name names ih =>
    have hsplit : cur ++ name :: names = cur ++ [name] ++ names := by simp
    rw [hsplit] at h ⊢
    have hplain := fun node => h (cur ++ [name]) node (List.prefix_append _ _)
    change List.foldlM (t.resolveStep depth) cur (.down name :: down names) = _
    rw [List.foldlM_cons, resolveStep_plain depth hplain]
    exact ih h

/-- A path without links is its own resolution. -/
theorem realpath_down (h : t.Direct p) : t.realpath (down p) = some p := by
  have hfold := @foldlM_resolveStep_down _ _ _ t [] p t.entries.length h
  rwa [List.nil_append] at hfold

end Tree

end Files
