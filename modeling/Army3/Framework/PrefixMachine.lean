import Mathlib.Computability.StateTransition

/-- What a machine decides from its state and the unread part of its input. -/
inductive Verdict (σ β ε : Type*) where
  | wait
  | next (state : σ) (rest : List β)
  | halt (error : ε) (state : σ) (rest : List β)

/-- A machine that reads a stream in pieces: more input never revokes a decision. -/
structure PrefixMachine (σ β ε : Type*) where
  step : σ → List β → Verdict σ β ε
  next_append : ∀ {s buffer s' rest} (more : List β),
    step s buffer = .next s' rest → step s (buffer ++ more) = .next s' (rest ++ more)
  halt_append : ∀ {s buffer e s' rest} (more : List β),
    step s buffer = .halt e s' rest → step s (buffer ++ more) = .halt e s' (rest ++ more)

namespace PrefixMachine

variable {σ τ β ε : Type*} (M : PrefixMachine σ β ε)

/-- One completed step on a configuration: the state and the unread input. -/
def advance (c : σ × List β) : Option (σ × List β) :=
  match M.step c.1 c.2 with
  | .next s rest => some (s, rest)
  | _ => none

def Reaches : σ × List β → σ × List β → Prop := StateTransition.Reaches M.advance

/-- No step is left: the machine waits for input or has halted. -/
def Settled (c : σ × List β) : Prop := M.advance c = none

/-- The first of the two is where every run from `c` over its present input ends. -/
def Settles (c d : σ × List β) : Prop := M.Reaches c d ∧ M.Settled d

variable {M}

theorem mem_advance {c d : σ × List β} :
    d ∈ M.advance c ↔ M.step c.1 c.2 = .next d.1 d.2 := by
  unfold advance
  cases h : M.step c.1 c.2 with
  | wait => simp
  | halt e s rest => simp
  | next s rest =>
    obtain ⟨s', rest'⟩ := d
    simp

theorem settled_iff {c : σ × List β} :
    M.Settled c ↔ ∀ s rest, M.step c.1 c.2 ≠ .next s rest := by
  constructor
  · intro h s rest hs
    have hm : (s, rest) ∈ M.advance c := mem_advance.2 hs
    rw [h] at hm
    cases hm
  · intro h
    apply Option.eq_none_iff_forall_not_mem.mpr
    intro d hd
    exact h d.1 d.2 (mem_advance.1 hd)

theorem settled_of_wait {c : σ × List β} (h : M.step c.1 c.2 = .wait) : M.Settled c :=
  settled_iff.2 (by simp [h])

theorem settled_of_halt {c : σ × List β} {e : ε} {s : σ} {rest : List β}
    (h : M.step c.1 c.2 = .halt e s rest) : M.Settled c :=
  settled_iff.2 (by simp [h])

@[refl]
theorem Reaches.refl (c : σ × List β) : M.Reaches c c := Relation.ReflTransGen.refl

theorem Reaches.trans {a b c : σ × List β} (h : M.Reaches a b) (h' : M.Reaches b c) :
    M.Reaches a c := Relation.ReflTransGen.trans h h'

theorem Reaches.of_step {s s' : σ} {buffer rest : List β}
    (h : M.step s buffer = .next s' rest) : M.Reaches (s, buffer) (s', rest) :=
  Relation.ReflTransGen.single (mem_advance.2 h)

theorem Reaches.head {s s' : σ} {buffer rest : List β} {c : σ × List β}
    (h : M.step s buffer = .next s' rest) (h' : M.Reaches (s', rest) c) :
    M.Reaches (s, buffer) c := (Reaches.of_step h).trans h'

/-- The invariant rule: what every step preserves, every run preserves. -/
theorem Reaches.invariant {I : σ × List β → Prop} {c d : σ × List β} (h : M.Reaches c d)
    (hc : I c)
    (hstep : ∀ s buffer s' rest, I (s, buffer) → M.step s buffer = .next s' rest → I (s', rest)) :
    I d := by
  induction h with
  | refl => exact hc
  | tail _ hd ih => exact hstep _ _ _ _ ih (mem_advance.1 hd)

/-- A run never looks past what it consumes, so it can be replayed on longer input. -/
theorem Reaches.append {c d : σ × List β} (h : M.Reaches c d) (more : List β) :
    M.Reaches (c.1, c.2 ++ more) (d.1, d.2 ++ more) := by
  induction h with
  | refl => exact Reaches.refl _
  | tail _ hd ih =>
    exact ih.trans (Reaches.of_step (M.next_append more (mem_advance.1 hd)))

/-- The machine is deterministic, so a run ends in one configuration only. -/
theorem Settles.unique {c d d' : σ × List β} (h : M.Settles c d) (h' : M.Settles c d') :
    d = d' := by
  have hd : d ∈ StateTransition.eval M.advance c := StateTransition.mem_eval.mpr h
  have hd' : d' ∈ StateTransition.eval M.advance c := StateTransition.mem_eval.mpr h'
  exact Part.mem_unique hd hd'

theorem Reaches.settles {c d e : σ × List β} (h : M.Reaches c d) (h' : M.Settles d e) :
    M.Settles c e := ⟨h.trans h'.1, h'.2⟩

/-- A configuration met on the way to a settled one still settles there. -/
theorem Settles.of_reaches {c d e : σ × List β} (h : M.Settles c e) (h' : M.Reaches c d) :
    M.Settles d e := by
  refine ⟨?_, h.2⟩
  rcases StateTransition.reaches_total h.1 h' with hed | hde
  · obtain rfl | ⟨f, hf, -⟩ := Relation.ReflTransGen.cases_head hed
    · exact Relation.ReflTransGen.refl
    · rw [show M.advance e = none from h.2] at hf
      cases hf
  · exact hde

/-- A stream that ends in waiting is nowhere halted on, however little of it had arrived. -/
theorem Settles.no_halt {c d t : σ × List β} {later rest : List β} {e : ε} {s : σ}
    (h : M.Settles (c.1, c.2 ++ later) t) (hw : M.step t.1 t.2 = .wait) (hr : M.Reaches c d) :
    M.step d.1 d.2 ≠ .halt e s rest := by
  intro hh
  have hlong := M.halt_append later hh
  have hsame := (h.of_reaches (hr.append later)).unique ⟨Reaches.refl _, settled_of_halt hlong⟩
  rw [hsame, hlong] at hw
  cases hw

/-- A reader that drains the buffer after each chunk and reads no chunk after a halt. -/
inductive Serves (M : PrefixMachine σ β ε) :
    σ × List β → List (List β) → σ × List β → Prop where
  | nil (c : σ × List β) : Serves M c [] c
  | wait {c d e : σ × List β} {chunk : List β} {chunks : List (List β)}
      (hd : M.Settles (c.1, c.2 ++ chunk) d) (hw : M.step d.1 d.2 = .wait)
      (h : Serves M d chunks e) : Serves M c (chunk :: chunks) e
  | halt {c d : σ × List β} {chunk : List β} {chunks : List (List β)} {err : ε} {s : σ}
      {rest : List β} (hd : M.Settles (c.1, c.2 ++ chunk) d)
      (hh : M.step d.1 d.2 = .halt err s rest) : Serves M c (chunk :: chunks) d

/-- Reading chunk by chunk ends where one reading of the whole stream ends; only a halted
reader leaves input unread. -/
theorem Serves.settles {c d : σ × List β} {chunks : List (List β)}
    (h : M.Serves c chunks d) (hc : M.step c.1 c.2 = .wait) :
    ∃ unread, M.Settles (c.1, c.2 ++ chunks.flatten) (d.1, d.2 ++ unread) ∧
      ((M.step d.1 d.2 = .wait ∧ unread = []) ∨ ∃ e s rest, M.step d.1 d.2 = .halt e s rest) := by
  induction h with
  | nil c =>
    have hs : M.Settles c c := ⟨Reaches.refl c, settled_of_wait hc⟩
    exact ⟨[], by simpa using hs, .inl ⟨hc, rfl⟩⟩
  | @wait c d e chunk chunks hd hw h ih =>
    obtain ⟨unread, hs, hu⟩ := ih hw
    refine ⟨unread, ?_, hu⟩
    have hreach := hd.1.append chunks.flatten
    rw [List.flatten_cons, ← List.append_assoc]
    exact hreach.settles hs
  | @halt c d chunk chunks err s rest hd hh =>
    refine ⟨chunks.flatten, ?_, .inr ⟨err, s, rest, hh⟩⟩
    have hreach := hd.1.append chunks.flatten
    rw [List.flatten_cons, ← List.append_assoc]
    exact ⟨hreach, settled_of_halt (M.halt_append chunks.flatten hh)⟩

/-- Cutting a stream differently changes neither the state nor the verdict a reader ends
with, and without a halt not the unread input either. -/
theorem Serves.chunk_independent {c d d' : σ × List β} {chunks chunks' : List (List β)}
    (h : M.Serves c chunks d) (h' : M.Serves c chunks' d') (hc : M.step c.1 c.2 = .wait)
    (hcut : chunks.flatten = chunks'.flatten) :
    (M.step d.1 d.2 = .wait ∧ d' = d) ∨
    ∃ e s rest rest', M.step d.1 d.2 = .halt e s rest ∧ M.step d'.1 d'.2 = .halt e s rest' := by
  obtain ⟨unread, hs, hu⟩ := h.settles hc
  obtain ⟨unread', hs', hu'⟩ := h'.settles hc
  rw [← hcut] at hs'
  obtain ⟨hstate, hbuffer⟩ := Prod.mk.inj (hs.unique hs')
  obtain ⟨s, buffer⟩ := d
  obtain ⟨s', buffer'⟩ := d'
  simp only at hstate hbuffer hu hu' ⊢
  subst s'
  -- A verdict at either end is a verdict on the whole stream, and that is the same for both.
  rcases hu with ⟨hw, rfl⟩ | ⟨e, t, rest, hh⟩ <;> rcases hu' with ⟨hw', rfl⟩ | ⟨e', t', rest', hh'⟩
  · left
    simp only [List.append_nil] at hbuffer
    exact ⟨hw, by rw [hbuffer]⟩
  · have hlong := M.halt_append unread' hh'
    rw [← hbuffer, List.append_nil, hw] at hlong
    cases hlong
  · have hlong := M.halt_append unread hh
    rw [hbuffer, List.append_nil, hw'] at hlong
    cases hlong
  · right
    have hlong := M.halt_append unread hh
    rw [hbuffer, M.halt_append unread' hh'] at hlong
    obtain ⟨rfl, rfl, -⟩ := Verdict.halt.inj hlong
    exact ⟨e', t', rest, rest', hh, hh'⟩

end PrefixMachine
