import Mathlib.Init

/-! Writers and readers that are exact inverses of each other. A writer appends to a buffer, a
reader consumes the front of its input; both may raise. -/

abbrev Coder (β ε α : Type) := StateT (List β) (Except ε) α

namespace Codec

variable {α β γ ε : Type}

/-- `raise error` if the input is not used up. -/
def atEnd (error : Nat → ε) : Coder β ε Unit := do
  let rest ← get
  if rest ≠ [] then throw (error rest.length)

/-- The reader accepts in front of an admissible `tail` what the writer writes for a value with
`P`, and nothing else: it returns the value written and leaves the tail, and with another tail
it raises. -/
structure Inverse (tail : List β → Prop) (P : α → Prop) (write : α → Coder β ε Unit)
    (read : Coder β ε α) : Prop where
  read_write : ∀ {a buffer buffer'}, P a → (write a).run buffer = .ok ((), buffer') →
    ∃ u, buffer' = buffer ++ u ∧ ∀ rest,
      (tail rest → read.run (u ++ rest) = .ok (a, rest)) ∧
      (¬ tail rest → ∃ e, read.run (u ++ rest) = .error e)
  write_read : ∀ {input a rest}, read.run input = .ok (a, rest) →
    P a ∧ tail rest ∧ ∃ u, input = u ++ rest ∧
      ∀ buffer, (write a).run buffer = .ok ((), buffer ++ u)

/-- Any input may follow. -/
def Open : List β → Prop := fun _ => True

/-- Nothing may follow. -/
def Closed : List β → Prop := fun rest => rest = []

theorem run_bind_eq_ok {x : Coder β ε α} {f : α → Coder β ε γ} {s s' : List β} {c : γ} :
    (x >>= f).run s = .ok (c, s') ↔
      ∃ a t, x.run s = .ok (a, t) ∧ (f a).run t = .ok (c, s') := by
  rw [StateT.run_bind]
  cases hx : x.run s with
  | error e => simp [bind, Except.bind]
  | ok r =>
    simp only [bind, Except.bind, Except.ok.injEq]
    constructor
    · exact fun h => ⟨r.1, r.2, rfl, h⟩
    · intro hall
      obtain ⟨a, t, rfl, h⟩ := hall
      exact h

theorem run_bind_of_ok {x : Coder β ε α} {f : α → Coder β ε γ} {s t : List β} {a : α}
    (h : x.run s = .ok (a, t)) : (x >>= f).run s = (f a).run t := by
  rw [StateT.run_bind, h]
  rfl

theorem run_liftM_eq_ok {x : Except ε α} {s s' : List β} {a : α} :
    (liftM x : Coder β ε α).run s = .ok (a, s') ↔ x = .ok a ∧ s' = s := by
  cases x with
  | error e =>
    simp only [reduceCtorEq, false_and, iff_false]
    intro h
    cases h
  | ok b =>
    change Except.ok (b, s) = Except.ok (a, s') ↔ _
    simp only [Except.ok.injEq, Prod.mk.injEq, eq_comm]

/-- A loop of writers raises what the first of them raises that does not come back. -/
theorem forM_run_eq_error {write : α → Coder β ε PUnit} {items : List α} {s : List β} {e : ε} :
    (items.forM write).run s = .error e ↔
      ∃ before item after t, items = before ++ item :: after ∧
        (before.forM write).run s = .ok ((), t) ∧ (write item).run t = .error e := by
  induction items generalizing s with
  | nil =>
    constructor
    · intro h
      cases h
    · intro hall
      obtain ⟨before, item, after, _, hitems, -⟩ := hall
      simp at hitems
  | cons first items ih =>
    have hsplit : (first :: items).forM write = write first >>= fun _ => items.forM write := rfl
    rw [hsplit, StateT.run_bind]
    cases hfirst : (write first).run s with
    | error e' =>
      simp only [bind, Except.bind, Except.error.injEq]
      constructor
      · intro he
        exact ⟨[], first, items, s, rfl, rfl, by rw [hfirst, he]⟩
      · intro hall
        obtain ⟨before, item, after, t, hitems, hbefore, hitem⟩ := hall
        cases before with
        | nil =>
          obtain ⟨rfl, rfl⟩ := List.cons.inj hitems
          cases hbefore
          rw [hfirst] at hitem
          exact Except.error.inj hitem
        | cons other before =>
          obtain ⟨rfl, rfl⟩ := List.cons.inj hitems
          obtain ⟨_, _, hother, -⟩ := run_bind_eq_ok.mp
            (show (write first >>= fun _ => before.forM write).run s = .ok ((), t) from hbefore)
          rw [hfirst] at hother
          cases hother
    | ok r =>
      obtain ⟨⟨⟩, middle⟩ := r
      change (items.forM write).run middle = .error e ↔ _
      rw [ih]
      constructor
      · intro hall
        obtain ⟨before, item, after, t, rfl, hbefore, hitem⟩ := hall
        have hlonger : ((first :: before).forM write).run s = (before.forM write).run middle :=
          run_bind_of_ok hfirst
        exact ⟨first :: before, item, after, t, rfl, by rw [hlonger, hbefore], hitem⟩
      · intro hall
        obtain ⟨before, item, after, t, hitems, hbefore, hitem⟩ := hall
        cases before with
        | nil =>
          obtain ⟨rfl, rfl⟩ := List.cons.inj hitems
          cases hbefore
          rw [hfirst] at hitem
          cases hitem
        | cons other before =>
          obtain ⟨rfl, rfl⟩ := List.cons.inj hitems
          have hlonger : ((first :: before).forM write).run s = (before.forM write).run middle :=
            run_bind_of_ok hfirst
          exact ⟨before, item, after, t, rfl, by rw [← hlonger, hbefore], hitem⟩

/-- The reader leaves a suffix of its input. -/
def Consumes (read : Coder β ε α) : Prop :=
  ∀ input a rest, read.run input = .ok (a, rest) → rest <:+ input

theorem Consumes.pure (a : α) : Consumes (Pure.pure a : Coder β ε α) := by
  intro input b rest h
  cases h
  exact List.suffix_refl input

theorem Consumes.bind {x : Coder β ε α} {f : α → Coder β ε γ} (hx : Consumes x)
    (hf : ∀ a, Consumes (f a)) : Consumes (x >>= f) := by
  intro input c rest h
  obtain ⟨a, middle, hfirst, hlater⟩ := run_bind_eq_ok.mp h
  exact (hf a _ _ _ hlater).trans (hx _ _ _ hfirst)

/-- Every exception of the reader is a `bad` one. -/
def RaisesOnly (bad : ε → Prop) (read : Coder β ε α) : Prop :=
  ∀ input e, read.run input = .error e → bad e

theorem RaisesOnly.pure {bad : ε → Prop} (a : α) :
    RaisesOnly bad (Pure.pure a : Coder β ε α) := by
  intro input e h
  cases h

theorem RaisesOnly.lift {bad : ε → Prop} {x : Except ε α} (h : ∀ e, x = .error e → bad e) :
    RaisesOnly bad (liftM x : Coder β ε α) := by
  intro input e he
  cases x with
  | error e' =>
    cases he
    exact h e rfl
  | ok a => cases he

theorem RaisesOnly.bind {bad : ε → Prop} {x : Coder β ε α} {f : α → Coder β ε γ}
    (hx : RaisesOnly bad x)
    (hf : ∀ input a rest, x.run input = .ok (a, rest) → RaisesOnly bad (f a)) :
    RaisesOnly bad (x >>= f) := by
  intro input e h
  cases hr : x.run input with
  | error e' =>
    rw [StateT.run_bind, hr] at h
    cases h
    exact hx input e hr
  | ok r =>
    rw [run_bind_of_ok hr] at h
    exact hf input r.1 r.2 hr r.2 e h

theorem RaisesOnly.seq {bad : ε → Prop} {x : Coder β ε α} {f : α → Coder β ε γ}
    (hx : RaisesOnly bad x) (hf : ∀ a, RaisesOnly bad (f a)) : RaisesOnly bad (x >>= f) :=
  hx.bind fun _ a _ _ => hf a

variable {tail : List β → Prop} {P : α → Prop} {Q : γ → Prop}

/-- A field with a wire form: the writer appends it, the reader takes it off. -/
theorem Inverse.ofWire {write : α → Coder β ε Unit} {read : Coder β ε α}
    (wire : α → List β → Prop)
    (hwrite : ∀ a buffer buffer', (write a).run buffer = .ok ((), buffer') ↔
      ∃ u, wire a u ∧ buffer' = buffer ++ u)
    (hread : ∀ input a rest, read.run input = .ok (a, rest) ↔
      P a ∧ ∃ u, wire a u ∧ input = u ++ rest) : Inverse Open P write read where
  read_write := by
    intro a buffer buffer' hP hw
    obtain ⟨u, hwire, hbuffer⟩ := (hwrite a buffer buffer').mp hw
    refine ⟨u, hbuffer, fun rest => ⟨fun _ => ?_, fun hclosed => absurd trivial hclosed⟩⟩
    exact (hread _ a rest).mpr ⟨hP, u, hwire, rfl⟩
  write_read := by
    intro input a rest hr
    obtain ⟨hP, u, hwire, hinput⟩ := (hread input a rest).mp hr
    exact ⟨hP, trivial, u, hinput, fun buffer => (hwrite a buffer _).mpr ⟨u, hwire, rfl⟩⟩

/-- First one field, then the rest of a value whose field is known. -/
theorem Inverse.bind {first : γ → Coder β ε Unit} {readFirst : Coder β ε γ}
    {later : α → Coder β ε Unit} {readLater : γ → Coder β ε α} (field : α → γ)
    (hfirst : Inverse Open Q first readFirst) (hfield : ∀ a, P a → Q (field a))
    (hlater : ∀ c, Q c → Inverse tail (fun a => P a ∧ field a = c) later (readLater c)) :
    Inverse tail P (fun a => do first (field a); later a)
      (do let c ← readFirst; readLater c) where
  read_write := by
    intro a buffer buffer' hP hw
    obtain ⟨⟨⟩, mid, hw1, hw2⟩ := run_bind_eq_ok.mp hw
    obtain ⟨u1, rfl, hr1⟩ := hfirst.read_write (hfield a hP) hw1
    obtain ⟨u2, rfl, hr2⟩ := (hlater _ (hfield a hP)).read_write ⟨hP, rfl⟩ hw2
    refine ⟨u1 ++ u2, by rw [List.append_assoc], fun rest => ?_⟩
    have hhead := (hr1 (u2 ++ rest)).1 trivial
    rw [List.append_assoc, run_bind_of_ok hhead]
    exact hr2 rest
  write_read := by
    intro input a rest hr
    obtain ⟨c, mid, hr1, hr2⟩ := run_bind_eq_ok.mp hr
    obtain ⟨hQ, -, u1, rfl, hw1⟩ := hfirst.write_read hr1
    obtain ⟨⟨hP, rfl⟩, htail, u2, rfl, hw2⟩ := (hlater c hQ).write_read hr2
    refine ⟨hP, htail, u1 ++ u2, by rw [List.append_assoc], fun buffer => ?_⟩
    rw [run_bind_of_ok (hw1 buffer), hw2, List.append_assoc]

/-- The last field: no write follows it. -/
theorem Inverse.last {first : γ → Coder β ε Unit} {readFirst : Coder β ε γ}
    {readLater : γ → Coder β ε α} (field : α → γ) (hfirst : Inverse Open Q first readFirst)
    (hfield : ∀ a, P a → Q (field a))
    (hlater : ∀ c, Q c →
      Inverse tail (fun a => P a ∧ field a = c) (fun _ => pure ()) (readLater c)) :
    Inverse tail P (fun a => first (field a)) (do let c ← readFirst; readLater c) := by
  have h := Inverse.bind field hfirst hfield hlater
  simpa only [bind_pure_unit] using h

/-- A field that may take every value. -/
theorem Inverse.field {first : γ → Coder β ε Unit} {readFirst : Coder β ε γ}
    {later : α → Coder β ε Unit} {readLater : γ → Coder β ε α} (field : α → γ)
    (hfirst : Inverse Open (fun _ => True) first readFirst)
    (hlater : ∀ c, Inverse tail (fun a => P a ∧ field a = c) later (readLater c)) :
    Inverse tail P (fun a => do first (field a); later a)
      (do let c ← readFirst; readLater c) :=
  Inverse.bind field hfirst (fun _ _ => trivial) (fun c _ => hlater c)

theorem Inverse.lastField {first : γ → Coder β ε Unit} {readFirst : Coder β ε γ}
    {readLater : γ → Coder β ε α} (field : α → γ)
    (hfirst : Inverse Open (fun _ => True) first readFirst)
    (hlater : ∀ c, Inverse tail (fun a => P a ∧ field a = c) (fun _ => pure ()) (readLater c)) :
    Inverse tail P (fun a => first (field a)) (do let c ← readFirst; readLater c) :=
  Inverse.last field hfirst (fun _ _ => trivial) (fun c _ => hlater c)

/-- All fields are known, so the value is. -/
theorem Inverse.done {a : α} (h : ∀ b, P b ↔ b = a) :
    Inverse Open P (fun _ => (pure () : Coder β ε Unit)) (pure a) where
  read_write := by
    intro b buffer buffer' hP hw
    cases hw
    exact ⟨[], (List.append_nil buffer).symm, fun rest =>
      ⟨fun _ => by rw [(h b).mp hP]; rfl, fun hn => absurd trivial hn⟩⟩
  write_read := by
    intro input b rest hr
    cases hr
    exact ⟨(h a).mpr rfl, trivial, [], rfl, fun buffer => by rw [List.append_nil]; rfl⟩

/-- With everything written, the reader may insist on the end of the input. -/
theorem Inverse.finish {read : Coder β ε α} (error : Nat → ε)
    (h : Inverse Open P (fun _ => pure ()) read) :
    Inverse Closed P (fun _ => pure ()) (do atEnd error; read) where
  read_write := by
    intro a buffer buffer' hP hw
    obtain ⟨u, hu, hr⟩ := h.read_write hP hw
    cases hw
    obtain rfl : u = [] := by simpa using hu
    refine ⟨[], hu, fun rest => ⟨?_, ?_⟩⟩
    · intro hall
      subst hall
      exact (hr []).1 trivial
    · intro hne
      refine ⟨error rest.length, ?_⟩
      cases rest with
      | nil => exact absurd rfl hne
      | cons b rest => rfl
  write_read := by
    intro input a rest hr
    cases input with
    | nil =>
      obtain ⟨hP, -, u, hu, hw⟩ := h.write_read (show read.run [] = .ok (a, rest) from hr)
      obtain ⟨rfl, rfl⟩ := List.append_eq_nil_iff.mp hu.symm
      exact ⟨hP, rfl, [], rfl, hw⟩
    | cons b input => cases hr

/-- A check of the writer that the reader's results always pass. -/
theorem Inverse.writeCheck {write : α → Coder β ε Unit} {read : Coder β ε α} (bad : α → Prop)
    [DecidablePred bad] (error : α → ε)
    (h : Inverse tail (fun a => P a ∧ ¬ bad a) write read) :
    Inverse tail P (fun a => do (if bad a then throw (error a) else pure ()); write a) read where
  read_write := by
    intro a buffer buffer' hP hw
    by_cases hbad : bad a
    · rw [if_pos hbad] at hw
      cases hw
    · rw [if_neg hbad] at hw
      exact h.read_write ⟨hP, hbad⟩ hw
  write_read := by
    intro input a rest hr
    obtain ⟨⟨hP, hbad⟩, htail, u, hu, hw⟩ := h.write_read hr
    refine ⟨hP, htail, u, hu, fun buffer => ?_⟩
    rw [if_neg hbad]
    exact hw buffer

/-- A check of the reader on what it already knows, passed by every value that may come. -/
theorem Inverse.readCheck {write : α → Coder β ε Unit} {read : Coder β ε α} {bad : Prop}
    [Decidable bad] (error : ε) (hbad : ∀ a, P a → ¬ bad)
    (h : ¬ bad → Inverse tail P write read) :
    Inverse tail P write (do (if bad then throw error else pure ()); read) where
  read_write := by
    intro a buffer buffer' hP hw
    rw [if_neg (hbad a hP)]
    exact (h (hbad a hP)).read_write hP hw
  write_read := by
    intro input a rest hr
    by_cases hb : bad
    · rw [if_pos hb] at hr
      cases hr
    · rw [if_neg hb] at hr
      exact (h hb).write_read hr

/-- What the two functions of a message class owe each other: they invert each other in both
directions, and neither a strict prefix nor an extension of an accepted input is accepted. -/
structure Exact (encode : α → Except ε (List β)) (decode : List β → Except ε α) : Prop where
  decode_encode : ∀ a p, encode a = .ok p → decode p = .ok a
  encode_decode : ∀ p a, decode p = .ok a → encode a = .ok p
  long_rejected : ∀ p a, decode p = .ok a → ∀ t, t ≠ [] → ∃ e, decode (p ++ t) = .error e
  short_rejected : ∀ p a, decode p = .ok a → ∀ q, q <+: p → q ≠ p → ∃ e, decode q = .error e

/-- What a writer has written into an empty buffer. -/
def written (write : Coder β ε Unit) : Except ε (List β) :=
  (write.run []).map Prod.snd

/-- What a reader returns on the whole input. -/
def parsed (read : Coder β ε α) (input : List β) : Except ε α :=
  (read.run input).map Prod.fst

theorem written_eq_ok {write : Coder β ε Unit} {p : List β} :
    written write = .ok p ↔ write.run [] = .ok ((), p) := by
  unfold written
  cases write.run [] with
  | error e => simp [Except.map]
  | ok r => obtain ⟨⟨⟩, buffer⟩ := r; simp [Except.map]

theorem parsed_eq_ok {read : Coder β ε α} {input : List β} {a : α} :
    parsed read input = .ok a ↔ ∃ rest, read.run input = .ok (a, rest) := by
  unfold parsed
  cases read.run input with
  | error e => simp [Except.map]
  | ok r => obtain ⟨b, rest⟩ := r; simp [Except.map]

theorem parsed_eq_error {read : Coder β ε α} {input : List β} {e : ε} :
    parsed read input = .error e ↔ read.run input = .error e := by
  unfold parsed
  cases read.run input with
  | error e => simp [Except.map]
  | ok r => simp [Except.map]

theorem RaisesOnly.parsed {bad : ε → Prop} {read : Coder β ε α} (h : RaisesOnly bad read)
    {input : List β} {e : ε} (he : parsed read input = .error e) : bad e :=
  h input e (parsed_eq_error.mp he)

/-- Writers and readers that invert each other up to the end of the input make an exact codec. -/
theorem Inverse.exact {write : α → Coder β ε Unit} {read : Coder β ε α}
    (h : Inverse Closed (fun _ => True) write read) :
    Exact (fun a => written (write a)) (parsed read) := by
  have hencode : ∀ p a, parsed read p = .ok a → written (write a) = .ok p := by
    intro p a hp
    obtain ⟨rest, hr⟩ := parsed_eq_ok.mp hp
    obtain ⟨-, rfl, u, rfl, hw⟩ := h.write_read hr
    rw [List.append_nil]
    exact written_eq_ok.mpr (hw [])
  have htrailing : ∀ p a, parsed read p = .ok a → ∀ t, t ≠ [] →
      ∃ e, parsed read (p ++ t) = .error e := by
    intro p a hp t ht
    obtain ⟨u, hu, hr⟩ := h.read_write trivial (written_eq_ok.mp (hencode p a hp))
    rw [List.nil_append] at hu
    obtain ⟨e, he⟩ := (hr t).2 ht
    exact ⟨e, parsed_eq_error.mpr (hu ▸ he)⟩
  refine ⟨?_, hencode, htrailing, ?_⟩
  · intro a p hp
    obtain ⟨u, hu, hr⟩ := h.read_write trivial (written_eq_ok.mp hp)
    have hread := (hr []).1 rfl
    rw [List.append_nil] at hread
    rw [hu, List.nil_append]
    exact parsed_eq_ok.mpr ⟨[], hread⟩
  · intro p a hp q hprefix hne
    obtain ⟨t, rfl⟩ := hprefix
    cases hq : parsed read q with
    | error e => exact ⟨e, rfl⟩
    | ok b =>
      have ht : t ≠ [] := by
        intro hall
        subst hall
        exact hne (List.append_nil q).symm
      obtain ⟨e, he⟩ := htrailing q b hq t ht
      rw [he] at hp
      cases hp

end Codec
