import Army3.Protocol.Errors

namespace Army3

abbrev CodePoint := Fin 0x110000

namespace CodePoint

/-- The scalar value of a code point; lone surrogates have none. -/
def toChar? (p : CodePoint) : Option Char :=
  if h : p.val.isValidChar then some (Char.ofNatAux p.val h) else none

def ofChar (c : Char) : CodePoint := ⟨c.toNat, by
  rcases c.valid with h | ⟨-, h⟩
  · exact Nat.lt_trans h (by decide)
  · exact h⟩

theorem toChar?_eq_some {p : CodePoint} {c : Char} : p.toChar? = some c ↔ p = ofChar c := by
  unfold toChar?
  constructor
  · intro h
    by_cases hv : p.val.isValidChar
    · rw [dif_pos hv] at h
      obtain rfl := Option.some.inj h
      rfl
    · rw [dif_neg hv] at h
      cases h
  · intro hall
    subst hall
    have hv : (ofChar c).val.isValidChar := c.valid
    rw [dif_pos hv]
    rfl

/-- Half of a surrogate pair, which no well-formed encoding holds. -/
def IsSurrogate (p : CodePoint) : Prop := 0xD800 ≤ p.val ∧ p.val ≤ 0xDFFF

instance (p : CodePoint) : Decidable p.IsSurrogate := inferInstanceAs (Decidable (_ ∧ _))

theorem toChar?_eq_none {p : CodePoint} : p.toChar? = none ↔ p.IsSurrogate := by
  have hlt := p.isLt
  unfold toChar? IsSurrogate
  by_cases hv : p.val.isValidChar
  · rw [dif_pos hv]
    refine iff_of_false (Option.some_ne_none _) ?_
    rcases hv with hlow | hhigh <;> omega
  · rw [dif_neg hv]
    unfold Nat.isValidChar at hv
    simp only [true_iff]
    omega

end CodePoint

/-- A Python `str`: any sequence of code points. -/
abbrev PyStr := List CodePoint

namespace PyStr

def ofChars (chars : List Char) : PyStr := chars.map CodePoint.ofChar

/-- `value.encode("utf-8", errors="strict")`. -/
def encodeUtf8 (value : PyStr) : Except PyError Bytes :=
  match value.mapM CodePoint.toChar? with
  | some chars => .ok (chars.flatMap String.utf8EncodeChar)
  | none => .error .unicodeEncodeError

/-- `raw.decode("utf-8", errors="strict")`; `none` stands for `UnicodeDecodeError`. -/
def decodeUtf8 (raw : Bytes) : Option PyStr :=
  raw.toByteArray.utf8Decode?.map fun chars => ofChars chars.toList

theorem mapM_toChar?_eq_some {value : PyStr} {chars : List Char} :
    value.mapM CodePoint.toChar? = some chars ↔ value = ofChars chars := by
  induction value generalizing chars with
  | nil => cases chars <;> simp [ofChars]
  | cons p value ih =>
    cases chars with
    | nil => simp [ofChars, List.mapM_cons, Option.bind_eq_some_iff]
    | cons c chars =>
      simp only [List.mapM_cons, Option.bind_eq_bind, Option.bind_eq_some_iff, Option.pure_def,
        Option.some.injEq, List.cons.injEq, CodePoint.toChar?_eq_some, ih, ofChars, List.map_cons]
      constructor
      · intro h
        obtain ⟨c', hc, chars', hchars, rfl, rfl⟩ := h
        exact ⟨hc, hchars⟩
      · intro h
        obtain ⟨hc, hchars⟩ := h
        exact ⟨c, hc, chars, hchars, rfl, rfl⟩

theorem utf8Decode?_eq_some {raw : Bytes} {chars : Array Char} :
    raw.toByteArray.utf8Decode? = some chars ↔
      raw = chars.toList.flatMap String.utf8EncodeChar := by
  constructor
  · intro h
    have hsome : raw.toByteArray.utf8Decode?.isSome := by rw [h]; rfl
    have hget : raw.toByteArray.utf8Decode?.get hsome = chars := Option.get_of_eq_some hsome h
    have henc := ByteArray.utf8Encode_get_utf8Decode? (h := hsome)
    rw [hget] at henc
    exact (List.toByteArray_inj.mp henc).symm
  · intro hall
    subst hall
    have hdec := List.utf8Decode?_utf8Encode (l := chars.toList)
    rwa [Array.toArray_toList] at hdec

/-- The strict codec is a bijection between surrogate-free strings and well-formed UTF-8. -/
theorem encodeUtf8_eq_ok {value : PyStr} {raw : Bytes} :
    encodeUtf8 value = .ok raw ↔ decodeUtf8 raw = some value := by
  simp only [decodeUtf8, Option.map_eq_some_iff, utf8Decode?_eq_some, encodeUtf8]
  cases hm : value.mapM CodePoint.toChar? with
  | none =>
    simp only [reduceCtorEq, false_iff]
    intro hall
    obtain ⟨chars, -, rfl⟩ := hall
    rw [mapM_toChar?_eq_some.mpr rfl] at hm
    cases hm
  | some chars =>
    obtain rfl := mapM_toChar?_eq_some.mp hm
    constructor
    · intro h
      exact ⟨chars.toArray, by simpa using (Except.ok.inj h).symm, by simp⟩
    · intro hall
      obtain ⟨chars', hraw, hsame⟩ := hall
      rw [← hsame, mapM_toChar?_eq_some.mpr rfl] at hm
      obtain rfl := Option.some.inj hm
      rw [hraw]

theorem mapM_toChar?_eq_none {value : PyStr} :
    value.mapM CodePoint.toChar? = none ↔ ∃ p ∈ value, p.IsSurrogate := by
  induction value with
  | nil => simp
  | cons p value ih =>
    simp only [List.mem_cons, exists_eq_or_imp]
    rw [← ih, ← CodePoint.toChar?_eq_none, List.mapM_cons]
    cases p.toChar? <;> cases value.mapM CodePoint.toChar? <;> simp

/-- The strict encoder fails on surrogates and on nothing else. -/
theorem encodeUtf8_eq_error {value : PyStr} {e : PyError} :
    encodeUtf8 value = .error e ↔ e = .unicodeEncodeError ∧ ∃ p ∈ value, p.IsSurrogate := by
  rw [← mapM_toChar?_eq_none]
  unfold encodeUtf8
  cases value.mapM CodePoint.toChar? with
  | none => simp [eq_comm]
  | some chars => simp

end PyStr
end Army3
