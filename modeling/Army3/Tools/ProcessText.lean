import Army3.Protocol.PyStr

/-! `bytes.decode` of what is read from a process, with `errors="replace"`, and UTF-16. -/

namespace Army3

namespace PyStr

/-- What stands for undecodable bytes. -/
def replacement : CodePoint := CodePoint.ofChar '\uFFFD'

def codePoint (value : Nat) : CodePoint :=
  if h : value < 0x110000 then ⟨value, h⟩ else replacement

def IsHigh (unit : Nat) : Prop := 0xD800 ≤ unit ∧ unit < 0xDC00

def IsLow (unit : Nat) : Prop := 0xDC00 ≤ unit ∧ unit < 0xE000

instance (unit : Nat) : Decidable (IsHigh unit) := inferInstanceAs (Decidable (_ ∧ _))

instance (unit : Nat) : Decidable (IsLow unit) := inferInstanceAs (Decidable (_ ∧ _))

/-- The code units of some bytes, and whether one byte is left over. -/
def utf16Units : Bytes → List Nat × Bool
  | [] => ([], false)
  | [_] => ([], true)
  | low :: high :: rest =>
    let later := utf16Units rest
    ((low.toNat + 256 * high.toNat) :: later.1, later.2)

/-- A unit that is not part of a pair. -/
def single (unit : Nat) : CodePoint := if IsLow unit then replacement else codePoint unit

/-- The text of code units; a high surrogate waits for its other half. Bytes that are missing at the
end make one replacement together with it. -/
def decodeUnits (odd : Bool) : Option Nat → List Nat → PyStr
  | some _, [] => [replacement]
  | none, [] => if odd then [replacement] else []
  | some high, unit :: rest =>
    if IsLow unit then
      codePoint (0x10000 + (high - 0xD800) * 0x400 + (unit - 0xDC00)) :: decodeUnits odd none rest
    else if IsHigh unit then replacement :: decodeUnits odd (some unit) rest
    else replacement :: single unit :: decodeUnits odd none rest
  | none, unit :: rest =>
    if IsHigh unit then decodeUnits odd (some unit) rest
    else single unit :: decodeUnits odd none rest

/-- `raw.decode("utf-16-le", errors="replace")` -/
def decodeUtf16 (raw : Bytes) : PyStr :=
  decodeUnits (utf16Units raw).2 none (utf16Units raw).1

def unitsOf (c : CodePoint) : List Nat :=
  if c.val < 0x10000 then [c.val]
  else [0xD800 + (c.val - 0x10000) / 0x400, 0xDC00 + (c.val - 0x10000) % 0x400]

def unitBytes (unit : Nat) : Bytes := [UInt8.ofNat unit, UInt8.ofNat (unit / 256)]

/-- `text.encode("utf-16-le")` -/
def encodeUtf16 (text : PyStr) : Except PyError Bytes :=
  if text.any fun c => decide c.IsSurrogate then .error .unicodeEncodeError
  else .ok ((text.flatMap unitsOf).flatMap unitBytes)

/-- A sequence of UTF-8 that has begun: its bits so far, how many bytes are still to come, and the
range of the next one. -/
structure Utf8Pending where
  bits : Nat
  missing : Nat
  low : Nat
  high : Nat
  deriving DecidableEq, Repr

/-- What the first byte of a sequence gives at once, or leaves open. -/
def utf8Start (byte : Nat) : PyStr × Option Utf8Pending :=
  if byte < 0x80 then ([codePoint byte], none)
  else if 0xC2 ≤ byte ∧ byte ≤ 0xDF then ([], some ⟨byte % 32, 1, 0x80, 0xBF⟩)
  else if byte = 0xE0 then ([], some ⟨0, 2, 0xA0, 0xBF⟩)
  else if byte = 0xED then ([], some ⟨13, 2, 0x80, 0x9F⟩)
  else if 0xE1 ≤ byte ∧ byte ≤ 0xEF then ([], some ⟨byte % 16, 2, 0x80, 0xBF⟩)
  else if byte = 0xF0 then ([], some ⟨0, 3, 0x90, 0xBF⟩)
  else if 0xF1 ≤ byte ∧ byte ≤ 0xF3 then ([], some ⟨byte % 8, 3, 0x80, 0xBF⟩)
  else if byte = 0xF4 then ([], some ⟨4, 3, 0x80, 0x8F⟩)
  else ([replacement], none)

/-- Each longest beginning of a sequence that cannot be completed makes one replacement. -/
def decodeUtf8From : Option Utf8Pending → Bytes → PyStr
  | some _, [] => [replacement]
  | none, [] => []
  | none, byte :: rest =>
    let start := utf8Start byte.toNat
    start.1 ++ decodeUtf8From start.2 rest
  | some pending, byte :: rest =>
    if pending.low ≤ byte.toNat ∧ byte.toNat ≤ pending.high then
      let bits := pending.bits * 64 + byte.toNat % 64
      if pending.missing = 1 then codePoint bits :: decodeUtf8From none rest
      else decodeUtf8From (some ⟨bits, pending.missing - 1, 0x80, 0xBF⟩) rest
    else
      let start := utf8Start byte.toNat
      replacement :: (start.1 ++ decodeUtf8From start.2 rest)

/-- `raw.decode("utf-8", errors="replace")` -/
def decodeUtf8Replace (raw : Bytes) : PyStr := decodeUtf8From none raw

theorem utf16Units_flatMap {units : List Nat} (h : ∀ unit ∈ units, unit < 0x10000) :
    utf16Units (units.flatMap unitBytes) = (units, false) := by
  induction units with
  | nil => rfl
  | cons unit units ih =>
    have hunit := h unit List.mem_cons_self
    have hrest := ih fun later hlater => h later (List.mem_cons_of_mem unit hlater)
    have hvalue : (UInt8.ofNat unit).toNat + 256 * (UInt8.ofNat (unit / 256)).toNat = unit := by
      simp only [UInt8.toNat_ofNat']
      omega
    simp only [List.flatMap_cons, unitBytes, List.cons_append, List.nil_append, utf16Units, hvalue]
    rw [hrest]

theorem unitsOf_lt {c : CodePoint} : ∀ unit ∈ unitsOf c, unit < 0x10000 := by
  have hlt := c.isLt
  intro unit hunit
  unfold unitsOf at hunit
  split at hunit
  · simp only [List.mem_singleton] at hunit
    omega
  · simp only [List.mem_cons, List.not_mem_nil, or_false] at hunit
    omega

theorem codePoint_val {c : CodePoint} {value : Nat} (h : value = c.val) : codePoint value = c := by
  subst h
  exact dif_pos c.isLt

theorem decodeUnits_unitsOf {c : CodePoint} (h : ¬ c.IsSurrogate) (rest : List Nat) :
    decodeUnits false none (unitsOf c ++ rest) = c :: decodeUnits false none rest := by
  have hlt := c.isLt
  unfold CodePoint.IsSurrogate at h
  unfold unitsOf
  by_cases hsmall : c.val < 0x10000
  · have hhigh : ¬ IsHigh c.val := by
      unfold IsHigh
      omega
    have hlow : ¬ IsLow c.val := by
      unfold IsLow
      omega
    have hvalue : codePoint c.val = c := codePoint_val rfl
    simp only [if_pos hsmall, List.singleton_append, decodeUnits, if_neg hhigh, single, if_neg hlow,
      hvalue]
  · have hhigh : IsHigh (0xD800 + (c.val - 0x10000) / 0x400) := by
      unfold IsHigh
      omega
    have hlow : IsLow (0xDC00 + (c.val - 0x10000) % 0x400) := by
      unfold IsLow
      omega
    have hvalue : codePoint (0x10000 + (0xD800 + (c.val - 0x10000) / 0x400 - 0xD800) * 0x400 +
        (0xDC00 + (c.val - 0x10000) % 0x400 - 0xDC00)) = c := codePoint_val (by omega)
    simp only [if_neg hsmall, List.cons_append, List.nil_append, decodeUnits, if_pos hhigh,
      if_pos hlow, hvalue]

/-- Text that can be encoded comes back. -/
theorem decodeUtf16_of_encodeUtf16 {text : PyStr} {raw : Bytes} (h : encodeUtf16 text = .ok raw) :
    decodeUtf16 raw = text := by
  unfold encodeUtf16 at h
  by_cases hbad : text.any fun c => decide c.IsSurrogate
  · rw [if_pos hbad] at h
    cases h
  · rw [if_neg hbad] at h
    obtain rfl := Except.ok.inj h
    simp only [List.any_eq_true, decide_eq_true_eq, not_exists, not_and] at hbad
    have hunits : ∀ unit ∈ text.flatMap unitsOf, unit < 0x10000 := by
      intro unit hunit
      obtain ⟨c, -, hc⟩ := List.mem_flatMap.mp hunit
      exact unitsOf_lt unit hc
    unfold decodeUtf16
    rw [utf16Units_flatMap hunits]
    clear hunits h
    induction text with
    | nil => rfl
    | cons c text ih =>
      rw [List.flatMap_cons, decodeUnits_unitsOf (hbad c List.mem_cons_self), ih]
      exact fun later hlater => hbad later (List.mem_cons_of_mem c hlater)

theorem length_even_of_encodeUtf16 {text : PyStr} {raw : Bytes} (h : encodeUtf16 text = .ok raw) :
    raw.length % 2 = 0 := by
  unfold encodeUtf16 at h
  split at h
  · cases h
  · obtain rfl := Except.ok.inj h
    have heven : ∀ units : List Nat, (units.flatMap unitBytes).length % 2 = 0 := by
      intro units
      induction units with
      | nil => rfl
      | cons unit units ih =>
        rw [List.flatMap_cons, List.length_append, unitBytes]
        simp only [List.length_cons, List.length_nil]
        omega
    exact heven _

end PyStr

end Army3
