import Army3.Framework.BigEndian
import Army3.Framework.Codec
import Army3.Protocol.PyStr
import Mathlib.Algebra.Ring.Int.Defs

namespace Army3
open Codec

/-- A method of `ByteWriter`; the state is the buffer. -/
abbrev ByteWriter := Coder UInt8 PyError Unit

/-- A method of `ByteReader`; the state is the unread part of the payload. -/
abbrev ByteReader (α : Type) := Coder UInt8 PyError α

def validateUint (value : Int) (bits : Nat) (fieldName : String) : Except PyError Nat := do
  let maximum : Int := 2 ^ bits - 1
  raiseIf (¬ (0 ≤ value ∧ value ≤ maximum))
    (.encodeError s!"{fieldName} must be between 0 and {maximum}")
  return value.toNat

def writeBytes (value : Bytes) : ByteWriter := modify (· ++ value)

/-- The unsigned writes: validate, then append `width` big-endian bytes. -/
def writeUint (width : Nat) (value : Int) (fieldName : String) : ByteWriter := do
  let digits ← validateUint value (8 * width) fieldName
  writeBytes (BigEndian.toBytes width digits)

def writeU8 (value : Int) (fieldName : String) : ByteWriter := writeUint 1 value fieldName
def writeU16 (value : Int) (fieldName : String) : ByteWriter := writeUint 2 value fieldName
def writeU32 (value : Int) (fieldName : String) : ByteWriter := writeUint 4 value fieldName

def writeString16 (value : PyStr) (fieldName : String) : ByteWriter := do
  let raw ← value.encodeUtf8
  raiseIf (0xFFFF < raw.length) (.encodeError s!"{fieldName} exceeds 65535 UTF-8 bytes")
  writeU16 raw.length s!"{fieldName}.length"
  writeBytes raw

def readExact (size : Int) (fieldName : String) : ByteReader Bytes := do
  raiseIf (size < 0) (.valueError "size must be a non-negative integer")
  let data ← get
  raiseIf (data.length < size) (.decodeError
    s!"truncated {fieldName}: need {size} byte(s), only {data.length} remain")
  set (data.drop size.toNat)
  return data.take size.toNat

/-- The unsigned reads: `width` big-endian bytes. -/
def readUint (width : Nat) (fieldName : String) : ByteReader Int := do
  let bytes ← readExact width fieldName
  return (BigEndian.fromBytes bytes : Int)

def readU8 (fieldName : String) : ByteReader Int := readUint 1 fieldName
def readU16 (fieldName : String) : ByteReader Int := readUint 2 fieldName
def readU32 (fieldName : String) : ByteReader Int := readUint 4 fieldName

/-- `max_string_bytes` is a field of the source's reader; every decoder leaves its default. -/
def readString16 (fieldName : String) (maxStringBytes : Int := 0xFFFF) : ByteReader PyStr := do
  let size ← readU16 s!"{fieldName}.length"
  raiseIf (maxStringBytes < size)
    (.decodeError s!"{fieldName} length {size} exceeds limit {maxStringBytes}")
  let raw ← readExact size fieldName
  match PyStr.decodeUtf8 raw with
  | some value => return value
  | none => throw (.decodeError s!"{fieldName} is not valid UTF-8")

def ensureFinished : ByteReader Unit :=
  atEnd fun remaining => .decodeError s!"payload has {remaining} trailing byte(s)"

theorem raiseIf_run_eq_ok {condition : Prop} [Decidable condition] {error : PyError}
    {s s' : Bytes} :
    (raiseIf condition error : ByteReader Unit).run s = .ok ((), s') ↔ ¬ condition ∧ s' = s := by
  by_cases h : condition
  · rw [raiseIf, if_pos h]
    simp only [h, not_true_eq_false, false_and, iff_false]
    intro hok
    cases hok
  · rw [raiseIf, if_neg h]
    change Except.ok ((), s) = Except.ok ((), s') ↔ _
    simp only [h, not_false_eq_true, true_and, Except.ok.injEq, Prod.mk.injEq, eq_comm]

theorem raiseIf_raisesOnly {condition : Prop} [Decidable condition] {error : PyError}
    {bad : PyError → Prop} (h : bad error) :
    RaisesOnly bad (raiseIf condition error : ByteReader Unit) := by
  intro data e he
  by_cases hc : condition
  · rw [raiseIf, if_pos hc] at he
    cases he
    exact h
  · rw [raiseIf, if_neg hc] at he
    cases he

theorem validateUint_eq_ok {value : Int} {bits : Nat} {fieldName : String} {digits : Nat} :
    validateUint value bits fieldName = .ok digits ↔ value = digits ∧ digits < 2 ^ bits := by
  have hrange : 0 ≤ value ∧ value ≤ 2 ^ bits - 1 ↔ 0 ≤ value ∧ value.toNat < 2 ^ bits := by
    have hcast : ((2 ^ bits : Nat) : Int) = 2 ^ bits := by push_cast; rfl
    omega
  simp only [validateUint, hrange]
  by_cases h : 0 ≤ value ∧ value.toNat < 2 ^ bits
  · simp only [h]
    change Except.ok value.toNat = .ok digits ↔ _
    rw [Except.ok.injEq]
    omega
  · simp only [h, not_false_eq_true]
    constructor
    · intro hok
      cases hok
    · intro hok
      omega

/-- The wire form of an unsigned number. -/
def UintWire (width : Nat) (value : Int) (wire : Bytes) : Prop :=
  ∃ digits : Nat, value = digits ∧ digits < 256 ^ width ∧ wire = BigEndian.toBytes width digits

/-- The wire form of a string: a two-byte length, then the UTF-8 bytes. -/
def String16Wire (value : PyStr) (wire : Bytes) : Prop :=
  ∃ raw, value.encodeUtf8 = .ok raw ∧ raw.length ≤ 0xFFFF ∧
    wire = BigEndian.toBytes 2 raw.length ++ raw

theorem uintWire_iff {width : Nat} {value : Int} {wire : Bytes} :
    UintWire width value wire ↔ wire.length = width ∧ value = (BigEndian.fromBytes wire : Int) := by
  constructor
  · intro h
    obtain ⟨digits, rfl, hdigits, rfl⟩ := h
    rw [BigEndian.fromBytes_toBytes _ _ hdigits]
    exact ⟨BigEndian.toBytes_length _ _, rfl⟩
  · intro hall
    obtain ⟨rfl, rfl⟩ := hall
    exact ⟨_, rfl, BigEndian.fromBytes_lt wire, (BigEndian.toBytes_fromBytes wire).symm⟩

theorem uintWire_one {value : Int} {wire : Bytes} :
    UintWire 1 value wire ↔ ∃ byte : UInt8, value = byte.toNat ∧ wire = [byte] := by
  rw [uintWire_iff, List.length_eq_one_iff]
  constructor
  · intro hall
    obtain ⟨⟨byte, rfl⟩, rfl⟩ := hall
    exact ⟨byte, by simp [BigEndian.fromBytes], rfl⟩
  · intro hall
    obtain ⟨byte, rfl, rfl⟩ := hall
    exact ⟨⟨byte, rfl⟩, by simp [BigEndian.fromBytes]⟩

theorem writeUint_run_eq_ok {width : Nat} {value : Int} {fieldName : String}
    {buffer buffer' : Bytes} :
    (writeUint width value fieldName).run buffer = .ok ((), buffer') ↔
      ∃ wire, UintWire width value wire ∧ buffer' = buffer ++ wire := by
  have hpow : 2 ^ (8 * width) = 256 ^ width := by rw [Nat.pow_mul]
  unfold writeUint
  constructor
  · intro h
    obtain ⟨digits, _, hlift, hend⟩ := run_bind_eq_ok.mp h
    obtain ⟨hvalid, rfl⟩ := run_liftM_eq_ok.mp hlift
    obtain ⟨hvalue, hdigits⟩ := validateUint_eq_ok.1 hvalid
    cases hend
    exact ⟨_, ⟨digits, hvalue, hpow ▸ hdigits, rfl⟩, rfl⟩
  · intro hall
    obtain ⟨wire, ⟨digits, hvalue, hdigits, rfl⟩, rfl⟩ := hall
    have hvalid : validateUint value (8 * width) fieldName = .ok digits :=
      validateUint_eq_ok.2 ⟨hvalue, hpow ▸ hdigits⟩
    rw [run_bind_of_ok (run_liftM_eq_ok.mpr ⟨hvalid, rfl⟩)]
    rfl

/-- An exact read succeeds if that much is left, and splits it off. -/
theorem readExact_run_eq_ok {size : Int} {fieldName : String} {data bytes rest : Bytes} :
    (readExact size fieldName).run data = .ok (bytes, rest) ↔
      (bytes.length : Int) = size ∧ data = bytes ++ rest := by
  unfold readExact
  constructor
  · intro h
    obtain ⟨_, _, hsign, hafterSign⟩ := run_bind_eq_ok.mp h
    obtain ⟨hsign, rfl⟩ := raiseIf_run_eq_ok.1 hsign
    obtain ⟨_, _, hget, hafterGet⟩ := run_bind_eq_ok.mp hafterSign
    cases hget
    obtain ⟨_, _, hlong, hend⟩ := run_bind_eq_ok.mp hafterGet
    obtain ⟨hlong, rfl⟩ := raiseIf_run_eq_ok.1 hlong
    cases hend
    refine ⟨?_, (List.take_append_drop _ _).symm⟩
    rw [List.length_take]
    omega
  · intro hall
    obtain ⟨rfl, rfl⟩ := hall
    have hsign : ¬ (bytes.length : Int) < 0 := by omega
    have hlong : ¬ ((bytes ++ rest).length : Int) < bytes.length := by
      rw [List.length_append]
      omega
    rw [run_bind_of_ok (raiseIf_run_eq_ok.2 ⟨hsign, rfl⟩),
      run_bind_of_ok (show (get : ByteReader Bytes).run _ = .ok (_, _) from rfl),
      run_bind_of_ok (raiseIf_run_eq_ok.2 ⟨hlong, rfl⟩)]
    change Except.ok (List.take bytes.length (bytes ++ rest), List.drop bytes.length _) = _
    rw [List.take_left, List.drop_left]

theorem readUint_run_eq_ok {width : Nat} {fieldName : String} {data rest : Bytes} {value : Int} :
    (readUint width fieldName).run data = .ok (value, rest) ↔
      ∃ wire, UintWire width value wire ∧ data = wire ++ rest := by
  unfold readUint
  constructor
  · intro h
    obtain ⟨bytes, _, hbytes, hend⟩ := run_bind_eq_ok.mp h
    obtain ⟨hlength, rfl⟩ := readExact_run_eq_ok.1 hbytes
    cases hend
    obtain rfl : bytes.length = width := by exact_mod_cast hlength
    exact ⟨bytes, ⟨_, rfl, BigEndian.fromBytes_lt bytes, (BigEndian.toBytes_fromBytes bytes).symm⟩,
      rfl⟩
  · intro hall
    obtain ⟨wire, ⟨digits, rfl, hdigits, rfl⟩, rfl⟩ := hall
    have hlength : ((BigEndian.toBytes width digits).length : Int) = width := by
      rw [BigEndian.toBytes_length]
    rw [run_bind_of_ok (readExact_run_eq_ok.2 ⟨hlength, rfl⟩),
      BigEndian.fromBytes_toBytes _ _ hdigits]
    rfl

theorem writeString16_run_eq_ok {value : PyStr} {fieldName : String} {buffer buffer' : Bytes} :
    (writeString16 value fieldName).run buffer = .ok ((), buffer') ↔
      ∃ wire, String16Wire value wire ∧ buffer' = buffer ++ wire := by
  unfold writeString16
  constructor
  · intro h
    obtain ⟨raw, _, hlift, hafterEnc⟩ := run_bind_eq_ok.mp h
    obtain ⟨henc, rfl⟩ := run_liftM_eq_ok.mp hlift
    obtain ⟨_, _, hcheck, hafterCheck⟩ := run_bind_eq_ok.mp hafterEnc
    obtain ⟨hlong, rfl⟩ := raiseIf_run_eq_ok.1 hcheck
    obtain ⟨_, _, hsize, hend⟩ := run_bind_eq_ok.mp hafterCheck
    obtain ⟨_, ⟨digits, hdigits, -, rfl⟩, rfl⟩ := writeUint_run_eq_ok.1 hsize
    cases hend
    obtain rfl : raw.length = digits := by exact_mod_cast hdigits
    exact ⟨_, ⟨raw, henc, by omega, rfl⟩, List.append_assoc ..⟩
  · intro hall
    obtain ⟨wire, ⟨raw, henc, hlong, rfl⟩, rfl⟩ := hall
    have hsize : UintWire 2 raw.length (BigEndian.toBytes 2 raw.length) :=
      ⟨raw.length, rfl, by omega, rfl⟩
    rw [run_bind_of_ok (run_liftM_eq_ok.mpr ⟨henc, rfl⟩),
      run_bind_of_ok (raiseIf_run_eq_ok.2 ⟨by omega, rfl⟩), writeU16,
      run_bind_of_ok (writeUint_run_eq_ok.2 ⟨_, hsize, rfl⟩), ← List.append_assoc]
    rfl

theorem readString16_run_eq_ok {value : PyStr} {fieldName : String} {data rest : Bytes} :
    (readString16 fieldName).run data = .ok (value, rest) ↔
      ∃ wire, String16Wire value wire ∧ data = wire ++ rest := by
  unfold readString16
  constructor
  · intro h
    obtain ⟨size, _, hsize, hafterSize⟩ := run_bind_eq_ok.mp h
    obtain ⟨_, ⟨digits, rfl, -, rfl⟩, rfl⟩ := readUint_run_eq_ok.1 hsize
    obtain ⟨_, _, hcheck, hafterCheck⟩ := run_bind_eq_ok.mp hafterSize
    obtain ⟨hlong, rfl⟩ := raiseIf_run_eq_ok.1 hcheck
    obtain ⟨raw, _, hraw, hend⟩ := run_bind_eq_ok.mp hafterCheck
    obtain ⟨hlength, rfl⟩ := readExact_run_eq_ok.1 hraw
    obtain rfl : raw.length = digits := by exact_mod_cast hlength
    cases hdec : PyStr.decodeUtf8 raw with
    | none =>
      rw [hdec] at hend
      cases hend
    | some text =>
      rw [hdec] at hend
      cases hend
      have henc := PyStr.encodeUtf8_eq_ok.mpr hdec
      exact ⟨_, ⟨raw, henc, by omega, rfl⟩, (List.append_assoc ..).symm⟩
  · intro hall
    obtain ⟨wire, ⟨raw, henc, hlong, rfl⟩, rfl⟩ := hall
    have hsize : UintWire 2 raw.length (BigEndian.toBytes 2 raw.length) :=
      ⟨raw.length, rfl, by omega, rfl⟩
    rw [List.append_assoc, readU16, run_bind_of_ok (readUint_run_eq_ok.2 ⟨_, hsize, rfl⟩),
      run_bind_of_ok (raiseIf_run_eq_ok.2 ⟨by omega, rfl⟩),
      run_bind_of_ok (readExact_run_eq_ok.2 ⟨rfl, rfl⟩), PyStr.encodeUtf8_eq_ok.mp henc]
    rfl

/-- One unsigned field taken off the front, the rest of the reader after it. -/
theorem readUint_bind_eq_ok {α : Type} {width : Nat} {fieldName : String} {f : Int → ByteReader α}
    {data rest : Bytes} {a : α} :
    (readUint width fieldName >>= f).run data = .ok (a, rest) ↔
      ∃ digits tail : Bytes, digits.length = width ∧ data = digits ++ tail ∧
        (f (BigEndian.fromBytes digits : Int)).run tail = .ok (a, rest) := by
  rw [run_bind_eq_ok]
  constructor
  · intro hall
    obtain ⟨value, tail, hread, hlater⟩ := hall
    obtain ⟨digits, hwire, hdata⟩ := readUint_run_eq_ok.1 hread
    obtain ⟨hlength, rfl⟩ := uintWire_iff.1 hwire
    exact ⟨digits, tail, hlength, hdata, hlater⟩
  · intro hall
    obtain ⟨digits, tail, hlength, hdata, hlater⟩ := hall
    exact ⟨_, tail, readUint_run_eq_ok.2 ⟨digits, uintWire_iff.2 ⟨hlength, rfl⟩, hdata⟩, hlater⟩

theorem readU8_bind_eq_ok {α : Type} {fieldName : String} {f : Int → ByteReader α}
    {data rest : Bytes} {a : α} :
    (readU8 fieldName >>= f).run data = .ok (a, rest) ↔
      ∃ (byte : UInt8) (tail : Bytes), data = byte :: tail ∧
        (f byte.toNat).run tail = .ok (a, rest) := by
  have hone : ∀ byte : UInt8, BigEndian.fromBytes [byte] = byte.toNat := by
    intro byte
    simp [BigEndian.fromBytes]
  rw [readU8, readUint_bind_eq_ok]
  constructor
  · intro hall
    obtain ⟨digits, tail, hlength, rfl, hlater⟩ := hall
    obtain ⟨byte, rfl⟩ := List.length_eq_one_iff.mp hlength
    rw [hone] at hlater
    exact ⟨byte, tail, rfl, hlater⟩
  · intro hall
    obtain ⟨byte, tail, rfl, hlater⟩ := hall
    exact ⟨[byte], tail, rfl, rfl, by rw [hone]; exact hlater⟩

theorem readString16_bind_eq_ok {α : Type} {fieldName : String} {f : PyStr → ByteReader α}
    {data rest : Bytes} {a : α} :
    (readString16 fieldName >>= f).run data = .ok (a, rest) ↔
      ∃ (value : PyStr) (text tail : Bytes), String16Wire value text ∧ data = text ++ tail ∧
        (f value).run tail = .ok (a, rest) := by
  rw [run_bind_eq_ok]
  constructor
  · intro hall
    obtain ⟨value, tail, hread, hlater⟩ := hall
    obtain ⟨text, htext, hdata⟩ := readString16_run_eq_ok.1 hread
    exact ⟨value, text, tail, htext, hdata, hlater⟩
  · intro hall
    obtain ⟨value, text, tail, htext, hdata, hlater⟩ := hall
    exact ⟨value, tail, readString16_run_eq_ok.2 ⟨text, htext, hdata⟩, hlater⟩

theorem raiseIf_bind_eq_ok {α : Type} {condition : Prop} [Decidable condition] {error : PyError}
    {f : Unit → Coder UInt8 PyError α} {s s' : Bytes} {a : α} :
    (raiseIf condition error >>= f : Coder UInt8 PyError α).run s = .ok (a, s') ↔
      ¬ condition ∧ (f ()).run s = .ok (a, s') := by
  rw [run_bind_eq_ok]
  constructor
  · intro hall
    obtain ⟨_, _, hraise, hlater⟩ := hall
    obtain ⟨hpass, rfl⟩ := raiseIf_run_eq_ok.1 hraise
    exact ⟨hpass, hlater⟩
  · intro hall
    exact ⟨(), s, raiseIf_run_eq_ok.2 ⟨hall.1, rfl⟩, hall.2⟩

/-- One unsigned field appended, the rest of the writer after it. -/
theorem writeUint_bind_eq_ok {width : Nat} {value : Int} {fieldName : String}
    {f : Unit → ByteWriter} {buffer buffer' : Bytes} :
    (writeUint width value fieldName >>= f).run buffer = .ok ((), buffer') ↔
      ∃ wire, UintWire width value wire ∧ (f ()).run (buffer ++ wire) = .ok ((), buffer') := by
  rw [run_bind_eq_ok]
  constructor
  · intro hall
    obtain ⟨_, _, hwrite, hlater⟩ := hall
    obtain ⟨wire, hwire, rfl⟩ := writeUint_run_eq_ok.1 hwrite
    exact ⟨wire, hwire, hlater⟩
  · intro hall
    obtain ⟨wire, hwire, hlater⟩ := hall
    exact ⟨(), _, writeUint_run_eq_ok.2 ⟨wire, hwire, rfl⟩, hlater⟩

theorem readUint_consumes (width : Nat) (fieldName : String) :
    Consumes (readUint width fieldName) := by
  intro data value rest h
  obtain ⟨wire, -, hdata⟩ := readUint_run_eq_ok.1 h
  exact ⟨wire, hdata.symm⟩

theorem readString16_consumes (fieldName : String) : Consumes (readString16 fieldName) := by
  intro data value rest h
  obtain ⟨wire, -, hdata⟩ := readString16_run_eq_ok.1 h
  exact ⟨wire, hdata.symm⟩

theorem exactBytes_inverse (size : Int) (fieldName : String) :
    Inverse Open (fun bytes : Bytes => (bytes.length : Int) = size) writeBytes
      (readExact size fieldName) := by
  apply Inverse.ofWire fun bytes wire => wire = bytes
  · intro bytes buffer buffer'
    constructor
    · intro h
      cases h
      exact ⟨bytes, rfl, rfl⟩
    · intro hall
      obtain ⟨wire, rfl, rfl⟩ := hall
      rfl
  · intro data bytes rest
    rw [readExact_run_eq_ok]
    simp only [exists_eq_left]

theorem uint_inverse (width : Nat) (writeName readName : String) :
    Inverse Open (fun _ => True) (writeUint width · writeName) (readUint width readName) := by
  apply Inverse.ofWire (UintWire width)
  · intro value buffer buffer'
    exact writeUint_run_eq_ok
  · intro data value rest
    rw [readUint_run_eq_ok, true_and]

/-- The signed byte: written modulo 256, read back from the upper half as negative. -/
theorem signedByte_inverse (writeName readName : String) :
    Inverse Open (fun value : Int => -128 ≤ value ∧ value ≤ 127)
      (fun value => writeU8 (value % 0x100) writeName)
      (do
        let raw ← readU8 readName
        return if raw < 0x80 then raw else raw - 0x100) := by
  apply Inverse.ofWire fun value wire => UintWire 1 (value % 0x100) wire
  · intro value buffer buffer'
    exact writeUint_run_eq_ok
  · intro data value rest
    rw [run_bind_eq_ok]
    constructor
    · intro hall
      obtain ⟨raw, _, hraw, hend⟩ := hall
      obtain ⟨wire, ⟨digits, rfl, hdigits, rfl⟩, rfl⟩ := readUint_run_eq_ok.1 hraw
      obtain ⟨hvalue, rfl⟩ := Prod.mk.inj (Except.ok.inj hend)
      have hbyte : digits < 0x100 := hdigits
      by_cases h : (digits : Int) < 0x80
      · rw [if_pos h] at hvalue
        exact ⟨by omega, _, ⟨digits, by omega, hdigits, rfl⟩, rfl⟩
      · rw [if_neg h] at hvalue
        exact ⟨by omega, _, ⟨digits, by omega, hdigits, rfl⟩, rfl⟩
    · intro hall
      obtain ⟨hrange, wire, hwire, rfl⟩ := hall
      refine ⟨_, _, readUint_run_eq_ok.2 ⟨wire, hwire, rfl⟩, ?_⟩
      have hback : (if value % 0x100 < 0x80 then value % 0x100 else value % 0x100 - 0x100) =
          value := by
        split <;> omega
      rw [hback]
      rfl

theorem string16_inverse (writeName readName : String) :
    Inverse Open (fun _ => True) (writeString16 · writeName) (readString16 readName) := by
  apply Inverse.ofWire String16Wire
  · intro value buffer buffer'
    exact writeString16_run_eq_ok
  · intro data value rest
    rw [readString16_run_eq_ok, true_and]

end Army3
