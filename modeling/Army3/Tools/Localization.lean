import Army3.Tools.ProcessMemory

/-! One entry of the client's localization table: `_array_length` and `_localization_text`. -/

namespace Army3

open Traced

/-- `_array_length(reader, array)` -/
def arrayLength (image : Image) (array : Nat) : Reading Int := do
  Traced.raiseIf (array = 0) (.message (PyStr.lit "null managed array"))
  let length ← signed image array 0x18 4
  Traced.raiseIf (length < 0)
    (.message (PyStr.lit "negative managed array length " ++ PyStr.ofInt length))
  pure length

/-- `state` after one turn of the decryption loop. -/
def nextState (state : Nat) : Nat :=
  let state := state ^^^ ((state <<< 13) &&& 0xFFFFFFFF)
  let state := state ^^^ (state >>> 17)
  let state := state ^^^ ((state <<< 5) &&& 0xFFFFFFFF)
  state &&& 0xFFFFFFFF

/-- `state` before the loop; masking a number takes it modulo 2^32, also a negative one. -/
def initialState (textId : Int) : Nat :=
  ((textId * -0x7A143589 + 0x85EBCA77) % 0x100000000).toNat ^^^ 0x046480DF

def decrypt : Nat → Bytes → Bytes
  | _, [] => []
  | state, byte :: encrypted =>
    UInt8.ofNat (byte.toNat ^^^ (nextState state &&& 0xFF)) :: decrypt (nextState state) encrypted

section

variable (image : Image) (fields : Nat) (textId : Int)

def exceeds (array : String) : RuntimeReadError :=
  .message (PyStr.lit "localization id " ++ PyStr.hex textId.toNat ++ PyStr.lit " exceeds " ++
    PyStr.lit array)

/-- `encrypted[index]` -/
def encryptedByte (packed packedOffset index : Nat) : Reading UInt8 := do
  let word ← unsigned image packed (0x20 + (packedOffset + index / 4) * 4) 4
  pure (UInt8.ofNat ((word >>> ((index &&& 3) * 8)) &&& 0xFF))

/-- The length of the packed array is read only for an offset that is not negative. -/
def spanInvalid (packed : Nat) (packedOffset requiredWords : Int) : Reading Bool :=
  if packedOffset < 0 then pure true
  else do
    let length ← arrayLength image packed
    pure (decide (length < packedOffset + requiredWords))

/-- An entry that the client has not asked for yet. -/
def packedText : Reading PyStr := do
  let packed ← pointer image fields 0
  let offsets ← pointer image fields 0x8
  let lengths ← pointer image fields 0x10
  let offsetsLength ← arrayLength image offsets
  Traced.raiseIf (offsetsLength ≤ textId) (exceeds textId "offsets")
  let lengthsLength ← arrayLength image lengths
  Traced.raiseIf (lengthsLength ≤ textId) (exceeds textId "lengths")
  let byteLength ← signed image lengths (0x20 + textId.toNat * 4) 4
  let packedOffset ← signed image offsets (0x20 + textId.toNat * 4) 4
  Traced.raiseIf (byteLength < 0 ∨ 0x10000 < byteLength)
    (.message (PyStr.lit "invalid localization byte length " ++ PyStr.ofInt byteLength ++
      PyStr.lit " for " ++ PyStr.hex textId.toNat))
  let invalid ← spanInvalid image packed packedOffset ((byteLength + 3) / 4)
  Traced.raiseIf (invalid = true)
    (.message (PyStr.lit "invalid localization span for " ++ PyStr.hex textId.toNat))
  let encrypted ← collect (encryptedByte image packed packedOffset.toNat)
    (List.range byteLength.toNat)
  Traced.raiseIf (byteLength % 2 ≠ 0)
    (.message (PyStr.lit "odd UTF-16 localization byte length " ++ PyStr.ofInt byteLength ++
      PyStr.lit " for " ++ PyStr.hex textId.toNat))
  pure (PyStr.decodeUtf16 (decrypt (initialState textId) encrypted))

/-- `_localization_text(reader, fields, text_id)` -/
def localizationText : Reading PyStr := do
  Traced.raiseIf (textId < 0)
    (.message (PyStr.lit "negative localization id " ++ PyStr.ofInt textId))
  let cache ← pointer image fields 0x18
  let cacheLength ← arrayLength image cache
  Traced.raiseIf (cacheLength ≤ textId) (exceeds textId "cache")
  let cached ← pointer image cache (0x20 + textId.toNat * 8)
  if cached ≠ 0 then managedString image cached else packedText image fields textId

end

/-! The arrays, and what may be read of them. -/

inductive LocalizationArray where
  | packed
  | offsets
  | lengths
  | cache
  deriving DecidableEq, Repr

namespace LocalizationArray

/-- Where `fields` keeps the array. -/
def field : LocalizationArray → Nat
  | packed => 0
  | offsets => 0x8
  | lengths => 0x10
  | cache => 0x18

def elementSize : LocalizationArray → Nat
  | packed => 4
  | offsets => 4
  | lengths => 4
  | cache => 8

end LocalizationArray

section

variable (image : Image) (fields : Nat) (textId : Int)

/-- The array is there, with a length. -/
structure StoredArray (array : LocalizationArray) (address : Nat) (length : Int) : Prop where
  pointerAt : image.unsigned? (fields + array.field) 8 = some address
  notNull : address ≠ 0
  lengthAt : image.signed? (address + 0x18) 4 = some length
  notNegative : 0 ≤ length

/-- The client has asked for the entry before. -/
structure CachedText (cache cached : Nat) (length : Int) : Prop where
  array : StoredArray image fields .cache cache length
  notNegative : 0 ≤ textId
  inside : textId < length
  pointerAt : image.unsigned? (cache + (0x20 + textId.toNat * 8)) 8 = some cached
  notNull : cached ≠ 0

/-- What the decoder may read: the pointers to the arrays, the length and the elements of an array
that is there, and the cached text. -/
inductive LocalizationRead : Access → Prop where
  | field (array : LocalizationArray) : LocalizationRead ⟨fields, array.field, 8⟩
  | length (array : LocalizationArray) (address : Nat)
      (pointerAt : image.unsigned? (fields + array.field) 8 = some address)
      (notNull : address ≠ 0) :
      LocalizationRead ⟨address, 0x18, 4⟩
  | element (array : LocalizationArray) (address offset : Nat) (length : Int)
      (stored : StoredArray image fields array address length) (after : 0x20 ≤ offset)
      (before : (offset + array.elementSize : Int) ≤ 0x20 + length * array.elementSize) :
      LocalizationRead ⟨address, offset, array.elementSize⟩
  | cachedLength (cache cached : Nat) (length : Int)
      (stored : CachedText image fields textId cache cached length) :
      LocalizationRead ⟨cached, 0x10, 4⟩
  | cachedText (cache cached size : Nat) (length : Int)
      (stored : CachedText image fields textId cache cached length) :
      LocalizationRead ⟨cached, 0x14, size⟩

/-- An entry that passes every check but the last one, and where it lies. -/
structure PackedEntry (packed offsets lengths : Nat)
    (packedLength offsetsLength lengthsLength byteLength packedOffset : Int) : Prop where
  packedAt : StoredArray image fields .packed packed packedLength
  offsetsAt : StoredArray image fields .offsets offsets offsetsLength
  lengthsAt : StoredArray image fields .lengths lengths lengthsLength
  inOffsets : textId < offsetsLength
  inLengths : textId < lengthsLength
  byteLengthAt : image.signed? (lengths + (0x20 + textId.toNat * 4)) 4 = some byteLength
  packedOffsetAt : image.signed? (offsets + (0x20 + textId.toNat * 4)) 4 = some packedOffset
  byteLengthBounds : 0 ≤ byteLength ∧ byteLength ≤ 0x10000
  offsetNotNegative : 0 ≤ packedOffset
  span : packedOffset + (byteLength + 3) / 4 ≤ packedLength

/-- What makes an entry that is not cached invalid. -/
inductive InvalidEntry : Prop where
  | negativeId (h : textId < 0)
  | largeId (array : LocalizationArray) (address : Nat) (length : Int) (indexed : array ≠ .packed)
      (stored : StoredArray image fields array address length) (h : length ≤ textId)
  | byteLength (lengths : Nat) (length byteLength : Int)
      (stored : StoredArray image fields .lengths lengths length)
      (valueAt : image.signed? (lengths + (0x20 + textId.toNat * 4)) 4 = some byteLength)
      (h : byteLength < 0 ∨ 0x10000 < byteLength ∨ byteLength % 2 ≠ 0)
  | negativeOffset (offsets : Nat) (length packedOffset : Int)
      (stored : StoredArray image fields .offsets offsets length)
      (valueAt : image.signed? (offsets + (0x20 + textId.toNat * 4)) 4 = some packedOffset)
      (h : packedOffset < 0)
  | longSpan (packed offsets lengths : Nat)
      (packedLength offsetsLength lengthsLength byteLength packedOffset : Int)
      (storedPacked : StoredArray image fields .packed packed packedLength)
      (storedOffsets : StoredArray image fields .offsets offsets offsetsLength)
      (storedLengths : StoredArray image fields .lengths lengths lengthsLength)
      (byteLengthAt : image.signed? (lengths + (0x20 + textId.toNat * 4)) 4 = some byteLength)
      (packedOffsetAt : image.signed? (offsets + (0x20 + textId.toNat * 4)) 4 = some packedOffset)
      (h : packedLength < packedOffset + (byteLength + 3) / 4)

end

section

variable {image : Image} {fields : Nat} {textId : Int} {P : Access → Prop}

theorem result_arrayLength_eq_ok {array : Nat} {length : Int} :
    (arrayLength image array).result = .ok length ↔
      array ≠ 0 ∧ image.signed? (array + 0x18) 4 = some length ∧ 0 ≤ length := by
  simp only [arrayLength, result_bind_eq_ok, result_raiseIf_eq_ok, result_signed_eq_ok,
    result_pure_eq_ok]
  constructor
  · intro hrun
    obtain ⟨_, hnull, stored, hstored, _, hnegative, rfl⟩ := hrun
    exact ⟨hnull, hstored, Int.not_lt.mp hnegative⟩
  · intro hstored
    exact ⟨(), hstored.1, length, hstored.2.1, (), Int.not_lt.mpr hstored.2.2, rfl⟩

/-- The length of an array is read only if there is an array. -/
theorem every_arrayLength {array : Nat} (h : array ≠ 0 → P ⟨array, 0x18, 4⟩) :
    Every P (arrayLength image array) := by
  unfold arrayLength
  refine every_bind.mpr ⟨every_raiseIf, fun _ hguard => ?_⟩
  have hnull : array ≠ 0 := result_raiseIf_eq_ok.mp hguard
  refine every_bind.mpr ⟨every_signed.mpr (h hnull), fun length _ => ?_⟩
  exact every_bind.mpr ⟨every_raiseIf, fun _ _ => every_pure⟩

/-- A pointer and a length that the decoder has read. -/
theorem storedArray_of_result (array : LocalizationArray) {address : Nat} {length : Int}
    (hpointer : (pointer image fields array.field).result = .ok address)
    (hlength : (arrayLength image address).result = .ok length) :
    StoredArray image fields array address length := by
  obtain ⟨hnull, hstored, hnegative⟩ := result_arrayLength_eq_ok.mp hlength
  exact ⟨result_pointer_eq_ok.mp hpointer, hnull, hstored, hnegative⟩

theorem StoredArray.unique {array : LocalizationArray} {address address' : Nat}
    {length length' : Int} (h : StoredArray image fields array address length)
    (h' : StoredArray image fields array address' length') :
    address = address' ∧ length = length' := by
  have haddress : address = address' := Option.some.inj (h.pointerAt.symm.trans h'.pointerAt)
  subst haddress
  exact ⟨rfl, Option.some.inj (h.lengthAt.symm.trans h'.lengthAt)⟩

/-- Reading an array's pointer and then its length stays within the bounds. -/
theorem every_arrayLength_stored (array : LocalizationArray) {address : Nat}
    (hpointer : (pointer image fields array.field).result = .ok address) :
    Every (LocalizationRead image fields textId) (arrayLength image address) :=
  every_arrayLength fun hnull => .length array address (result_pointer_eq_ok.mp hpointer) hnull

/-- So does reading the element of a valid id. -/
theorem LocalizationRead.at_id {array : LocalizationArray} {address : Nat} {length : Int}
    (hstored : StoredArray image fields array address length) (hnegative : ¬ textId < 0)
    (hinside : ¬ length ≤ textId) :
    LocalizationRead image fields textId
      ⟨address, 0x20 + textId.toNat * array.elementSize, array.elementSize⟩ := by
  refine .element array address _ length hstored (Nat.le_add_right _ _) ?_
  have hid : ((textId.toNat : Nat) : Int) = textId := Int.toNat_of_nonneg (Int.not_lt.mp hnegative)
  have hnext : (textId + 1) * (array.elementSize : Int) ≤ length * array.elementSize :=
    Int.mul_le_mul_of_nonneg_right (by omega) (Int.natCast_nonneg _)
  rw [Int.add_mul, Int.one_mul] at hnext
  push_cast
  rw [hid, Int.add_assoc]
  exact Int.add_le_add_left hnext 0x20

/-- Word `index / 4` of a valid span is an element of the packed array. -/
theorem LocalizationRead.word {packed index : Nat} {length packedOffset byteLength : Int}
    (hstored : StoredArray image fields .packed packed length) (hnegative : ¬ packedOffset < 0)
    (hspan : ¬ length < packedOffset + (byteLength + 3) / 4) (hindex : index < byteLength.toNat) :
    LocalizationRead image fields textId
      ⟨packed, 0x20 + (packedOffset.toNat + index / 4) * 4, 4⟩ := by
  refine .element .packed packed _ length hstored (Nat.le_add_right _ _) ?_
  simp only [LocalizationArray.elementSize]
  omega

theorem result_spanInvalid_eq_ok {packed : Nat} {packedOffset requiredWords : Int} :
    (spanInvalid image packed packedOffset requiredWords).result = .ok false ↔
      ¬ packedOffset < 0 ∧ ∃ length, (arrayLength image packed).result = .ok length ∧
        ¬ length < packedOffset + requiredWords := by
  unfold spanInvalid
  by_cases h : packedOffset < 0
  · rw [if_pos h, result_pure_eq_ok]
    constructor
    · intro hfalse
      cases hfalse
    · intro hvalid
      exact absurd h hvalid.1
  · rw [if_neg h]
    simp only [result_bind_eq_ok, result_pure_eq_ok, decide_eq_false_iff_not]
    exact (and_iff_right h).symm

theorem every_spanInvalid {packed : Nat} {packedOffset requiredWords : Int}
    (h : Every P (arrayLength image packed)) :
    Every P (spanInvalid image packed packedOffset requiredWords) :=
  every_ite (fun _ => every_pure) fun _ => every_map.mpr h

theorem every_packedText (hnegative : ¬ textId < 0) :
    Every (LocalizationRead image fields textId) (packedText image fields textId) := by
  have hfield (array : LocalizationArray) :
      Every (LocalizationRead image fields textId) (pointer image fields array.field) :=
    every_pointer.mpr (.field array)
  unfold packedText
  refine every_bind.mpr ⟨hfield .packed, fun packed hpacked => ?_⟩
  refine every_bind.mpr ⟨hfield .offsets, fun offsets hoffsets => ?_⟩
  refine every_bind.mpr ⟨hfield .lengths, fun lengths hlengths => ?_⟩
  -- each array's length is read before its element
  have hreadOffsets : Every (LocalizationRead image fields textId) (arrayLength image offsets) :=
    every_arrayLength_stored .offsets hoffsets
  refine every_bind.mpr ⟨hreadOffsets, fun offsetsLength hoffsetsLength => ?_⟩
  refine every_bind.mpr ⟨every_raiseIf, fun _ hinOffsets => ?_⟩
  have hreadLengths : Every (LocalizationRead image fields textId) (arrayLength image lengths) :=
    every_arrayLength_stored .lengths hlengths
  refine every_bind.mpr ⟨hreadLengths, fun lengthsLength hlengthsLength => ?_⟩
  refine every_bind.mpr ⟨every_raiseIf, fun _ hinLengths => ?_⟩
  have hstoredOffsets := storedArray_of_result .offsets hoffsets hoffsetsLength
  have hstoredLengths := storedArray_of_result .lengths hlengths hlengthsLength
  have hlengthRead := LocalizationRead.at_id hstoredLengths hnegative
    (result_raiseIf_eq_ok.mp hinLengths)
  have hoffsetRead := LocalizationRead.at_id hstoredOffsets hnegative
    (result_raiseIf_eq_ok.mp hinOffsets)
  refine every_bind.mpr ⟨every_signed.mpr hlengthRead, fun byteLength _ => ?_⟩
  refine every_bind.mpr ⟨every_signed.mpr hoffsetRead, fun packedOffset _ => ?_⟩
  refine every_bind.mpr ⟨every_raiseIf, fun _ _ => ?_⟩
  have hreadPacked : Every (LocalizationRead image fields textId) (arrayLength image packed) :=
    every_arrayLength_stored .packed hpacked
  refine every_bind.mpr ⟨every_spanInvalid hreadPacked, fun invalid hspan => ?_⟩
  refine every_bind.mpr ⟨every_raiseIf, fun _ hvalid => ?_⟩
  have hfalse : invalid = false := Bool.eq_false_iff.mpr (result_raiseIf_eq_ok.mp hvalid)
  subst hfalse
  obtain ⟨hoffset, packedLength, hpackedLength, hinPacked⟩ := result_spanInvalid_eq_ok.mp hspan
  have hstoredPacked := storedArray_of_result .packed hpacked hpackedLength
  have hwords : Every (LocalizationRead image fields textId)
      (collect (encryptedByte image packed packedOffset.toNat) (List.range byteLength.toNat)) := by
    refine every_collect fun index hindex => ?_
    refine every_map.mpr (every_unsigned.mpr ?_)
    exact .word hstoredPacked hoffset hinPacked (List.mem_range.mp hindex)
  refine every_bind.mpr ⟨hwords, fun encrypted _ => ?_⟩
  exact every_bind.mpr ⟨every_raiseIf, fun _ _ => every_pure⟩

theorem every_localizationText :
    Every (LocalizationRead image fields textId) (localizationText image fields textId) := by
  unfold localizationText
  refine every_bind.mpr ⟨every_raiseIf, fun _ hid => ?_⟩
  have hnegative : ¬ textId < 0 := result_raiseIf_eq_ok.mp hid
  refine every_bind.mpr ⟨every_pointer.mpr (.field .cache), fun cache hcache => ?_⟩
  refine every_bind.mpr ⟨every_arrayLength_stored .cache hcache, fun length hlength => ?_⟩
  refine every_bind.mpr ⟨every_raiseIf, fun _ hin => ?_⟩
  have hinside : ¬ length ≤ textId := result_raiseIf_eq_ok.mp hin
  have hstored := storedArray_of_result .cache hcache hlength
  have hcacheRead := LocalizationRead.at_id hstored hnegative hinside
  refine every_bind.mpr ⟨every_pointer.mpr hcacheRead, fun cached hcached => ?_⟩
  refine every_ite (fun hnull => ?_) fun _ => every_packedText hnegative
  have htext : CachedText image fields textId cache cached length :=
    ⟨hstored, by omega, by omega, result_pointer_eq_ok.mp hcached, hnull⟩
  exact every_managedString (fun _ => .cachedLength cache cached length htext)
    (fun size _ => .cachedText cache cached size length htext)

theorem result_packedText_eq_ok {text : PyStr} :
    (packedText image fields textId).result = .ok text ↔
      ∃ packed offsets lengths packedLength offsetsLength lengthsLength byteLength packedOffset,
        PackedEntry image fields textId packed offsets lengths packedLength offsetsLength
          lengthsLength byteLength packedOffset ∧ byteLength % 2 = 0 ∧
        ∃ encrypted,
          (collect (encryptedByte image packed packedOffset.toNat)
            (List.range byteLength.toNat)).result = .ok encrypted ∧
          PyStr.decodeUtf16 (decrypt (initialState textId) encrypted) = text := by
  simp only [packedText, result_bind_eq_ok, result_raiseIf_eq_ok, result_pointer_eq_ok,
    result_signed_eq_ok, result_pure_eq_ok, result_arrayLength_eq_ok]
  constructor
  · intro hrun
    obtain ⟨packed, hpacked, offsets, hoffsets, lengths, hlengths, offsetsLength, hoffsetsLength, _,
      hinOffsets, lengthsLength, hlengthsLength, _, hinLengths, byteLength, hbyteLength,
      packedOffset, hpackedOffset, _, hbounds, invalid, hspan, _, hvalid, encrypted, hencrypted, _,
      hodd, htext⟩ := hrun
    have hfalse : invalid = false := Bool.eq_false_iff.mpr hvalid
    subst hfalse
    obtain ⟨hoffset, packedLength, hpackedLength, hin⟩ := result_spanInvalid_eq_ok.mp hspan
    obtain ⟨hpackedNull, hpackedAt, hpackedNegative⟩ := result_arrayLength_eq_ok.mp hpackedLength
    have hentry : PackedEntry image fields textId packed offsets lengths packedLength offsetsLength
        lengthsLength byteLength packedOffset := by
      constructor
      · exact ⟨hpacked, hpackedNull, hpackedAt, hpackedNegative⟩
      · exact ⟨hoffsets, hoffsetsLength.1, hoffsetsLength.2.1, hoffsetsLength.2.2⟩
      · exact ⟨hlengths, hlengthsLength.1, hlengthsLength.2.1, hlengthsLength.2.2⟩
      all_goals first | assumption | omega
    exact ⟨packed, offsets, lengths, packedLength, offsetsLength, lengthsLength, byteLength,
      packedOffset, hentry, by omega, encrypted, hencrypted, htext⟩
  · intro hentry
    obtain ⟨packed, offsets, lengths, packedLength, offsetsLength, lengthsLength, byteLength,
      packedOffset, hentry, heven, encrypted, hencrypted, htext⟩ := hentry
    obtain ⟨hpacked, hoffsets, hlengths, hinOffsets, hinLengths, hbyteLength, hpackedOffset,
      hbounds, hoffset, hspan⟩ := hentry
    have hvalid :
        (spanInvalid image packed packedOffset ((byteLength + 3) / 4)).result = .ok false :=
      result_spanInvalid_eq_ok.mpr ⟨by omega, packedLength,
        result_arrayLength_eq_ok.mpr ⟨hpacked.notNull, hpacked.lengthAt, hpacked.notNegative⟩,
        by omega⟩
    exact ⟨packed, hpacked.pointerAt, offsets, hoffsets.pointerAt, lengths, hlengths.pointerAt,
      offsetsLength, ⟨hoffsets.notNull, hoffsets.lengthAt, hoffsets.notNegative⟩, (), by omega,
      lengthsLength, ⟨hlengths.notNull, hlengths.lengthAt, hlengths.notNegative⟩, (), by omega,
      byteLength, hbyteLength, packedOffset, hpackedOffset, (), by omega, false, hvalid, (),
      Bool.false_ne_true, encrypted, hencrypted, (), by omega, htext⟩

/-- A returned string is the cached one or comes from a valid entry. -/
theorem result_localizationText_eq_ok {text : PyStr} :
    (localizationText image fields textId).result = .ok text ↔
      ∃ cache length cached, StoredArray image fields .cache cache length ∧ 0 ≤ textId ∧
        textId < length ∧
        image.unsigned? (cache + (0x20 + textId.toNat * 8)) 8 = some cached ∧
        (if cached ≠ 0 then managedString image cached
          else packedText image fields textId).result = .ok text := by
  simp only [localizationText, result_bind_eq_ok, result_raiseIf_eq_ok, result_pointer_eq_ok,
    result_arrayLength_eq_ok]
  constructor
  · intro hrun
    obtain ⟨_, hid, cache, hcache, length, hlength, _, hin, cached, hcached, htext⟩ := hrun
    exact ⟨cache, length, cached, ⟨hcache, hlength.1, hlength.2.1, hlength.2.2⟩, by omega, by omega,
      hcached, htext⟩
  · intro hstored
    obtain ⟨cache, length, cached, hstored, hid, hin, hcached, htext⟩ := hstored
    exact ⟨(), by omega, cache, hstored.pointerAt, length,
      ⟨hstored.notNull, hstored.lengthAt, hstored.notNegative⟩, (), by omega, cached, hcached,
      htext⟩

/-- An invalid entry is no packed entry of even length. -/
theorem InvalidEntry.not_packedEntry (h : InvalidEntry image fields textId) (hid : 0 ≤ textId)
    {cache : Nat} {cacheLength : Int}
    (hcache : StoredArray image fields .cache cache cacheLength) (hin : textId < cacheLength)
    {packed offsets lengths : Nat}
    {packedLength offsetsLength lengthsLength byteLength packedOffset : Int}
    (hentry : PackedEntry image fields textId packed offsets lengths packedLength offsetsLength
      lengthsLength byteLength packedOffset) : byteLength % 2 ≠ 0 := by
  have hbounds := hentry.byteLengthBounds
  cases h with
  | negativeId h => omega
  | largeId array address length indexed stored h =>
    cases array with
    | packed => exact absurd rfl indexed
    | offsets =>
      have hlength := (stored.unique hentry.offsetsAt).2
      have hless := hentry.inOffsets
      omega
    | lengths =>
      have hlength := (stored.unique hentry.lengthsAt).2
      have hless := hentry.inLengths
      omega
    | cache =>
      have hlength := (stored.unique hcache).2
      omega
  | byteLength address length value stored valueAt h =>
    have haddress := (stored.unique hentry.lengthsAt).1
    subst haddress
    have hvalue : value = byteLength := Option.some.inj (valueAt.symm.trans hentry.byteLengthAt)
    omega
  | negativeOffset address length value stored valueAt h =>
    have haddress := (stored.unique hentry.offsetsAt).1
    subst haddress
    have hvalue : value = packedOffset := Option.some.inj (valueAt.symm.trans hentry.packedOffsetAt)
    have hnegative := hentry.offsetNotNegative
    omega
  | longSpan address address' address'' length length' length'' value value' storedPacked
      storedOffsets storedLengths byteLengthAt packedOffsetAt h =>
    have hlength := (storedPacked.unique hentry.packedAt).2
    have hoffsets := (storedOffsets.unique hentry.offsetsAt).1
    have hlengths := (storedLengths.unique hentry.lengthsAt).1
    subst hoffsets hlengths
    have hvalue : value = byteLength :=
      Option.some.inj (byteLengthAt.symm.trans hentry.byteLengthAt)
    have hvalue' : value' = packedOffset :=
      Option.some.inj (packedOffsetAt.symm.trans hentry.packedOffsetAt)
    have hspan := hentry.span
    omega

/-- The decoder reads within the client's arrays only, and refuses every invalid entry. -/
theorem localizationText_stays_inside (image : Image) (fields : Nat) (textId : Int) :
    Every (LocalizationRead image fields textId) (localizationText image fields textId) ∧
      ((∀ cache cached length, ¬ CachedText image fields textId cache cached length) →
        InvalidEntry image fields textId →
        ∃ e, (localizationText image fields textId).result = .error e) := by
  refine ⟨every_localizationText, fun hnone hinvalid => ?_⟩
  cases hresult : (localizationText image fields textId).result with
  | error e => exact ⟨e, rfl⟩
  | ok text =>
    obtain ⟨cache, length, cached, hcache, hid, hin, hcached, htext⟩ :=
      result_localizationText_eq_ok.mp hresult
    by_cases hnull : cached ≠ 0
    · exact absurd ⟨hcache, hid, hin, hcached, hnull⟩ (hnone cache cached length)
    · rw [if_neg hnull] at htext
      obtain ⟨_, _, _, _, _, _, _, _, hentry, heven, -⟩ := result_packedText_eq_ok.mp htext
      exact absurd heven (hinvalid.not_packedEntry hid hcache hin hentry)

end

end Army3
