import Army3.Framework.Xorshift
import Army3.Tools.Localization
import Mathlib.Logic.Function.Iterate

/-! What the localization decoder returns: the text that the client has masked and packed. -/

namespace Army3

open LittleEndian

/-- The word before the first byte of an entry. -/
def seed (id : Nat) : UInt32 := (UInt32.ofNat id * -0x7A143589 + 0x85EBCA77) ^^^ 0x046480DF

/-- An entry that the client has not asked for, as it lies in its memory: the masked bytes of the
text in whole words, of which the last may hold other bytes at its end. -/
structure MaskedEntry (image : Image) (fields id : Nat) (raw : Bytes) where
  cache : Nat
  packed : Nat
  offsets : Nat
  lengths : Nat
  cacheLength : Int
  packedLength : Int
  offsetsLength : Int
  lengthsLength : Int
  packedOffset : Nat
  words : List UInt32
  cacheAt : StoredArray image fields .cache cache cacheLength
  packedAt : StoredArray image fields .packed packed packedLength
  offsetsAt : StoredArray image fields .offsets offsets offsetsLength
  lengthsAt : StoredArray image fields .lengths lengths lengthsLength
  inCache : id < cacheLength
  inOffsets : id < offsetsLength
  inLengths : id < lengthsLength
  notCached : image.unsigned? (cache + (0x20 + id * 8)) 8 = some 0
  byteLengthAt : image.signed? (lengths + (0x20 + id * 4)) 4 = some (raw.length : Int)
  packedOffsetAt : image.signed? (offsets + (0x20 + id * 4)) 4 = some (packedOffset : Int)
  wordCount : words.length = (raw.length + 3) / 4
  span : packedOffset + words.length ≤ packedLength
  wordsAt : ∀ (j : Nat) (h : j < words.length),
    image.unsigned? (packed + (0x20 + (packedOffset + j) * 4)) 4 = some words[j].toNat
  masked : Xorshift.mask (seed id) raw <+: words.flatMap wordBytes

theorem and_word (n : Nat) : n &&& 0xFFFFFFFF = n % 2 ^ 32 := Nat.and_two_pow_sub_one_eq_mod n 32

/-- The masks that the code applies are enough: its number is the word. -/
theorem nextState_toNat (state : UInt32) : nextState state.toNat = (Xorshift.step state).toNat := by
  have hword : (Xorshift.step state).toNat % 2 ^ 32 = (Xorshift.step state).toNat :=
    Nat.mod_eq_of_lt (Xorshift.step state).toNat_lt
  have hcut : nextState state.toNat = (Xorshift.step state).toNat % 2 ^ 32 := by
    simp only [nextState, Xorshift.step, and_word, UInt32.toNat_xor, UInt32.toNat_shiftLeft,
      UInt32.toNat_shiftRight, UInt32.reduceToNat, Nat.reduceMod]
  rw [hcut, hword]

theorem iterate_nextState (state : UInt32) (k : Nat) :
    nextState^[k] state.toNat = (Xorshift.step^[k] state).toNat := by
  induction k with
  | zero => rfl
  | succ k ih =>
    rw [Function.iterate_succ_apply', Function.iterate_succ_apply', ih, nextState_toNat]

theorem initialState_eq (id : Nat) : initialState id = (seed id).toNat := by
  have hlinear : (((id : Int) * -0x7A143589 + 0x85EBCA77) % 0x100000000).toNat =
      (UInt32.ofNat id * -0x7A143589 + 0x85EBCA77).toNat := by
    have hneg : (-0x7A143589 : UInt32).toNat = 0x85EBCA77 := rfl
    -- the negative multiplier is a positive one, up to multiples of 2^32
    have hwrap : (id : Int) * -0x7A143589 + 0x85EBCA77 =
        ((id * 0x85EBCA77 + 0x85EBCA77 : Nat) : Int) + -(id : Int) * 0x100000000 := by omega
    have hcast : (0x100000000 : Int) = ((2 ^ 32 : Nat) : Int) := rfl
    rw [hwrap, Int.add_mul_emod_self_right, hcast, ← Int.natCast_emod, Int.toNat_natCast]
    simp only [UInt32.toNat_add, UInt32.toNat_mul, UInt32.toNat_ofNat', hneg, UInt32.reduceToNat,
      Nat.mod_mul_mod, Nat.mod_add_mod]
  simp only [initialState, seed, hlinear, UInt32.toNat_xor, UInt32.reduceToNat]

theorem decrypt_eq_mask (state : UInt32) (encrypted : Bytes) :
    decrypt state.toNat encrypted = Xorshift.mask state encrypted := by
  induction encrypted generalizing state with
  | nil => rfl
  | cons byte encrypted ih =>
    have hbyte : UInt8.ofNat (byte.toNat ^^^ ((Xorshift.step state).toNat &&& 0xFF)) =
        byte ^^^ (Xorshift.step state).toUInt8 := by
      apply UInt8.toNat_inj.mp
      have hmask : (Xorshift.step state).toNat &&& 0xFF = (Xorshift.step state).toUInt8.toNat := by
        rw [UInt32.toNat_toUInt8]
        exact Nat.and_two_pow_sub_one_eq_mod _ 8
      rw [hmask, ← UInt8.toNat_xor, UInt8.ofNat_toNat]
    rw [decrypt, Xorshift.mask, nextState_toNat, hbyte, ih]

section

variable {image : Image} {fields id : Nat} {raw : Bytes}

/-- A byte is picked out of its word. -/
theorem result_encryptedByte {packed packedOffset : Nat} {words : List UInt32} {index : Nat}
    (hat : ∀ (j : Nat) (h : j < words.length),
      image.unsigned? (packed + (0x20 + (packedOffset + j) * 4)) 4 = some words[j].toNat)
    (hin : index < (words.flatMap wordBytes).length) (hword : index / 4 < words.length) :
    (encryptedByte image packed packedOffset index).result =
      .ok (words.flatMap wordBytes)[index] := by
  have hlength : index % 4 < (wordBytes words[index / 4]).length := Nat.mod_lt index (by decide)
  have hbyte := getElem_flatMap_wordBytes words hin hword hlength
  have hpick := byte_ofBytes (wordBytes words[index / 4]) hlength
  have hand : index &&& 3 = index % 4 := Nat.and_two_pow_sub_one_eq_mod index 2
  rw [ofBytes_wordBytes] at hpick
  unfold encryptedByte
  refine Traced.result_bind_eq_ok.mpr
    ⟨words[index / 4].toNat, result_unsigned_eq_ok.mpr (hat _ hword), ?_⟩
  rw [Traced.result_pure_eq_ok, hand, hpick, UInt8.ofNat_toNat, hbyte]

theorem MaskedEntry.collect_encryptedByte (entry : MaskedEntry image fields id raw) :
    (Traced.collect (encryptedByte image entry.packed entry.packedOffset)
      (List.range raw.length)).result = .ok (Xorshift.mask (seed id) raw) := by
  have hcount := entry.wordCount
  have hprefix := entry.masked
  rw [Traced.result_collect_eq_ok, List.forall₂_iff_get]
  refine ⟨by rw [List.length_range, Xorshift.length_mask], fun index hrange hmask => ?_⟩
  have hindex : index < raw.length := by simpa using hrange
  have hin : index < (entry.words.flatMap wordBytes).length :=
    Nat.lt_of_lt_of_le hmask hprefix.length_le
  have hbyte := result_encryptedByte entry.wordsAt hin (by omega)
  simp only [List.get_eq_getElem, List.getElem_range]
  rw [hbyte, hprefix.getElem hmask]

theorem MaskedEntry.packedEntry (entry : MaskedEntry image fields id raw)
    (hfit : raw.length ≤ 0x10000) :
    PackedEntry image fields id entry.packed entry.offsets entry.lengths entry.packedLength
      entry.offsetsLength entry.lengthsLength raw.length entry.packedOffset := by
  have hcount := entry.wordCount
  have hspan := entry.span
  constructor
  · exact entry.packedAt
  · exact entry.offsetsAt
  · exact entry.lengthsAt
  · exact entry.inOffsets
  · exact entry.inLengths
  · exact entry.byteLengthAt
  · exact entry.packedOffsetAt
  all_goals omega

/-- The decoder undoes the masking, and its state is the word after every step. -/
theorem localizationText_unmasks {text : PyStr} (entry : MaskedEntry image fields id raw)
    (hraw : PyStr.encodeUtf16 text = .ok raw) (hfit : raw.length ≤ 0x10000) :
    (localizationText image fields id).result = .ok text ∧
      ∀ k, nextState^[k] (initialState id) = (Xorshift.step^[k] (seed id)).toNat := by
  have heven := PyStr.length_even_of_encodeUtf16 hraw
  have hdecrypt : decrypt (initialState id) (Xorshift.mask (seed id) raw) = raw := by
    rw [initialState_eq, decrypt_eq_mask, Xorshift.mask_mask]
  constructor
  · refine result_localizationText_eq_ok.mpr ⟨entry.cache, entry.cacheLength, 0, entry.cacheAt,
      Int.natCast_nonneg id, entry.inCache, entry.notCached, ?_⟩
    rw [if_neg (not_not_intro rfl)]
    refine result_packedText_eq_ok.mpr ⟨_, _, _, _, _, _, _, _, entry.packedEntry hfit, by omega,
      Xorshift.mask (seed id) raw, entry.collect_encryptedByte, ?_⟩
    rw [hdecrypt]
    exact PyStr.decodeUtf16_of_encodeUtf16 hraw
  · intro k
    rw [initialState_eq]
    exact iterate_nextState (seed id) k

end

/-- Three entries of which the last is masked, from the second packed word on. -/
def maskedImage : Image := .ofBlocks
  [(0x1000, [0, 0x20, 0, 0, 0, 0, 0, 0, 0, 0x30, 0, 0, 0, 0, 0, 0,
      0, 0x40, 0, 0, 0, 0, 0, 0, 0, 0x50, 0, 0, 0, 0, 0, 0]),
    (0x2018, [3, 0, 0, 0]),
    (0x2024, [0x9D, 0xFD, 0x09, 0xC8, 0x4C, 0xE0, 0xEF, 0xBE]),
    (0x3018, [3, 0, 0, 0]),
    (0x3028, [1, 0, 0, 0]),
    (0x4018, [3, 0, 0, 0]),
    (0x4028, [6, 0, 0, 0]),
    (0x5018, [3, 0, 0, 0]),
    (0x5030, [0, 0, 0, 0, 0, 0, 0, 0])]

def maskedEntry : MaskedEntry maskedImage 0x1000 2 [0x4F, 0, 0x4B, 0, 0x21, 0] where
  cache := 0x5000
  packed := 0x2000
  offsets := 0x3000
  lengths := 0x4000
  cacheLength := 3
  packedLength := 3
  offsetsLength := 3
  lengthsLength := 3
  packedOffset := 1
  words := [0xC809FD9D, 0xBEEFE04C]
  cacheAt := ⟨rfl, Nat.succ_ne_zero _, rfl, Int.natCast_nonneg 3⟩
  packedAt := ⟨rfl, Nat.succ_ne_zero _, rfl, Int.natCast_nonneg 3⟩
  offsetsAt := ⟨rfl, Nat.succ_ne_zero _, rfl, Int.natCast_nonneg 3⟩
  lengthsAt := ⟨rfl, Nat.succ_ne_zero _, rfl, Int.natCast_nonneg 3⟩
  inCache := by decide
  inOffsets := by decide
  inLengths := by decide
  notCached := rfl
  byteLengthAt := rfl
  packedOffsetAt := rfl
  wordCount := rfl
  span := by decide
  wordsAt := by
    intro j h
    match j, h with
    | 0, _ => rfl
    | 1, _ => rfl
  masked := by decide

theorem localizationText_unmasks_sample :
    (localizationText maskedImage 0x1000 (2 : Nat)).result = .ok (PyStr.lit "OK!") ∧
      ∀ k, nextState^[k] (initialState (2 : Nat)) = (Xorshift.step^[k] (seed 2)).toNat :=
  localizationText_unmasks maskedEntry rfl (by decide)

end Army3
