import Army3.Framework.RunningFold
import Army3.Protocol.Encoders
import Army3.Protocol.MessageCodecs

/-! Both ends of a connection derive the same key from the handshake response. -/

namespace Army3
open Codec

namespace ByteTransform

/-- The key loop is a running exclusive or. -/
theorem prefixXor_eq_absorb (source : Bytes) :
    prefixXor source = RunningFold.absorb (· ^^^ ·) source :=
  RunningFold.loop_eq_absorb 0 source

/-- `key[i] = seed[0] ^ … ^ seed[i]`. -/
theorem getElem?_prefixXor {seed : Bytes} {i : Nat} (h : i < seed.length) :
    (prefixXor seed)[i]? = some ((seed.take (i + 1)).foldl (· ^^^ ·) 0) := by
  cases seed with
  | nil => simp at h
  | cons first rest =>
    have hindex : i ≤ rest.length := by simpa [Nat.lt_succ_iff] using h
    have hcomm : (fun last entry : UInt8 => entry ^^^ last) = (· ^^^ ·) := by
      funext last entry
      exact UInt8.xor_comm entry last
    rw [prefixXor_eq_absorb, RunningFold.getElem?_absorb first rest hindex, hcomm,
      List.take_succ_cons, List.foldl_cons, UInt8.zero_xor]

/-- Every key of a length comes from exactly one seed of that length. -/
theorem prefixXor_bijOn (n : Nat) :
    Set.BijOn prefixXor {seed | seed.length = n} {key | key.length = n} := by
  have hcancel : ∀ entry last : UInt8, entry ^^^ last ^^^ last = entry := by
    intro entry last
    rw [UInt8.xor_assoc, UInt8.xor_self, UInt8.xor_zero]
  have hbij := RunningFold.bijOn_absorb hcancel hcancel n
  exact hbij.congr fun seed _ => (prefixXor_eq_absorb seed).symm

theorem create_eq_ok {key : Bytes} {shift : Int} {transform : ByteTransform} :
    create key shift = .ok transform ↔
      transform.key = key ∧ (transform.shift.toNat : Int) = shift := by
  unfold create
  constructor
  · intro h
    split at h
    · cases h
    · split at h
      · cases h
      · split at h
        · cases h
        · rename_i hrange
          obtain rfl := Except.ok.inj h
          have hback : (UInt8.ofNat shift.toNat).toNat = shift.toNat :=
            UInt8.toNat_ofNat_of_lt' (by simp only [UInt8.size]; omega)
          exact ⟨rfl, by rw [hback]; omega⟩
  · intro hall
    obtain ⟨rfl, rfl⟩ := hall
    have hpos := transform.key_pos
    have hle := transform.key_le
    have hlt := transform.shift.toNat_lt
    rw [dif_neg (by omega), dif_neg (by omega), if_neg (by omega)]
    simp

theorem fromSeed_eq_ok {seed : Bytes} {shift : Int} {transform : ByteTransform} :
    fromSeed seed shift = .ok transform ↔
      transform.key = prefixXor seed ∧ (transform.shift.toNat : Int) = shift := by
  unfold fromSeed
  by_cases hempty : seed = []
  · simp only [raiseIf, if_pos hempty]
    constructor
    · intro h
      cases h
    · intro hall
      have hpos := transform.key_pos
      rw [hall.1, hempty] at hpos
      simp at hpos
  · simp only [raiseIf, if_neg hempty]
    exact create_eq_ok

/-- The seeds and shifts of which `from_seed` makes a transform. -/
theorem fromSeed_isOk_iff {seed : Bytes} {shift : Int} :
    (∃ transform, fromSeed seed shift = .ok transform) ↔
      (1 ≤ seed.length ∧ seed.length ≤ 0x7F) ∧ 0 ≤ shift ∧ shift ≤ 0xFF := by
  constructor
  · intro hall
    obtain ⟨transform, h⟩ := hall
    obtain ⟨hkey, rfl⟩ := fromSeed_eq_ok.mp h
    have hlength : transform.key.length = seed.length := by rw [hkey, prefixXor_length]
    have hpos := transform.key_pos
    have hle := transform.key_le
    have hlt := transform.shift.toNat_lt
    omega
  · intro hall
    obtain ⟨⟨hpos, hle⟩, hnonneg, hshift⟩ := hall
    have hback : ((UInt8.ofNat shift.toNat).toNat : Int) = shift := by
      rw [UInt8.toNat_ofNat_of_lt' (by simp only [UInt8.size]; omega)]
      omega
    have hok := fromSeed_ok seed (UInt8.ofNat shift.toNat) hpos hle
    rw [hback] at hok
    exact ⟨_, hok⟩

end ByteTransform

/-- The writer of the handshake checks the same ranges, and its text. -/
theorem HandshakeResponse.encodePayload_isOk_iff {m : HandshakeResponse} :
    (∃ p, m.encodePayload = .ok p) ↔
      ((1 ≤ m.seed.length ∧ m.seed.length ≤ 0x7F) ∧ 0 ≤ m.shift ∧ m.shift ≤ 0xFF) ∧
        ∃ raw, m.text.encodeUtf8 = .ok raw ∧ raw.length ≤ 0xFFFF := by
  have hencode : m.encodePayload = written ((Message.handshakeResponse m).fields.forM Field.write) :=
    Message.encodePayload_eq (.handshakeResponse m)
  have hwritten : (∃ p, m.encodePayload = .ok p) ↔
      ∀ field ∈ (Message.handshakeResponse m).fields, field.Writable := by
    rw [hencode, ← @Field.forM_write_ok_iff _ []]
    simp only [written_eq_ok]
  rw [hwritten]
  simp only [Message.fields, List.forall_mem_cons, List.not_mem_nil, false_implies, implies_true,
    Field.Writable, not_not, and_true, true_and]
  constructor
  · intro hall
    obtain ⟨hlength, -, hshift, htext⟩ := hall
    exact ⟨⟨hlength, by omega⟩, htext⟩
  · intro hall
    obtain ⟨⟨hlength, hshift⟩, htext⟩ := hall
    exact ⟨hlength, by omega, by omega, htext⟩

/-- Both ends derive the same key: the response can be sent exactly if its seed and shift make a
transform (and its text is encodable), and the transform made of what the peer decodes is the same
one. Its key is the running exclusive or of the seed, which can be undone. -/
theorem handshake_key_agreement (seed : Bytes) (shift : Int) (text : PyStr) :
    ((∃ p, (HandshakeResponse.mk seed shift text).encodePayload = .ok p) ↔
      (∃ transform, ByteTransform.fromSeed seed shift = .ok transform) ∧
        ∃ raw, text.encodeUtf8 = .ok raw ∧ raw.length ≤ 0xFFFF) ∧
    ((∃ transform, ByteTransform.fromSeed seed shift = .ok transform) ↔
      (1 ≤ seed.length ∧ seed.length ≤ 127) ∧ 0 ≤ shift ∧ shift ≤ 255) ∧
    (∀ p transform, (HandshakeResponse.mk seed shift text).encodePayload = .ok p →
      ByteTransform.fromSeed seed shift = .ok transform →
      ∃ m, HandshakeResponse.decodePayload p = .ok m ∧
        ByteTransform.fromSeed m.seed m.shift = .ok transform ∧
        transform.key = ByteTransform.prefixXor seed ∧ transform.key.length = seed.length ∧
        ∀ i < seed.length, transform.key[i]? = some ((seed.take (i + 1)).foldl (· ^^^ ·) 0)) ∧
    ∀ n, Set.BijOn ByteTransform.prefixXor {seed | seed.length = n} {key | key.length = n} := by
  refine ⟨?_, ByteTransform.fromSeed_isOk_iff, ?_, ByteTransform.prefixXor_bijOn⟩
  · rw [HandshakeResponse.encodePayload_isOk_iff, ByteTransform.fromSeed_isOk_iff]
  · intro p transform hp htransform
    obtain ⟨hkey, -⟩ := ByteTransform.fromSeed_eq_ok.mp htransform
    have hdecoded := HandshakeResponse.payload_exact.decode_encode _ p hp
    refine ⟨_, hdecoded, htransform, hkey, ?_, ?_⟩
    · rw [hkey, ByteTransform.prefixXor_length]
    · intro i hi
      rw [hkey]
      exact ByteTransform.getElem?_prefixXor hi

end Army3
