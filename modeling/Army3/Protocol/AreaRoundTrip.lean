import Army3.Protocol.AreaGrammar

namespace Army3
namespace ServerAreaRecord

/-- The record starts with an id byte whose sign the decoder drops and the encoder refuses. -/
def HighId (wire : Bytes) : Prop := ∃ id text, wire = id :: text ∧ 0x80 ≤ id.toNat ∧ id.toNat < 0xFF

theorem highId_iff {wire : Bytes} {record : ServerAreaRecord} (h : RecordGrammar wire record) :
    HighId wire ↔ 127 < record.areaId := by
  unfold HighId
  cases h with
  | sentinel htext =>
    constructor
    · intro hall
      obtain ⟨id, text, hwire, -, hlt⟩ := hall
      obtain ⟨rfl, -⟩ := List.cons.inj hwire
      exact absurd hlt (by decide)
    · intro hlt
      simp only at hlt
      omega
  | @ordinary id _ _ _ _ _ _ _ hid hmoney htext =>
    have hbyte := id.toNat_lt
    have hne : id.toNat ≠ 0xFF := fun heq => hid (UInt8.toNat_inj.mp heq)
    constructor
    · intro hall
      obtain ⟨id', text, hwire, hge, -⟩ := hall
      obtain ⟨rfl, -⟩ := List.cons.inj hwire
      simp only
      omega
    · intro hlt
      simp only at hlt
      exact ⟨id, _, rfl, by omega, by omega⟩

theorem onWire_of_recordGrammar {wire : Bytes} {record : ServerAreaRecord}
    (h : RecordGrammar wire record) : record.onWire = record := by
  unfold onWire
  cases h with
  | sentinel htext => rfl
  | ordinary hid hmoney htext =>
    rw [if_neg]
    simp only
    omega

end ServerAreaRecord

namespace ServerAreaList
open ServerAreaRecord

/-- The parser accepts the grammar and nothing else, its result is the only division of the
payload into records, and every other payload is a `DecodeError`. -/
theorem decodePayload_exact (p : Bytes) :
    (∀ m, decodePayload p = .ok m ↔ ∃ selector parts, AreaGrammar p selector parts ∧
      m = ⟨parts.map Prod.snd, selector.toNat⟩) ∧
    (∀ selector parts, AreaGrammar p selector parts →
      ∀ selector' parts', AreaGrammar p selector' parts' →
        selector' = selector ∧ parts' = parts) ∧
    ∀ e, decodePayload p = .error e → ∃ text, e = .decodeError text := by
  refine ⟨fun m => decodePayload_eq_ok, ?_, fun e he => decodePayload_raises he⟩
  intro selector parts h selector' parts' h'
  exact areaGrammar_unique h' h

theorem onWire_of_decodePayload {p : Bytes} {m : ServerAreaList} (h : decodePayload p = .ok m) :
    ∀ record ∈ m.records, record.onWire = record := by
  obtain ⟨selector, parts, hgrammar, rfl⟩ := decodePayload_eq_ok.mp h
  intro record hrecord
  obtain ⟨part, hpart, rfl⟩ := List.mem_map.mp hrecord
  exact onWire_of_recordGrammar (hgrammar.records part hpart)

/-- The encoder gives an accepted payload back exactly if none of its records has a high id. -/
theorem encode_decode_iff (p : Bytes) :
    (∀ m, decodePayload p = .ok m → m.encodePayload = .ok p) ↔
      ∀ selector parts, AreaGrammar p selector parts → ∀ part ∈ parts, ¬ HighId part.1 := by
  constructor
  · intro h selector parts hgrammar part hpart hhigh
    have henc := h _ (decodePayload_eq_ok.mpr ⟨selector, parts, hgrammar, rfl⟩)
    obtain ⟨-, -, -, -, -, hids⟩ := encodePayload_eq_ok.mp henc
    have hid := hids part.2 (List.mem_map.mpr ⟨part, hpart, rfl⟩)
    have hlt := (highId_iff (hgrammar.records part hpart)).mp hhigh
    omega
  · intro h m hm
    have honWire := onWire_of_decodePayload hm
    obtain ⟨selector, parts, hgrammar, rfl⟩ := decodePayload_eq_ok.mp hm
    refine encodePayload_eq_ok.mpr ⟨selector, parts, hgrammar, rfl, ?_, ?_⟩
    · rw [List.map_congr_left honWire]
      exact List.map_id _
    · intro record hrecord
      obtain ⟨part, hpart, rfl⟩ := List.mem_map.mp hrecord
      have hlow := h selector parts hgrammar part hpart
      rw [highId_iff (hgrammar.records part hpart)] at hlow
      omega

theorem encode_decode_fails_at_128 : ¬ ∀ m,
    decodePayload [0, 0x80, 0, 0, 0, 8, 0, 0, 0, 0, 0, 0] = .ok m →
      m.encodePayload = .ok [0, 0x80, 0, 0, 0, 8, 0, 0, 0, 0, 0, 0] := by
  intro h
  have hname : String16Wire [] [0, 0] := ⟨[], rfl, by decide, rfl⟩
  have hrecord : RecordGrammar [0x80, 0, 0, 0, 8, 0, 0, 0, 0, 0, 0] _ :=
    @RecordGrammar.ordinary 0x80 0 0 0 8 [0, 0, 0, 0] _ _ (by decide) rfl hname
  have hgrammar : AreaGrammar [0, 0x80, 0, 0, 0, 8, 0, 0, 0, 0, 0, 0] 0 [(_, _)] :=
    ⟨rfl, by decide, List.cons_ne_nil _ _, by
      intro part hpart
      rw [List.mem_singleton.mp hpart]
      exact hrecord⟩
  have henc := h _ (decodePayload_eq_ok.mpr ⟨_, _, hgrammar, rfl⟩)
  obtain ⟨-, -, -, -, -, hids⟩ := encodePayload_eq_ok.mp henc
  exact absurd (hids _ List.mem_cons_self) (by decide)

theorem map_onWire_eq_self {records : List ServerAreaRecord} :
    records.map (·.onWire) = records ↔ ∀ record ∈ records, record.areaId = -1 →
      record = { areaId := -1, name := record.name } := by
  have hself : records.map (·.onWire) = records ↔ ∀ record ∈ records, record.onWire = record := by
    have hmap := List.map_inj_left (l := records) (f := onWire) (g := id)
    rwa [List.map_id] at hmap
  rw [hself]
  apply forall₂_congr
  intro record _
  unfold onWire
  by_cases hid : record.areaId = -1
  · rw [if_pos hid]
    constructor
    · intro h _
      exact h.symm
    · intro h
      exact (h hid).symm
  · rw [if_neg hid]
    exact ⟨fun _ hid' => absurd hid' hid, fun _ => rfl⟩

/-- What comes back is the list written, a sentinel's unwritten fields at their defaults. -/
theorem decode_encode {m : ServerAreaList} {p : Bytes} (h : m.encodePayload = .ok p) :
    decodePayload p = .ok { m with records := m.records.map (·.onWire) } ∧
    (decodePayload p = .ok m ↔ ∀ record ∈ m.records, record.areaId = -1 →
      record = { areaId := -1, name := record.name }) := by
  obtain ⟨selector, parts, hgrammar, hselector, hrecords, -⟩ := encodePayload_eq_ok.mp h
  have hdecode : decodePayload p = .ok { m with records := m.records.map (·.onWire) } :=
    decodePayload_eq_ok.mpr ⟨selector, parts, hgrammar, by rw [hrecords, hselector]⟩
  refine ⟨hdecode, ?_⟩
  rw [hdecode, ← map_onWire_eq_self]
  constructor
  · intro hsame
    exact congrArg records (Except.ok.inj hsame)
  · intro hsame
    rw [hsame]

theorem decode_encode_two_records :
    decodePayload [0, 0xFF, 0, 0, 5, 0, 0, 0, 8, 0, 0, 0, 0, 0, 0] =
      .ok ⟨[{ areaId := -1, name := [] }, { areaId := 5, name := [] }], 0⟩ :=
  (decode_encode (m := ⟨[{ areaId := -1, capacity := 3, name := [] }, { areaId := 5, name := [] }], 0⟩)
    (by rfl)).1

theorem decode_encode_drops_capacity : ¬ ∀ p,
    encodePayload ⟨[{ areaId := -1, capacity := 3, name := [] }], 0⟩ = .ok p →
      decodePayload p = .ok ⟨[{ areaId := -1, capacity := 3, name := [] }], 0⟩ := by
  intro h
  have hback := h [0, 0xFF, 0, 0] (by rfl)
  exact absurd (onWire_of_decodePayload hback _ List.mem_cons_self) (by decide)

end ServerAreaList
end Army3
