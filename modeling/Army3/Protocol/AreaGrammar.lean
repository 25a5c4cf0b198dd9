import Army3.Protocol.AreaList
import Army3.Protocol.DecodeErrors

namespace Army3
open Codec

/-- One record of the 0xE4 schema: the sentinel id and a name, or a record with every field. -/
inductive RecordGrammar : Bytes → ServerAreaRecord → Prop where
  | sentinel {text : Bytes} {name : PyStr} (htext : String16Wire name text) :
      RecordGrammar (0xFF :: text) { areaId := -1, name }
  | ordinary {id flag0x11 flag0x13 occupancy capacity : UInt8} {money text : Bytes} {name : PyStr}
      (hid : id ≠ 0xFF) (hmoney : money.length = 4) (htext : String16Wire name text) :
      RecordGrammar (id :: flag0x11 :: flag0x13 :: occupancy :: capacity :: (money ++ text))
        { areaId := id.toNat, flag0x11 := flag0x11.toNat, flag0x13 := flag0x13.toNat,
          occupancy := occupancy.toNat, capacity := capacity.toNat,
          money := BigEndian.fromBytes money, name }

/-- A selector byte other than 1, then one or more records, each with the bytes it takes up. -/
structure AreaGrammar (p : Bytes) (selector : UInt8)
    (parts : List (Bytes × ServerAreaRecord)) : Prop where
  bytes : p = selector :: (parts.map Prod.fst).flatten
  selector_ne : selector ≠ 1
  parts_ne : parts ≠ []
  records : ∀ part ∈ parts, RecordGrammar part.1 part.2

namespace ServerAreaRecord

/-- The fields that have a place on the wire; a sentinel's others are the defaults. -/
def onWire (record : ServerAreaRecord) : ServerAreaRecord :=
  if record.areaId = -1 then { areaId := -1, name := record.name } else record

/-- `decode_from` takes one record of the grammar off the front, and fails on anything else. -/
theorem decodeFrom_run_eq_ok {index : Nat} {data rest : Bytes} {record : ServerAreaRecord} :
    (decodeFrom index).run data = .ok (record, rest) ↔
      ∃ wire, RecordGrammar wire record ∧ data = wire ++ rest := by
  have hsentinel : ((0xFF : UInt8).toNat : Int) = 0xFF := rfl
  unfold decodeFrom
  rw [readU8_bind_eq_ok]
  constructor
  · intro hall
    obtain ⟨id, tail, rfl, h⟩ := hall
    by_cases hid : id = 0xFF
    · rw [hid, if_pos hsentinel, decodeFields, if_pos rfl, readString16_bind_eq_ok] at h
      obtain ⟨name, text, _, htext, rfl, hend⟩ := h
      cases hend
      exact ⟨_, .sentinel htext, by rw [hid]; rfl⟩
    · have hbyte : ¬ (id.toNat : Int) = 0xFF := by
        intro heq
        apply hid
        apply UInt8.toNat_inj.mp
        exact_mod_cast heq
      rw [if_neg hbyte, decodeFields, if_neg (by omega)] at h
      simp only [readU8_bind_eq_ok, readU32, readUint_bind_eq_ok, readString16_bind_eq_ok] at h
      obtain ⟨_, _, rfl, _, _, rfl, _, _, rfl, _, _, rfl, money, _, hmoney, rfl, name, text, _,
        htext, rfl, hend⟩ := h
      cases hend
      refine ⟨_, .ordinary hid hmoney htext, ?_⟩
      simp only [List.cons_append, List.append_assoc]
  · intro hall
    obtain ⟨wire, hwire, rfl⟩ := hall
    cases hwire with
    | sentinel htext =>
      refine ⟨0xFF, _, rfl, ?_⟩
      rw [if_pos hsentinel, decodeFields, if_pos rfl, readString16_bind_eq_ok]
      exact ⟨_, _, _, htext, rfl, rfl⟩
    | @ordinary id _ _ _ _ _ _ _ hid hmoney htext =>
      have hbyte : ¬ (id.toNat : Int) = 0xFF := by
        intro heq
        apply hid
        apply UInt8.toNat_inj.mp
        exact_mod_cast heq
      refine ⟨id, _, rfl, ?_⟩
      rw [if_neg hbyte, decodeFields, if_neg (by omega)]
      simp only [readU8_bind_eq_ok, readU32, readUint_bind_eq_ok, readString16_bind_eq_ok]
      refine ⟨_, _, rfl, _, _, rfl, _, _, rfl, _, _, rfl, _, _, hmoney, ?_, _, _, _, htext, rfl, rfl⟩
      exact List.append_assoc _ _ _

theorem recordGrammar_unique {wire wire' rest rest' : Bytes} {record record' : ServerAreaRecord}
    (h : RecordGrammar wire record) (h' : RecordGrammar wire' record')
    (hsame : wire ++ rest = wire' ++ rest') : wire = wire' ∧ record = record' ∧ rest = rest' := by
  have hrun : (decodeFrom 0).run (wire ++ rest) = .ok (record, rest) :=
    decodeFrom_run_eq_ok.2 ⟨wire, h, rfl⟩
  have hrun' : (decodeFrom 0).run (wire ++ rest) = .ok (record', rest') :=
    decodeFrom_run_eq_ok.2 ⟨wire', h', hsame⟩
  rw [hrun] at hrun'
  cases hrun'
  exact ⟨List.append_cancel_right hsame, rfl, rfl⟩

theorem recordGrammar_ne_nil {wire : Bytes} {record : ServerAreaRecord}
    (h : RecordGrammar wire record) : wire ≠ [] := by
  cases h <;> exact List.cons_ne_nil _ _

theorem recordGrammar_sentinel {wire : Bytes} {record : ServerAreaRecord}
    (h : RecordGrammar wire record) (hid : record.areaId = -1) :
    ∃ text, String16Wire record.name text ∧ wire = 0xFF :: text := by
  cases h with
  | sentinel htext => exact ⟨_, htext, rfl⟩
  | ordinary _ _ _ => simp only at hid; omega

/-- `encode_into` writes the record of the grammar that carries the fields on the wire, and
refuses the ids from 128 on. -/
theorem encodeInto_run_eq_ok {record : ServerAreaRecord} {index : Nat} {buffer buffer' : Bytes} :
    (record.encodeInto index).run buffer = .ok ((), buffer') ↔
      record.areaId ≤ 127 ∧ ∃ wire, RecordGrammar wire record.onWire ∧ buffer' = buffer ++ wire := by
  unfold encodeInto onWire
  rw [raiseIf_bind_eq_ok, writeU8, writeUint_bind_eq_ok]
  by_cases hid : record.areaId = -1
  · rw [if_pos hid, if_neg (by simpa using hid)]
    simp only [writeString16_run_eq_ok]
    constructor
    · intro hall
      obtain ⟨_, id, hwire, text, htext, rfl⟩ := hall
      obtain ⟨byte, hbyte, rfl⟩ := uintWire_one.mp hwire
      obtain rfl : byte = 0xFF := by
        apply UInt8.toNat_inj.mp
        have hsentinel : (-1 : Int) % 0x100 = ((0xFF : UInt8).toNat : Int) := rfl
        rw [hid, hsentinel] at hbyte
        exact_mod_cast hbyte.symm
      exact ⟨by omega, _, .sentinel htext, by rw [List.append_assoc]; rfl⟩
    · intro hall
      obtain ⟨_, wire, hwire, rfl⟩ := hall
      obtain ⟨text, htext, rfl⟩ := recordGrammar_sentinel hwire rfl
      refine ⟨by omega, [0xFF], uintWire_one.mpr ⟨0xFF, by rw [hid]; rfl, rfl⟩, text, htext, ?_⟩
      rw [List.append_assoc]
      rfl
  · rw [if_neg hid, if_pos hid]
    simp only [writeU8, writeU32, writeUint_bind_eq_ok, writeString16_run_eq_ok]
    constructor
    · intro hall
      obtain ⟨areaId, _, _, _, _, _, name⟩ := record
      obtain ⟨hrange, _, h1, _, h2, _, h3, _, h4, _, h5, money, h6, text, htext, rfl⟩ := hall
      simp only at hid hrange h1 h2 h3 h4 h5 h6
      obtain ⟨id, hbyte, rfl⟩ := uintWire_one.mp h1
      obtain ⟨flag0x11, rfl, rfl⟩ := uintWire_one.mp h2
      obtain ⟨flag0x13, rfl, rfl⟩ := uintWire_one.mp h3
      obtain ⟨occupancy, rfl, rfl⟩ := uintWire_one.mp h4
      obtain ⟨capacity, rfl, rfl⟩ := uintWire_one.mp h5
      obtain ⟨hlength, rfl⟩ := uintWire_iff.mp h6
      obtain rfl : areaId = id.toNat := by omega
      have hne : id ≠ 0xFF := by
        intro heq
        rw [heq] at hrange
        exact hrange (by decide)
      refine ⟨by simp only; omega, _, .ordinary hne hlength htext, ?_⟩
      simp only [List.append_assoc, List.cons_append, List.nil_append]
    · intro hall
      obtain ⟨hid127, wire, hwire, rfl⟩ := hall
      cases hwire with
      | sentinel htext => exact absurd rfl hid
      | @ordinary id flag0x11 flag0x13 occupancy capacity money text _ hne hlength htext =>
        simp only at hid127 ⊢
        have hbyte : ∀ byte : UInt8, UintWire 1 byte.toNat [byte] := fun byte =>
          uintWire_one.mpr ⟨byte, rfl, rfl⟩
        refine ⟨by omega, [id], ?_, [flag0x11], hbyte _, [flag0x13], hbyte _, [occupancy], hbyte _,
          [capacity], hbyte _, money, uintWire_iff.mpr ⟨hlength, rfl⟩, text, htext, ?_⟩
        · exact uintWire_one.mpr ⟨id, by omega, rfl⟩
        · simp only [List.append_assoc, List.cons_append, List.nil_append]

theorem decodeFrom_raises (index : Nat) : RaisesOnly IsDecodeError (decodeFrom index) := by
  refine (readUint_raises 1 _).seq fun rawId => ?_
  unfold decodeFields
  by_cases h : (if rawId = 0xFF then -1 else rawId) = -1
  · rw [if_pos h]
    exact (readString16_raises _).seq fun name => RaisesOnly.pure _
  · rw [if_neg h]
    refine (readUint_raises 1 _).seq fun flag0x11 => ?_
    refine (readUint_raises 1 _).seq fun flag0x13 => ?_
    refine (readUint_raises 1 _).seq fun occupancy => ?_
    refine (readUint_raises 1 _).seq fun capacity => ?_
    refine (readUint_raises 4 _).seq fun money => ?_
    exact (readString16_raises _).seq fun name => RaisesOnly.pure _

end ServerAreaRecord

namespace ServerAreaList

theorem decodeRecords_of_end (before : List ServerAreaRecord) :
    (decodeRecords before).run [] = .ok (before, []) := by
  change decodeRecords before [] = _
  rw [decodeRecords]

theorem decodeRecords_of_error {before : List ServerAreaRecord} {byte : UInt8} {data : Bytes}
    {e : PyError} (h : (ServerAreaRecord.decodeFrom before.length).run (byte :: data) = .error e) :
    (decodeRecords before).run (byte :: data) = .error e := by
  change decodeRecords before (byte :: data) = _
  rw [decodeRecords]
  split
  · rename_i e' h'
    rw [h] at h'
    cases h'
    rfl
  · rename_i record rest h'
    rw [h] at h'
    cases h'

theorem decodeRecords_of_ok {before : List ServerAreaRecord} {byte : UInt8} {data rest : Bytes}
    {record : ServerAreaRecord}
    (h : (ServerAreaRecord.decodeFrom before.length).run (byte :: data) = .ok (record, rest)) :
    (decodeRecords before).run (byte :: data) = (decodeRecords (before ++ [record])).run rest := by
  change decodeRecords before (byte :: data) = _
  rw [decodeRecords]
  split
  · rename_i e' h'
    rw [h] at h'
    cases h'
  · rename_i record' rest' h'
    rw [h] at h'
    cases h'
    rfl

/-- The loop divides the payload into records of the grammar, to the last byte. -/
theorem decodeRecords_run_eq_ok {before records : List ServerAreaRecord} {data rest : Bytes} :
    (decodeRecords before).run data = .ok (records, rest) ↔
      ∃ parts : List (Bytes × ServerAreaRecord), rest = [] ∧
        data = (parts.map Prod.fst).flatten ∧ records = before ++ parts.map Prod.snd ∧
        ∀ part ∈ parts, RecordGrammar part.1 part.2 := by
  fun_induction decodeRecords before data with
  | case1 before =>
    rw [decodeRecords_of_end]
    constructor
    · intro h
      cases h
      exact ⟨[], rfl, rfl, (List.append_nil _).symm, by simp⟩
    · intro hall
      obtain ⟨parts, rfl, hdata, rfl, hparts⟩ := hall
      cases parts with
      | nil => rw [List.map_nil, List.append_nil]
      | cons part parts =>
        have hne := ServerAreaRecord.recordGrammar_ne_nil (hparts part List.mem_cons_self)
        simp only [List.map_cons, List.flatten_cons] at hdata
        exact absurd (List.append_eq_nil_iff.mp hdata.symm).1 hne
  | case2 before byte data e h =>
    rw [decodeRecords_of_error h]
    constructor
    · intro h'
      cases h'
    · intro hall
      obtain ⟨parts, rfl, hdata, rfl, hparts⟩ := hall
      cases parts with
      | nil => cases hdata
      | cons part parts =>
        have hclash := h.symm.trans (ServerAreaRecord.decodeFrom_run_eq_ok.2
          ⟨part.1, hparts part List.mem_cons_self, hdata⟩)
        cases hclash
  | case3 before byte data record tail h ih =>
    obtain ⟨wire, hwire, hdata⟩ := ServerAreaRecord.decodeFrom_run_eq_ok.1 h
    rw [decodeRecords_of_ok h, ih, hdata]
    constructor
    · intro hall
      obtain ⟨parts, rfl, rfl, rfl, hparts⟩ := hall
      refine ⟨(wire, record) :: parts, rfl, rfl, by rw [List.append_assoc]; rfl, ?_⟩
      intro part hpart
      rcases List.mem_cons.mp hpart with rfl | hlater
      · exact hwire
      · exact hparts part hlater
    · intro hall
      obtain ⟨parts, rfl, hsame, rfl, hparts⟩ := hall
      cases parts with
      | nil =>
        rw [← hdata] at hsame
        cases hsame
      | cons part parts =>
        obtain ⟨rfl, rfl, rfl⟩ := ServerAreaRecord.recordGrammar_unique hwire
          (hparts part List.mem_cons_self) hsame
        refine ⟨parts, rfl, rfl, by rw [List.append_assoc]; rfl, ?_⟩
        intro part' hpart'
        exact hparts part' (List.mem_cons_of_mem _ hpart')

theorem decodePayload_eq_ok {p : Bytes} {m : ServerAreaList} :
    decodePayload p = .ok m ↔ ∃ selector parts, AreaGrammar p selector parts ∧
      m = ⟨parts.map Prod.snd, selector.toNat⟩ := by
  unfold decodePayload
  rw [parsed_eq_ok]
  simp only [readU8_bind_eq_ok, raiseIf_bind_eq_ok, run_bind_eq_ok (x := decodeRecords []),
    decodeRecords_run_eq_ok]
  constructor
  · intro hall
    obtain ⟨_, selector, _, rfl, hselector, _, _, ⟨parts, rfl, rfl, rfl, hparts⟩, hsome, hend⟩ := hall
    cases hend
    refine ⟨selector, parts, ⟨rfl, ?_, ?_, hparts⟩, rfl⟩
    · intro heq
      rw [heq] at hselector
      exact hselector rfl
    · intro hnil
      rw [hnil] at hsome
      exact hsome rfl
  · intro hall
    obtain ⟨selector, parts, ⟨rfl, hselector, hsome, hparts⟩, rfl⟩ := hall
    refine ⟨[], selector, _, rfl, ?_, _, _, ⟨parts, rfl, rfl, rfl, hparts⟩, ?_, rfl⟩
    · intro heq
      apply hselector
      apply UInt8.toNat_inj.mp
      exact_mod_cast heq
    · simpa using hsome

theorem areaGrammar_unique {p : Bytes} {selector selector' : UInt8}
    {parts parts' : List (Bytes × ServerAreaRecord)} (h : AreaGrammar p selector parts)
    (h' : AreaGrammar p selector' parts') : selector = selector' ∧ parts = parts' := by
  have hsame := h.bytes.symm.trans h'.bytes
  obtain ⟨rfl, hbody⟩ := List.cons.inj hsame
  refine ⟨rfl, ?_⟩
  have hrecords := h.records
  have hrecords' := h'.records
  clear h h' hsame
  induction parts generalizing parts' with
  | nil =>
    cases parts' with
    | nil => rfl
    | cons part' parts' =>
      have hne := ServerAreaRecord.recordGrammar_ne_nil (hrecords' part' List.mem_cons_self)
      exact absurd (List.append_eq_nil_iff.mp hbody.symm).1 hne
  | cons part parts ih =>
    cases parts' with
    | nil =>
      have hne := ServerAreaRecord.recordGrammar_ne_nil (hrecords part List.mem_cons_self)
      exact absurd (List.append_eq_nil_iff.mp hbody).1 hne
    | cons part' parts' =>
      obtain ⟨hwire, hrecord, hrest⟩ := ServerAreaRecord.recordGrammar_unique
        (hrecords part List.mem_cons_self) (hrecords' part' List.mem_cons_self) hbody
      have htail := ih hrest (fun q hq => hrecords q (List.mem_cons_of_mem _ hq))
        (fun q hq => hrecords' q (List.mem_cons_of_mem _ hq))
      rw [htail, Prod.ext hwire hrecord]

theorem decodeRecords_raises (before : List ServerAreaRecord) :
    RaisesOnly IsDecodeError (decodeRecords before) := by
  intro data e he
  fun_induction decodeRecords before data with
  | case1 before =>
    rw [decodeRecords_of_end] at he
    cases he
  | case2 before byte data e' h =>
    rw [decodeRecords_of_error h] at he
    cases he
    exact ServerAreaRecord.decodeFrom_raises _ _ _ h
  | case3 before byte data record tail h ih =>
    rw [decodeRecords_of_ok h] at he
    exact ih he

theorem decodePayload_raises {p : Bytes} {e : PyError} (h : decodePayload p = .error e) :
    IsDecodeError e := by
  refine RaisesOnly.parsed ?_ h
  refine (readUint_raises 1 _).seq fun selector => ?_
  refine (raiseIf_raises ⟨_, rfl⟩).seq fun _ => ?_
  refine (decodeRecords_raises []).seq fun records => ?_
  exact (raiseIf_raises ⟨_, rfl⟩).seq fun _ => RaisesOnly.pure _

theorem writeRecords_run_eq_ok {records : List ServerAreaRecord} {start : Nat}
    {buffer buffer' : Bytes} :
    ((records.zipIdx start).forM fun (record, index) => record.encodeInto index).run buffer =
        .ok ((), buffer') ↔
      ∃ parts : List (Bytes × ServerAreaRecord), records.map (·.onWire) = parts.map Prod.snd ∧
        buffer' = buffer ++ (parts.map Prod.fst).flatten ∧
        (∀ part ∈ parts, RecordGrammar part.1 part.2) ∧ ∀ record ∈ records, record.areaId ≤ 127 := by
  induction records generalizing start buffer with
  | nil =>
    change Except.ok ((), buffer) = _ ↔ _
    constructor
    · intro h
      cases h
      exact ⟨[], rfl, (List.append_nil _).symm, by simp, by simp⟩
    · intro hall
      obtain ⟨parts, hparts, rfl, -, -⟩ := hall
      obtain rfl : parts = [] := by simpa using hparts.symm
      rw [List.map_nil, List.flatten_nil, List.append_nil]
  | cons record records ih =>
    change (record.encodeInto start >>= fun _ => (records.zipIdx (start + 1)).forM
      fun (record, index) => record.encodeInto index).run buffer = _ ↔ _
    rw [run_bind_eq_ok]
    constructor
    · intro hall
      obtain ⟨⟨⟩, _, hfirst, hlater⟩ := hall
      obtain ⟨hid, wire, hwire, rfl⟩ := ServerAreaRecord.encodeInto_run_eq_ok.1 hfirst
      obtain ⟨parts, hsame, rfl, hparts, hids⟩ := ih.mp hlater
      refine ⟨(wire, record.onWire) :: parts, ?_, ?_, ?_, ?_⟩
      · rw [List.map_cons, List.map_cons, hsame]
      · rw [List.map_cons, List.flatten_cons, List.append_assoc]
      · intro part hpart
        rcases List.mem_cons.mp hpart with rfl | hlater
        · exact hwire
        · exact hparts part hlater
      · intro record' hrecord'
        rcases List.mem_cons.mp hrecord' with rfl | hlater
        · exact hid
        · exact hids record' hlater
    · intro hall
      obtain ⟨parts, hsame, rfl, hparts, hids⟩ := hall
      cases parts with
      | nil => cases hsame
      | cons part parts =>
        rw [List.map_cons, List.map_cons] at hsame
        obtain ⟨hfirst, hlater⟩ := List.cons.inj hsame
        have hwire : RecordGrammar part.1 record.onWire := by
          rw [hfirst]
          exact hparts part List.mem_cons_self
        refine ⟨(), _, ServerAreaRecord.encodeInto_run_eq_ok.2
          ⟨hids record List.mem_cons_self, part.1, hwire, rfl⟩, ih.mpr ⟨parts, hlater, ?_, ?_, ?_⟩⟩
        · rw [List.map_cons, List.flatten_cons, List.append_assoc]
        · exact fun part' hpart' => hparts part' (List.mem_cons_of_mem _ hpart')
        · exact fun record' hrecord' => hids record' (List.mem_cons_of_mem _ hrecord')

/-- What `encode_payload` writes, and for which lists. -/
theorem encodePayload_eq_ok {p : Bytes} {m : ServerAreaList} :
    m.encodePayload = .ok p ↔ ∃ selector parts, AreaGrammar p selector parts ∧
      m.selector = selector.toNat ∧ m.records.map (·.onWire) = parts.map Prod.snd ∧
      ∀ record ∈ m.records, record.areaId ≤ 127 := by
  unfold encodePayload
  rw [written_eq_ok]
  simp only [raiseIf_bind_eq_ok, writeU8, writeUint_bind_eq_ok, writeRecords_run_eq_ok,
    List.nil_append]
  constructor
  · intro hall
    obtain ⟨hselector, hsome, wire, hwire, parts, hsame, rfl, hparts, hids⟩ := hall
    obtain ⟨selector, hbyte, rfl⟩ := uintWire_one.mp hwire
    refine ⟨selector, parts, ⟨rfl, ?_, ?_, hparts⟩, hbyte, hsame, hids⟩
    · intro heq
      rw [heq] at hbyte
      exact hselector (.inl hbyte)
    · intro hnil
      rw [hnil] at hsame
      exact hsome (List.map_eq_nil_iff.mp hsame)
  · intro hall
    obtain ⟨selector, parts, ⟨rfl, hselector, hsome, hparts⟩, hbyte, hsame, hids⟩ := hall
    have hlt := selector.toNat_lt
    refine ⟨?_, ?_, [selector], uintWire_one.mpr ⟨selector, hbyte, rfl⟩, parts, hsame, rfl, hparts,
      hids⟩
    · have hne : selector.toNat ≠ 1 := fun heq => hselector (UInt8.toNat_inj.mp heq)
      omega
    · intro hnil
      rw [hnil] at hsame
      exact hsome (List.map_eq_nil_iff.mp hsame.symm)

end ServerAreaList
end Army3
