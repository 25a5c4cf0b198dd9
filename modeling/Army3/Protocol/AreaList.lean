import Army3.Protocol.Messages

namespace Army3
open Codec

/-- One confirmed 0xE4 area/room-list record; an `areaId` of -1 marks the sentinel. -/
structure ServerAreaRecord where
  areaId : Int
  flag0x11 : Int := 0
  flag0x13 : Int := 0
  occupancy : Int := 0
  capacity : Int := 8
  money : Int := 0
  name : PyStr :=
    PyStr.ofChars ['K', 'h', 'u', ' ', 'v', 'ự', 'c', ' ', 'L', 'o', 'c', 'a', 'l']
  deriving DecidableEq

namespace ServerAreaRecord

def encodeInto (record : ServerAreaRecord) (index : Nat) : ByteWriter := do
  raiseIf (record.areaId ≠ -1 ∧ ¬ (0 ≤ record.areaId ∧ record.areaId ≤ 127))
    (.encodeError s!"records[{index}].area_id must be -1 or 0..127")
  writeU8 (record.areaId % 0x100) s!"records[{index}].area_id"
  if record.areaId ≠ -1 then
    writeU8 record.flag0x11 s!"records[{index}].flag_0x11"
    writeU8 record.flag0x13 s!"records[{index}].flag_0x13"
    writeU8 record.occupancy s!"records[{index}].occupancy"
    writeU8 record.capacity s!"records[{index}].capacity"
    writeU32 record.money s!"records[{index}].money"
  writeString16 record.name s!"records[{index}].name"

/-- The fields after the id byte. -/
def decodeFields (areaId : Int) (index : Nat) : ByteReader ServerAreaRecord :=
  if areaId = -1 then do
    let name ← readString16 s!"records[{index}].name"
    return { areaId := -1, name }
  else do
    let flag0x11 ← readU8 s!"records[{index}].flag_0x11"
    let flag0x13 ← readU8 s!"records[{index}].flag_0x13"
    let occupancy ← readU8 s!"records[{index}].occupancy"
    let capacity ← readU8 s!"records[{index}].capacity"
    let money ← readU32 s!"records[{index}].money"
    let name ← readString16 s!"records[{index}].name"
    return { areaId, flag0x11, flag0x13, occupancy, capacity, money, name }

def decodeFrom (index : Nat) : ByteReader ServerAreaRecord := do
  let rawId ← readU8 s!"records[{index}].area_id"
  decodeFields (if rawId = 0xFF then -1 else rawId) index

theorem decodeFields_consumes (areaId : Int) (index : Nat) :
    Consumes (decodeFields areaId index) := by
  unfold decodeFields
  by_cases h : areaId = -1
  · rw [if_pos h]
    exact (readString16_consumes _).bind fun _ => Consumes.pure _
  · rw [if_neg h]
    apply (readUint_consumes 1 _).bind
    intro flag0x11
    apply (readUint_consumes 1 _).bind
    intro flag0x13
    apply (readUint_consumes 1 _).bind
    intro occupancy
    apply (readUint_consumes 1 _).bind
    intro capacity
    apply (readUint_consumes 4 _).bind
    intro money
    exact (readString16_consumes _).bind fun _ => Consumes.pure _

theorem decodeFrom_shorter {index : Nat} {data rest : Bytes} {record : ServerAreaRecord}
    (h : (decodeFrom index).run data = .ok (record, rest)) : rest.length < data.length := by
  obtain ⟨rawId, middle, hid, hfields⟩ := run_bind_eq_ok.mp h
  obtain ⟨wire, ⟨digits, -, -, rfl⟩, rfl⟩ := readUint_run_eq_ok.mp hid
  have hle := (decodeFields_consumes _ index _ _ _ hfields).length_le
  rw [List.length_append, BigEndian.toBytes_length]
  omega

end ServerAreaRecord

/-- The record-list branch of the server-to-client 0xE4 handler. -/
structure ServerAreaList where
  records : List ServerAreaRecord := [{ areaId := 0 }]
  selector : Int := 0
  deriving DecidableEq

namespace ServerAreaList

def encodePayload (m : ServerAreaList) : Except PyError Bytes := written do
  raiseIf (m.selector = 1 ∨ ¬ (0 ≤ m.selector ∧ m.selector ≤ 0xFF))
    (.encodeError "0xE4 area-list selector must be a byte other than 1")
  raiseIf (m.records = []) (.encodeError "0xE4 area list requires at least one record")
  writeU8 m.selector "selector"
  m.records.zipIdx.forM fun (record, index) => record.encodeInto index

def toPacket (m : ServerAreaList) : Except PyError Packet := packetOf .area m.encodePayload

/-- `while reader.remaining`. -/
@[semireducible] def decodeRecords (records : List ServerAreaRecord) :
    ByteReader (List ServerAreaRecord)
  | [] => .ok (records, [])
  | byte :: data =>
    match _h : (ServerAreaRecord.decodeFrom records.length).run (byte :: data) with
    | .error e => .error e
    | .ok (record, rest) => decodeRecords (records ++ [record]) rest
termination_by data => data.length
decreasing_by exact ServerAreaRecord.decodeFrom_shorter _h

def decodePayload : Bytes → Except PyError ServerAreaList := parsed do
  let selector ← readU8 "selector"
  raiseIf (selector = 1) (.decodeError "0xE4 selector 1 is the password-prompt branch")
  let records ← decodeRecords []
  raiseIf (records = []) (.decodeError "0xE4 area list contains no records")
  return ⟨records, selector⟩

end ServerAreaList
end Army3
