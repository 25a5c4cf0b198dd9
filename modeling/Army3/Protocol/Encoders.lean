import Army3.Protocol.AreaList

/-! What the encoders raise: the fields of every message in the order of its schema, and the first
of them that cannot be written. -/

namespace Army3
open Codec

def IsEncodeError (e : PyError) : Prop := ∃ text, e = .encodeError text

/-- One call of an encoder on its writer, or one check before it. -/
inductive Field where
  | check (bad : Prop) [decidable : Decidable bad] (text : String)
  | uint (width : Nat) (value : Int) (name : String)
  | string16 (value : PyStr) (name : String)
  | bytes (value : Bytes)

namespace Field

def write : Field → ByteWriter
  | check bad text => raiseIf bad (.encodeError text)
  | uint width value name => writeUint width value name
  | string16 value name => writeString16 value name
  | bytes value => writeBytes value

/-- The field has a place on the wire. -/
def Writable : Field → Prop
  | check bad _ => ¬ bad
  | uint width value _ => 0 ≤ value ∧ value < 256 ^ width
  | string16 value _ => ∃ raw, value.encodeUtf8 = .ok raw ∧ raw.length ≤ 0xFFFF
  | bytes _ => True

/-- The field is a text with a surrogate code point in it. -/
def HasSurrogate : Field → Prop
  | string16 value _ => ∃ p ∈ value, p.IsSurrogate
  | _ => False

theorem writable_iff_uintWire {width : Nat} {value : Int} {name : String} :
    (uint width value name).Writable ↔ ∃ wire, UintWire width value wire := by
  constructor
  · intro hrange
    obtain ⟨hnonneg, hlt⟩ := hrange
    refine ⟨_, value.toNat, by omega, ?_, rfl⟩
    have hcast : ((256 ^ width : Nat) : Int) = 256 ^ width := by push_cast; rfl
    omega
  · intro hall
    obtain ⟨_, digits, rfl, hlt, -⟩ := hall
    have hcast : ((256 ^ width : Nat) : Int) = 256 ^ width := by push_cast; rfl
    exact ⟨by omega, by omega⟩

theorem validateUint_raises {value : Int} {bits : Nat} {name : String} {e : PyError}
    (h : validateUint value bits name = .error e) : IsEncodeError e := by
  unfold validateUint at h
  by_cases hrange : 0 ≤ value ∧ value ≤ 2 ^ bits - 1
  · simp [raiseIf, hrange, bind, Except.bind, pure, Except.pure] at h
  · simp only [raiseIf, hrange, not_false_eq_true, if_true] at h
    cases h
    exact ⟨_, rfl⟩

theorem writeUint_raises (width : Nat) (value : Int) (name : String) :
    RaisesOnly IsEncodeError (writeUint width value name) := by
  apply (RaisesOnly.lift fun e => validateUint_raises).seq
  intro digits data e he
  cases he

/-- Without a surrogate the text is encoded, and only its length can be wrong. -/
theorem writeString16_raises {value : PyStr} (name : String)
    (hplain : ¬ ∃ p ∈ value, p.IsSurrogate) : RaisesOnly IsEncodeError (writeString16 value name) := by
  have hencode : RaisesOnly IsEncodeError (liftM value.encodeUtf8 : Coder UInt8 PyError Bytes) :=
    RaisesOnly.lift fun e he => absurd (PyStr.encodeUtf8_eq_error.mp he).2 hplain
  refine hencode.seq fun raw => ?_
  have hlength : IsEncodeError (.encodeError s!"{name} exceeds 65535 UTF-8 bytes") := ⟨_, rfl⟩
  refine (raiseIf_raisesOnly hlength).seq fun _ => ?_
  refine (writeUint_raises 2 _ _).seq fun _ => ?_
  intro data e he
  cases he

/-- A field that is written appends to the buffer, whatever is in it already. -/
theorem write_ok_iff {field : Field} {buffer : Bytes} :
    (∃ buffer', field.write.run buffer = .ok ((), buffer')) ↔ field.Writable := by
  cases field with
  | check bad text =>
    simp only [write, Writable, raiseIf_run_eq_ok]
    constructor
    · intro hall
      obtain ⟨_, hpass, -⟩ := hall
      exact hpass
    · exact fun hpass => ⟨buffer, hpass, rfl⟩
  | uint width value name =>
    simp only [write, writeUint_run_eq_ok, writable_iff_uintWire]
    constructor
    · intro hall
      obtain ⟨_, wire, hwire, -⟩ := hall
      exact ⟨wire, hwire⟩
    · intro hall
      obtain ⟨wire, hwire⟩ := hall
      exact ⟨_, wire, hwire, rfl⟩
  | string16 value name =>
    simp only [write, writeString16_run_eq_ok, Writable]
    constructor
    · intro hall
      obtain ⟨_, _, ⟨raw, henc, hlength, -⟩, -⟩ := hall
      exact ⟨raw, henc, hlength⟩
    · intro hall
      obtain ⟨raw, henc, hlength⟩ := hall
      exact ⟨_, _, ⟨raw, henc, hlength, rfl⟩, rfl⟩
  | bytes value =>
    simp only [write, Writable, iff_true]
    exact ⟨_, rfl⟩

/-- A field without a surrogate that is not written raises `EncodeError`. -/
theorem write_raises {field : Field} (hplain : ¬ field.HasSurrogate) :
    RaisesOnly IsEncodeError field.write := by
  cases field with
  | check bad text => exact raiseIf_raisesOnly ⟨text, rfl⟩
  | uint width value name => exact writeUint_raises width value name
  | string16 value name => exact writeString16_raises name hplain
  | bytes value =>
    intro buffer e he
    cases he

/-- A text with a surrogate lets the codec's own exception through. -/
theorem write_of_hasSurrogate {field : Field} (h : field.HasSurrogate) (buffer : Bytes) :
    field.write.run buffer = .error .unicodeEncodeError := by
  cases field with
  | check bad text => exact absurd h id
  | uint width value name => exact absurd h id
  | string16 value name =>
    have henc := PyStr.encodeUtf8_eq_error.mpr ⟨rfl, h⟩
    simp only [write, writeString16, StateT.run_bind, henc]
    rfl
  | bytes value => exact absurd h id

/-- The first field that cannot be written is a text with a surrogate. -/
def SurrogateFirst (fields : List Field) : Prop :=
  ∃ before field after, fields = before ++ field :: after ∧ (∀ earlier ∈ before, earlier.Writable) ∧
    field.HasSurrogate

theorem forM_write_ok_iff {fields : List Field} {buffer : Bytes} :
    (∃ buffer', (fields.forM write).run buffer = .ok ((), buffer')) ↔
      ∀ field ∈ fields, field.Writable := by
  induction fields generalizing buffer with
  | nil => exact iff_of_true ⟨buffer, rfl⟩ (by simp)
  | cons field fields ih =>
    have hsplit : (field :: fields).forM write = field.write >>= fun _ => fields.forM write := rfl
    rw [hsplit, List.forall_mem_cons]
    constructor
    · intro hall
      obtain ⟨_, hrun⟩ := hall
      obtain ⟨_, middle, hfirst, hrest⟩ := run_bind_eq_ok.mp hrun
      exact ⟨write_ok_iff.mp ⟨_, hfirst⟩, ih.mp ⟨_, hrest⟩⟩
    · intro hall
      obtain ⟨middle, hfirst⟩ := write_ok_iff.mpr hall.1
      obtain ⟨buffer', hrest⟩ := ih.mpr hall.2
      exact ⟨buffer', by rw [run_bind_of_ok hfirst, hrest]⟩

/-- A sequence of fields raises what its first unwritable field raises. -/
theorem written_raises_iff {fields : List Field} :
    (∀ e, written (fields.forM write) = .error e → IsEncodeError e) ↔ ¬ SurrogateFirst fields := by
  constructor
  · intro hall hfirst
    obtain ⟨before, field, after, hfields, hbefore, hsurrogate⟩ := hfirst
    obtain ⟨buffer, hwritten⟩ := forM_write_ok_iff.mpr hbefore
    have hraised := forM_run_eq_error.mpr
      ⟨before, field, after, buffer, hfields, hwritten, write_of_hasSurrogate hsurrogate buffer⟩
    obtain ⟨text, htext⟩ := hall .unicodeEncodeError (by unfold written; rw [hraised]; rfl)
    cases htext
  · intro hnone e he
    have hraised : (fields.forM write).run [] = .error e := by
      unfold written at he
      cases hrun : (fields.forM write).run [] with
      | error e' =>
        rw [hrun] at he
        rw [Except.error.inj he]
      | ok r =>
        rw [hrun] at he
        cases he
    obtain ⟨before, field, after, buffer, hfields, hbefore, hfield⟩ := forM_run_eq_error.mp hraised
    have hplain : ¬ field.HasSurrogate := by
      intro hsurrogate
      exact hnone ⟨before, field, after, hfields, forM_write_ok_iff.mp ⟨_, hbefore⟩, hsurrogate⟩
    exact write_raises hplain buffer e hfield

end Field

open Army3.Field

/-- A message object: a value of one of the classes with `encode_payload`. -/
inductive Message where
  | handshakeResponse (m : HandshakeResponse)
  | clientSessionRequest (m : ClientSessionRequest)
  | clientTransportSync0 (m : ClientTransportSync0)
  | serverTransportReset2 (m : ServerTransportReset2)
  | clientPostResetStatus (m : ClientPostResetStatus)
  | clientPrelogin72 (m : ClientPrelogin72)
  | serverPreloginStatus (m : ServerPreloginStatus)
  | clientU32B2 (m : ClientU32B2)
  | clientC6Selection (m : ClientC6Selection)
  | serverSessionResponse (m : ServerSessionResponse)
  | bootstrapVersions (m : BootstrapVersions)
  | clientAreaRequest (m : ClientAreaRequest)
  | serverAreaList (m : ServerAreaList)
  | screenBootstrapResponse (m : ScreenBootstrapResponse)
  | screenResourceManifestResponse (m : ScreenResourceManifestResponse)
  | screenResourceItemResponse (m : ScreenResourceItemResponse)
  | bootstrapDaResponse (m : BootstrapDaResponse)
  | bootstrapE1Response (m : BootstrapE1Response)
  | bootstrapE0EmptyResponse (m : BootstrapE0EmptyResponse)

namespace Message

def encodePayload : Message → Except PyError Bytes
  | handshakeResponse m => m.encodePayload
  | clientSessionRequest m => m.encodePayload
  | clientTransportSync0 m => m.encodePayload
  | serverTransportReset2 m => m.encodePayload
  | clientPostResetStatus m => m.encodePayload
  | clientPrelogin72 m => m.encodePayload
  | serverPreloginStatus m => m.encodePayload
  | clientU32B2 m => m.encodePayload
  | clientC6Selection m => m.encodePayload
  | serverSessionResponse m => m.encodePayload
  | bootstrapVersions m => m.encodePayload
  | clientAreaRequest m => m.encodePayload
  | serverAreaList m => m.encodePayload
  | screenBootstrapResponse m => m.encodePayload
  | screenResourceManifestResponse m => m.encodePayload
  | screenResourceItemResponse m => m.encodePayload
  | bootstrapDaResponse m => m.encodePayload
  | bootstrapE1Response m => m.encodePayload
  | bootstrapE0EmptyResponse m => m.encodePayload

end Message

/-- A sentinel record has only its id and its name on the wire. -/
def ServerAreaRecord.fields (record : ServerAreaRecord) (index : Nat) : List Field :=
  [.check (record.areaId ≠ -1 ∧ ¬ (0 ≤ record.areaId ∧ record.areaId ≤ 127))
      s!"records[{index}].area_id must be -1 or 0..127",
    .uint 1 (record.areaId % 0x100) s!"records[{index}].area_id"] ++
  (if record.areaId ≠ -1 then
    [.uint 1 record.flag0x11 s!"records[{index}].flag_0x11",
      .uint 1 record.flag0x13 s!"records[{index}].flag_0x13",
      .uint 1 record.occupancy s!"records[{index}].occupancy",
      .uint 1 record.capacity s!"records[{index}].capacity",
      .uint 4 record.money s!"records[{index}].money"]
  else []) ++
  [.string16 record.name s!"records[{index}].name"]

/-- The fields of a message in the order in which its encoder checks and writes them. -/
def Message.fields : Message → List Field
  | handshakeResponse m =>
    [.check (¬ (1 ≤ m.seed.length ∧ m.seed.length ≤ 0x7F))
        "handshake seed length must be between 1 and 127",
      .uint 1 m.seed.length "seed.length", .bytes m.seed, .uint 1 m.shift "shift",
      .string16 m.text "text"]
  | clientSessionRequest m =>
    [.string16 m.fieldFromControl38 "field_from_control38",
      .string16 m.fieldFromControl30 "field_from_control30", .uint 1 m.mode "mode"]
  | clientTransportSync0 m =>
    [.uint 1 0 "subcommand", .string16 m.storedText "stored_text",
      .uint 4 m.counter94 "counter94", .uint 4 m.counter90 "counter90"]
  | serverTransportReset2 _ => [.bytes [0x02]]
  | clientPostResetStatus m => [.uint 1 m.value "value"]
  | clientPrelogin72 m =>
    [.uint 1 m.value1 "value1", .uint 1 m.value2 "value2", .string16 m.text "text"]
  | serverPreloginStatus m => [.uint 1 m.value "value"]
  | clientU32B2 m => [.uint 4 m.value "value"]
  | clientC6Selection m => [.string16 m.text "text", .uint 1 1 "marker"]
  | serverSessionResponse m =>
    [.string16 m.listForMode1 "list_for_mode1", .string16 m.rawForMode1 "raw_for_mode1",
      .string16 m.listForMode0 "list_for_mode0", .string16 m.rawForMode0 "raw_for_mode0"]
  | bootstrapVersions m =>
    [.uint 1 m.e1Version "e1_version", .uint 1 m.e0Version "e0_version",
      .uint 1 m.daVersion "da_version"]
  | clientAreaRequest m =>
    [.check (m.mode ≠ 0) "only the confirmed 0xE4 area mode 0 is supported",
      .uint 1 m.mode "mode"]
  | serverAreaList m =>
    [.check (m.selector = 1 ∨ ¬ (0 ≤ m.selector ∧ m.selector ≤ 0xFF))
        "0xE4 area-list selector must be a byte other than 1",
      .check (m.records = []) "0xE4 area list requires at least one record",
      .uint 1 m.selector "selector"] ++
    m.records.zipIdx.flatMap fun (record, index) => record.fields index
  | screenBootstrapResponse m =>
    [.check (¬ (-128 ≤ m.revision ∧ m.revision ≤ 127)) "screen bootstrap revision must be an s8",
      .uint 1 0 "selector", .uint 1 (m.revision % 0x100) "revision", .string16 m.text "text"]
  | screenResourceManifestResponse m =>
    [.uint 1 1 "selector", .uint 1 m.resourceVersion "resource_version",
      .uint 2 m.itemCount "item_count"]
  | screenResourceItemResponse m =>
    [.uint 1 2 "selector", .string16 m.key "key", .uint 4 m.data.length "data.length",
      .bytes m.data]
  | bootstrapDaResponse m =>
    [.uint 1 m.version "version", .uint 4 m.blob.length "blob.length", .bytes m.blob]
  | bootstrapE1Response m =>
    [.uint 1 m.version "version", .uint 4 m.blob1.length "blob1.length", .bytes m.blob1,
      .uint 4 m.blob2.length "blob2.length", .bytes m.blob2,
      .uint 4 m.blob3.length "blob3.length", .bytes m.blob3]
  | bootstrapE0EmptyResponse m =>
    [.uint 1 m.version "version", .uint 1 0 "first_count", .uint 2 0 "second_count"]

theorem ServerAreaRecord.encodeInto_eq (record : ServerAreaRecord) (index : Nat) :
    record.encodeInto index = (record.fields index).forM write := by
  unfold encodeInto fields
  by_cases hsentinel : record.areaId ≠ -1
  · simp only [if_pos hsentinel, List.forM_eq_forM, List.cons_append, List.nil_append,
      List.forM_cons, List.forM_nil, bind_pure_unit, Field.write, writeU8, writeU32]
  · simp only [if_neg hsentinel, List.forM_eq_forM, List.cons_append, List.nil_append,
      List.append_nil, List.forM_cons, List.forM_nil, bind_pure_unit, Field.write, writeU8]

theorem ServerAreaList.records_forM_eq (records : List (ServerAreaRecord × Nat)) :
    (records.forM fun (record, index) => record.encodeInto index) =
      (records.flatMap fun (record, index) => record.fields index).forM write := by
  induction records with
  | nil => rfl
  | cons entry records ih =>
    obtain ⟨record, index⟩ := entry
    simp only [List.forM_eq_forM, List.forM_cons, List.flatMap_cons, List.forM_append] at ih ⊢
    rw [ih, record.encodeInto_eq index]
    rfl

/-- Every encoder checks and writes the fields of its message, one after the other. -/
theorem Message.encodePayload_eq (message : Message) :
    message.encodePayload = written (message.fields.forM write) := by
  cases message with
  | serverTransportReset2 m => rfl
  | serverAreaList m =>
    simp only [encodePayload, ServerAreaList.encodePayload, ServerAreaList.records_forM_eq, fields,
      List.forM_eq_forM, List.cons_append, List.nil_append, List.forM_cons, Field.write, writeU8]
  | _ m =>
    simp only [encodePayload, fields, HandshakeResponse.encodePayload,
      ClientSessionRequest.encodePayload, ClientTransportSync0.encodePayload,
      ClientPostResetStatus.encodePayload, ClientPrelogin72.encodePayload,
      ServerPreloginStatus.encodePayload, ClientU32B2.encodePayload,
      ClientC6Selection.encodePayload, ServerSessionResponse.encodePayload,
      BootstrapVersions.encodePayload, ClientAreaRequest.encodePayload,
      ScreenBootstrapResponse.encodePayload, ScreenResourceManifestResponse.encodePayload,
      ScreenResourceItemResponse.encodePayload, BootstrapDaResponse.encodePayload,
      BootstrapE1Response.encodePayload, BootstrapE0EmptyResponse.encodePayload,
      List.forM_eq_forM, List.forM_cons, List.forM_nil, bind_pure_unit, Field.write, writeU8,
      writeU16, writeU32]

/-- An encoder raises `EncodeError` only, unless the first field of the message that cannot be
written is a text with a surrogate code point: `write_string16` lets the codec's own
`UnicodeEncodeError` through. -/
theorem Message.raises_only_encodeError_iff (message : Message) :
    (∀ e, message.encodePayload = .error e → IsEncodeError e) ↔
      ¬ SurrogateFirst message.fields := by
  rw [message.encodePayload_eq]
  exact written_raises_iff

/-- A selection with a lone surrogate as its text. -/
theorem Message.raises_unicodeEncodeError :
    ¬ ∀ e, (clientC6Selection ⟨[0xD800]⟩).encodePayload = .error e → IsEncodeError e := by
  intro hall
  obtain ⟨text, htext⟩ := hall .unicodeEncodeError (by decide +kernel)
  cases htext

end Army3
