import Army3.Protocol.AreaGrammar

/-! What the decoders raise on a packet: all of them but one raise `DecodeError` only. -/

namespace Army3
open Codec

theorem HandshakeResponse.decodePayload_raises {payload : Bytes} {e : PyError}
    (h : decodePayload payload = .error e) : IsDecodeError e := by
  refine RaisesOnly.parsed ?_ h
  refine (readUint_raises 1 _).seq fun seedLength => ?_
  apply (raiseIf_raises ⟨_, rfl⟩).bind
  intro data _ rest hchecked
  -- The length has passed its check, so the read of the seed has a size that is not negative.
  obtain ⟨hrange, -⟩ := raiseIf_run_eq_ok.mp hchecked
  have hsize : 0 ≤ seedLength := by omega
  refine (readExact_raises hsize _).seq fun seed => ?_
  refine (readUint_raises 1 _).seq fun shift => ?_
  refine (readString16_raises _).seq fun text => ?_
  exact ensureFinished_raises.seq fun _ => RaisesOnly.pure _

theorem ServerTransportReset2.decodePayload_raises {payload : Bytes} {e : PyError}
    (h : decodePayload payload = .error e) : IsDecodeError e := by
  refine RaisesOnly.parsed ?_ h
  refine (readUint_raises 1 _).seq fun subcommand => ?_
  refine ensureFinished_raises.seq fun _ => ?_
  exact (raiseIf_raises ⟨_, rfl⟩).seq fun _ => RaisesOnly.pure _

theorem ServerPreloginStatus.decodePayload_raises {payload : Bytes} {e : PyError}
    (h : decodePayload payload = .error e) : IsDecodeError e := by
  refine RaisesOnly.parsed ?_ h
  refine (readUint_raises 1 _).seq fun value => ?_
  exact ensureFinished_raises.seq fun _ => RaisesOnly.pure _

theorem ServerSessionResponse.decodePayload_raises {payload : Bytes} {e : PyError}
    (h : decodePayload payload = .error e) : IsDecodeError e := by
  refine RaisesOnly.parsed ?_ h
  refine (readString16_raises _).seq fun listForMode1 => ?_
  refine (readString16_raises _).seq fun rawForMode1 => ?_
  refine (readString16_raises _).seq fun listForMode0 => ?_
  refine (readString16_raises _).seq fun rawForMode0 => ?_
  exact ensureFinished_raises.seq fun _ => RaisesOnly.pure _

theorem BootstrapVersions.decodePayload_raises {payload : Bytes} {e : PyError}
    (h : decodePayload payload = .error e) : IsDecodeError e := by
  refine RaisesOnly.parsed ?_ h
  refine (readUint_raises 1 _).seq fun e1Version => ?_
  refine (readUint_raises 1 _).seq fun e0Version => ?_
  refine (readUint_raises 1 _).seq fun daVersion => ?_
  exact ensureFinished_raises.seq fun _ => RaisesOnly.pure _

theorem ScreenBootstrapResponse.decodePayload_raises {payload : Bytes} {e : PyError}
    (h : decodePayload payload = .error e) : IsDecodeError e := by
  refine RaisesOnly.parsed ?_ h
  refine (readUint_raises 1 _).seq fun selector => ?_
  refine (raiseIf_raises ⟨_, rfl⟩).seq fun _ => ?_
  refine (readUint_raises 1 _).seq fun rawRevision => ?_
  refine (readString16_raises _).seq fun text => ?_
  exact ensureFinished_raises.seq fun _ => RaisesOnly.pure _

theorem ScreenResourceManifestResponse.decodePayload_raises {payload : Bytes} {e : PyError}
    (h : decodePayload payload = .error e) : IsDecodeError e := by
  refine RaisesOnly.parsed ?_ h
  refine (readUint_raises 1 _).seq fun selector => ?_
  refine (raiseIf_raises ⟨_, rfl⟩).seq fun _ => ?_
  refine (readUint_raises 1 _).seq fun resourceVersion => ?_
  refine (readUint_raises 2 _).seq fun itemCount => ?_
  exact ensureFinished_raises.seq fun _ => RaisesOnly.pure _

/-- A length that was read as an unsigned number, and the bytes it announces. -/
theorem readSized_raises {α : Type} (lengthName fieldName : String) {f : Bytes → ByteReader α}
    (hf : ∀ bytes, RaisesOnly IsDecodeError (f bytes)) :
    RaisesOnly IsDecodeError (do
      let size ← readU32 lengthName
      let bytes ← readExact size fieldName
      f bytes) := by
  apply (readUint_raises 4 _).bind
  intro data size rest hsize
  obtain ⟨wire, ⟨digits, rfl, -, -⟩, -⟩ := readUint_run_eq_ok.mp hsize
  exact (readExact_raises (by omega) _).seq hf

theorem ScreenResourceItemResponse.decodePayload_raises {payload : Bytes} {e : PyError}
    (h : decodePayload payload = .error e) : IsDecodeError e := by
  refine RaisesOnly.parsed ?_ h
  refine (readUint_raises 1 _).seq fun selector => ?_
  refine (raiseIf_raises ⟨_, rfl⟩).seq fun _ => ?_
  refine (readString16_raises _).seq fun key => ?_
  apply readSized_raises
  intro data
  exact ensureFinished_raises.seq fun _ => RaisesOnly.pure _

theorem BootstrapDaResponse.decodePayload_raises {payload : Bytes} {e : PyError}
    (h : decodePayload payload = .error e) : IsDecodeError e := by
  refine RaisesOnly.parsed ?_ h
  refine (readUint_raises 1 _).seq fun version => ?_
  apply readSized_raises
  intro blob
  exact ensureFinished_raises.seq fun _ => RaisesOnly.pure _

theorem BootstrapE1Response.decodePayload_raises {payload : Bytes} {e : PyError}
    (h : decodePayload payload = .error e) : IsDecodeError e := by
  refine RaisesOnly.parsed ?_ h
  refine (readUint_raises 1 _).seq fun version => ?_
  apply readSized_raises
  intro blob1
  apply readSized_raises
  intro blob2
  apply readSized_raises
  intro blob3
  exact ensureFinished_raises.seq fun _ => RaisesOnly.pure _

theorem BootstrapE0EmptyResponse.decodePayload_raises {payload : Bytes} {e : PyError}
    (h : decodePayload payload = .error e) : IsDecodeError e := by
  refine RaisesOnly.parsed ?_ h
  refine (readUint_raises 1 _).seq fun version => ?_
  refine (readUint_raises 1 _).seq fun firstCount => ?_
  refine (readUint_raises 2 _).seq fun secondCount => ?_
  refine ensureFinished_raises.seq fun _ => ?_
  exact (raiseIf_raises ⟨_, rfl⟩).seq fun _ => RaisesOnly.pure _

/-- A command that `Command` knows, in a packet without payload, that is no empty request. -/
def KnownButNotEmptyRequest (packet : Packet) : Prop :=
  packet.payload = [] ∧ ∃ command, Command.ofValue? packet.command = some command ∧
    command ∉ Command.emptyRequests

/-- The constructor's own check is the only other exception of `from_packet`. -/
theorem EmptyClientRequest.fromPacket_raises_iff {packet : Packet} :
    (∀ e, fromPacket packet = .error e → IsDecodeError e) ↔ ¬ KnownButNotEmptyRequest packet := by
  unfold fromPacket KnownButNotEmptyRequest
  cases hcommand : Command.ofValue? packet.command with
  | none =>
    simp only [reduceCtorEq, false_and, exists_false, and_false, not_false_eq_true, iff_true]
    intro e he
    cases he
    exact ⟨_, rfl⟩
  | some command =>
    by_cases hpayload : packet.payload = []
    · by_cases hknown : command ∈ Command.emptyRequests
      · simp only [hpayload, hknown, Option.some.injEq, exists_eq_left', not_true_eq_false,
          and_false, not_false_eq_true, iff_true]
        intro e he
        rw [raiseIf, if_neg (by simp)] at he
        simp [bind, Except.bind, pure, Except.pure, create, dif_pos hknown] at he
      · simp only [hpayload, hknown, Option.some.injEq, exists_eq_left', not_false_eq_true,
          and_true, not_true_eq_false, iff_false]
        intro hall
        have hraised := hall (.encodeError
          s!"0x{hex02 command.value} is not a known empty request") (by
            rw [raiseIf, if_neg (by simp)]
            simp [bind, Except.bind, pure, Except.pure, create, dif_neg hknown])
        obtain ⟨text, htext⟩ := hraised
        cases htext
    · simp only [hpayload, false_and, not_false_eq_true, iff_true]
      intro e he
      rw [raiseIf, if_pos hpayload] at he
      cases he
      exact ⟨_, rfl⟩

/-- The decoders: `decode_payload` of each class, and `EmptyClientRequest.from_packet`. -/
inductive Decoder where
  | emptyClientRequest | handshakeResponse | clientSessionRequest | clientTransportSync0
  | serverTransportReset2 | clientPostResetStatus | clientPrelogin72 | serverPreloginStatus
  | clientU32B2 | clientC6Selection | serverSessionResponse | bootstrapVersions
  | clientAreaRequest | serverAreaList | screenBootstrapResponse | screenResourceManifestResponse
  | screenResourceItemResponse | bootstrapDaResponse | bootstrapE1Response
  | bootstrapE0EmptyResponse
  deriving DecidableEq, Repr

/-- What a call raises, if it does not return. -/
def raised {α : Type} : Except PyError α → Option PyError
  | .ok _ => none
  | .error e => some e

theorem raised_eq_some {α : Type} {result : Except PyError α} {e : PyError} :
    raised result = some e ↔ result = .error e := by
  cases result <;> simp [raised]

/-- What a decoder raises on a packet. -/
def Decoder.raises (packet : Packet) : Decoder → Option PyError
  | emptyClientRequest => raised (EmptyClientRequest.fromPacket packet)
  | handshakeResponse => raised (HandshakeResponse.decodePayload packet.payload)
  | clientSessionRequest => raised (ClientSessionRequest.decodePayload packet.payload)
  | clientTransportSync0 => raised (ClientTransportSync0.decodePayload packet.payload)
  | serverTransportReset2 => raised (ServerTransportReset2.decodePayload packet.payload)
  | clientPostResetStatus => raised (ClientPostResetStatus.decodePayload packet.payload)
  | clientPrelogin72 => raised (ClientPrelogin72.decodePayload packet.payload)
  | serverPreloginStatus => raised (ServerPreloginStatus.decodePayload packet.payload)
  | clientU32B2 => raised (ClientU32B2.decodePayload packet.payload)
  | clientC6Selection => raised (ClientC6Selection.decodePayload packet.payload)
  | serverSessionResponse => raised (ServerSessionResponse.decodePayload packet.payload)
  | bootstrapVersions => raised (BootstrapVersions.decodePayload packet.payload)
  | clientAreaRequest => raised (ClientAreaRequest.decodePayload packet.payload)
  | serverAreaList => raised (ServerAreaList.decodePayload packet.payload)
  | screenBootstrapResponse => raised (ScreenBootstrapResponse.decodePayload packet.payload)
  | screenResourceManifestResponse =>
    raised (ScreenResourceManifestResponse.decodePayload packet.payload)
  | screenResourceItemResponse => raised (ScreenResourceItemResponse.decodePayload packet.payload)
  | bootstrapDaResponse => raised (BootstrapDaResponse.decodePayload packet.payload)
  | bootstrapE1Response => raised (BootstrapE1Response.decodePayload packet.payload)
  | bootstrapE0EmptyResponse => raised (BootstrapE0EmptyResponse.decodePayload packet.payload)

theorem Decoder.decodePayload_raises {decoder : Decoder} {packet : Packet} {e : PyError}
    (hother : decoder ≠ emptyClientRequest) (h : decoder.raises packet = some e) :
    IsDecodeError e := by
  cases decoder with
  | emptyClientRequest => exact absurd rfl hother
  | handshakeResponse => exact HandshakeResponse.decodePayload_raises (raised_eq_some.mp h)
  | clientSessionRequest => exact ClientSessionRequest.decodePayload_raises (raised_eq_some.mp h)
  | clientTransportSync0 => exact ClientTransportSync0.decodePayload_raises (raised_eq_some.mp h)
  | serverTransportReset2 => exact ServerTransportReset2.decodePayload_raises (raised_eq_some.mp h)
  | clientPostResetStatus => exact ClientPostResetStatus.decodePayload_raises (raised_eq_some.mp h)
  | clientPrelogin72 => exact ClientPrelogin72.decodePayload_raises (raised_eq_some.mp h)
  | serverPreloginStatus => exact ServerPreloginStatus.decodePayload_raises (raised_eq_some.mp h)
  | clientU32B2 => exact ClientU32B2.decodePayload_raises (raised_eq_some.mp h)
  | clientC6Selection => exact ClientC6Selection.decodePayload_raises (raised_eq_some.mp h)
  | serverSessionResponse => exact ServerSessionResponse.decodePayload_raises (raised_eq_some.mp h)
  | bootstrapVersions => exact BootstrapVersions.decodePayload_raises (raised_eq_some.mp h)
  | clientAreaRequest => exact ClientAreaRequest.decodePayload_raises (raised_eq_some.mp h)
  | serverAreaList => exact ServerAreaList.decodePayload_raises (raised_eq_some.mp h)
  | screenBootstrapResponse =>
    exact ScreenBootstrapResponse.decodePayload_raises (raised_eq_some.mp h)
  | screenResourceManifestResponse =>
    exact ScreenResourceManifestResponse.decodePayload_raises (raised_eq_some.mp h)
  | screenResourceItemResponse =>
    exact ScreenResourceItemResponse.decodePayload_raises (raised_eq_some.mp h)
  | bootstrapDaResponse => exact BootstrapDaResponse.decodePayload_raises (raised_eq_some.mp h)
  | bootstrapE1Response => exact BootstrapE1Response.decodePayload_raises (raised_eq_some.mp h)
  | bootstrapE0EmptyResponse =>
    exact BootstrapE0EmptyResponse.decodePayload_raises (raised_eq_some.mp h)

/-- A decoder raises `DecodeError` only, unless it is `from_packet` and the packet is an empty one
of a known command that is no empty request: there the constructor's `EncodeError` escapes. -/
theorem Decoder.raises_only_decodeError_iff (decoder : Decoder) (packet : Packet) :
    (∀ e, decoder.raises packet = some e → IsDecodeError e) ↔
      ¬ (decoder = emptyClientRequest ∧ KnownButNotEmptyRequest packet) := by
  by_cases hempty : decoder = emptyClientRequest
  · simp only [hempty, raises, raised_eq_some, true_and]
    exact EmptyClientRequest.fromPacket_raises_iff
  · simp only [hempty, false_and, not_false_eq_true, iff_true]
    exact fun e he => decodePayload_raises hempty he

/-- A heartbeat is a known command without payload, and no empty request. -/
theorem Decoder.raises_encodeError_on_heartbeat :
    ¬ ∀ e, emptyClientRequest.raises ⟨0x9A, []⟩ = some e → IsDecodeError e := by
  intro hall
  obtain ⟨text, htext⟩ :=
    hall (.encodeError "0x9A is not a known empty request") (by decide +kernel)
  cases htext

end Army3
