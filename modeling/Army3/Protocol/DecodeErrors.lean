import Army3.Protocol.Messages

namespace Army3
open Codec

def IsDecodeError (e : PyError) : Prop := ∃ text, e = .decodeError text

theorem raiseIf_raises {condition : Prop} [Decidable condition] {error : PyError}
    (h : IsDecodeError error) :
    RaisesOnly IsDecodeError (raiseIf condition error : ByteReader Unit) := raiseIf_raisesOnly h

/-- A negative size would be a `ValueError`; the sizes come from unsigned reads. -/
theorem readExact_raises {size : Int} (hsize : 0 ≤ size) (fieldName : String) :
    RaisesOnly IsDecodeError (readExact size fieldName) := by
  intro data e he
  unfold readExact at he
  rw [run_bind_of_ok (raiseIf_run_eq_ok.mpr ⟨by omega, rfl⟩)] at he
  revert he
  revert e data
  change RaisesOnly IsDecodeError (do
    let data ← get
    raiseIf (data.length < size) (.decodeError _)
    set (data.drop size.toNat)
    return data.take size.toNat)
  apply RaisesOnly.bind
  · intro data e he
    cases he
  intro _ data _ _
  apply (raiseIf_raises ⟨_, rfl⟩).bind
  intro _ _ _ _ data e he
  cases he

theorem readUint_raises (width : Nat) (fieldName : String) :
    RaisesOnly IsDecodeError (readUint width fieldName) := by
  apply (readExact_raises (by omega) fieldName).bind
  intro _ bytes _ _
  exact RaisesOnly.pure _

theorem readString16_raises (fieldName : String) :
    RaisesOnly IsDecodeError (readString16 fieldName) := by
  apply (readUint_raises 2 _).bind
  intro _ size _ hsize
  obtain ⟨_, ⟨digits, rfl, -, -⟩, -⟩ := readUint_run_eq_ok.mp hsize
  apply (raiseIf_raises ⟨_, rfl⟩).bind
  intro _ _ _ _
  apply (readExact_raises (by omega) fieldName).bind
  intro _ raw _ _
  cases PyStr.decodeUtf8 raw with
  | none =>
    intro data e he
    cases he
    exact ⟨_, rfl⟩
  | some value => exact RaisesOnly.pure value

theorem ensureFinished_raises : RaisesOnly IsDecodeError ensureFinished := by
  intro data e he
  cases data with
  | nil => cases he
  | cons byte data =>
    cases he
    exact ⟨_, rfl⟩

theorem ClientSessionRequest.decodePayload_raises {payload : Bytes} {e : PyError}
    (h : decodePayload payload = .error e) : IsDecodeError e := by
  refine RaisesOnly.parsed ?_ h
  refine (readString16_raises _).seq fun first => ?_
  refine (readString16_raises _).seq fun second => ?_
  refine (readUint_raises 1 _).seq fun mode => ?_
  exact ensureFinished_raises.seq fun _ => RaisesOnly.pure _

theorem ClientTransportSync0.decodePayload_raises {payload : Bytes} {e : PyError}
    (h : decodePayload payload = .error e) : IsDecodeError e := by
  refine RaisesOnly.parsed ?_ h
  refine (readUint_raises 1 _).seq fun subcommand => ?_
  refine (raiseIf_raises ⟨_, rfl⟩).seq fun _ => ?_
  refine (readString16_raises _).seq fun storedText => ?_
  refine (readUint_raises 4 _).seq fun counter94 => ?_
  refine (readUint_raises 4 _).seq fun counter90 => ?_
  exact ensureFinished_raises.seq fun _ => RaisesOnly.pure _

theorem ClientPostResetStatus.decodePayload_raises {payload : Bytes} {e : PyError}
    (h : decodePayload payload = .error e) : IsDecodeError e := by
  refine RaisesOnly.parsed ?_ h
  refine (readUint_raises 1 _).seq fun value => ?_
  exact ensureFinished_raises.seq fun _ => RaisesOnly.pure _

theorem ClientPrelogin72.decodePayload_raises {payload : Bytes} {e : PyError}
    (h : decodePayload payload = .error e) : IsDecodeError e := by
  refine RaisesOnly.parsed ?_ h
  refine (readUint_raises 1 _).seq fun value1 => ?_
  refine (readUint_raises 1 _).seq fun value2 => ?_
  refine (readString16_raises _).seq fun text => ?_
  exact ensureFinished_raises.seq fun _ => RaisesOnly.pure _

theorem ClientU32B2.decodePayload_raises {payload : Bytes} {e : PyError}
    (h : decodePayload payload = .error e) : IsDecodeError e := by
  refine RaisesOnly.parsed ?_ h
  refine (readUint_raises 4 _).seq fun value => ?_
  exact ensureFinished_raises.seq fun _ => RaisesOnly.pure _

theorem ClientC6Selection.decodePayload_raises {payload : Bytes} {e : PyError}
    (h : decodePayload payload = .error e) : IsDecodeError e := by
  refine RaisesOnly.parsed ?_ h
  refine (readString16_raises _).seq fun text => ?_
  refine (readUint_raises 1 _).seq fun marker => ?_
  refine ensureFinished_raises.seq fun _ => ?_
  exact (raiseIf_raises ⟨_, rfl⟩).seq fun _ => RaisesOnly.pure _

theorem ClientAreaRequest.decodePayload_raises {payload : Bytes} {e : PyError}
    (h : decodePayload payload = .error e) : IsDecodeError e := by
  refine RaisesOnly.parsed ?_ h
  refine (readUint_raises 1 _).seq fun mode => ?_
  refine ensureFinished_raises.seq fun _ => ?_
  exact (raiseIf_raises ⟨_, rfl⟩).seq fun _ => RaisesOnly.pure _

/-- A known empty request can only fail by its payload. -/
theorem EmptyClientRequest.fromPacket_raises {packet : Packet} {command : Command} {e : PyError}
    (hcommand : packet.command = command.value) (hknown : command ∈ Command.emptyRequests)
    (h : fromPacket packet = .error e) : IsDecodeError e := by
  simp only [fromPacket, hcommand, Command.ofValue?_value] at h
  by_cases hempty : packet.payload = []
  · simp only [hempty, ne_eq, not_true_eq_false, create, dif_pos hknown] at h
    cases h
  · simp only [ne_eq, hempty, not_false_eq_true] at h
    cases h
    exact ⟨_, rfl⟩

end Army3
