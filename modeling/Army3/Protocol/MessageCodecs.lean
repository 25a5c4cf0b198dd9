import Army3.Protocol.Messages

namespace Army3
open Codec

theorem HandshakeResponse.payload_exact : Exact encodePayload decodePayload := by
  apply Inverse.exact
  apply Inverse.writeCheck
  apply Inverse.field (fun m : HandshakeResponse => (m.seed.length : Int)) (uint_inverse 1 _ _)
  intro seedLength
  apply Inverse.readCheck
  · intro m hall
    obtain ⟨⟨-, hlength⟩, rfl⟩ := hall
    omega
  intro hlength
  apply Inverse.bind HandshakeResponse.seed (exactBytes_inverse seedLength _) (fun _ h => h.2)
  intro seed hseed
  have hshort : ¬ ¬ (1 ≤ seed.length ∧ seed.length ≤ 0x7F) := by
    have hread : (seed.length : Int) = seedLength := hseed
    omega
  apply Inverse.field HandshakeResponse.shift (uint_inverse 1 _ _)
  intro shift
  apply Inverse.lastField HandshakeResponse.text (string16_inverse _ _)
  intro text
  apply Inverse.finish
  apply Inverse.done
  intro m
  obtain ⟨seed', shift', text'⟩ := m
  constructor
  · intro hall
    obtain ⟨⟨⟨-, rfl⟩, rfl⟩, rfl⟩ := hall
    rfl
  · intro h
    cases h
    exact ⟨⟨⟨⟨⟨trivial, hshort⟩, hseed⟩, rfl⟩, rfl⟩, rfl⟩

theorem ClientSessionRequest.payload_exact : Exact encodePayload decodePayload := by
  apply Inverse.exact
  apply Inverse.field ClientSessionRequest.fieldFromControl38 (string16_inverse _ _)
  intro first
  apply Inverse.field ClientSessionRequest.fieldFromControl30 (string16_inverse _ _)
  intro second
  apply Inverse.lastField ClientSessionRequest.mode (uint_inverse 1 _ _)
  intro mode
  apply Inverse.finish
  apply Inverse.done
  intro m
  cases m
  simp only [true_and, ClientSessionRequest.mk.injEq, and_assoc]

theorem ClientTransportSync0.payload_exact : Exact encodePayload decodePayload := by
  apply Inverse.exact
  apply Inverse.field (fun _ => 0) (uint_inverse 1 _ _)
  intro subcommand
  apply Inverse.readCheck
  · intro m h
    obtain ⟨-, rfl⟩ := h
    exact not_not_intro rfl
  intro hsubcommand
  apply Inverse.field ClientTransportSync0.storedText (string16_inverse _ _)
  intro storedText
  apply Inverse.field ClientTransportSync0.counter94 (uint_inverse 4 _ _)
  intro counter94
  apply Inverse.lastField ClientTransportSync0.counter90 (uint_inverse 4 _ _)
  intro counter90
  apply Inverse.finish
  apply Inverse.done
  intro m
  cases m
  have hzero : 0 = subcommand := by omega
  simp only [hzero, true_and, ClientTransportSync0.mk.injEq, and_assoc]

/-- The constant payload is what a writer of the subcommand writes. -/
theorem ServerTransportReset2.payload_exact : Exact encodePayload decodePayload := by
  have hconstant : encodePayload = fun _ => written (writeU8 2 "subcommand") := rfl
  rw [hconstant]
  apply Inverse.exact
  apply Inverse.lastField (fun _ => 2) (uint_inverse 1 "subcommand" _)
  intro subcommand
  apply Inverse.finish
  apply Inverse.readCheck
  · intro m h
    obtain ⟨-, rfl⟩ := h
    exact not_not_intro rfl
  intro hsubcommand
  apply Inverse.done
  intro m
  cases m
  have htwo : 2 = subcommand := by omega
  simp only [htwo, and_self]

theorem ClientPostResetStatus.payload_exact : Exact encodePayload decodePayload := by
  apply Inverse.exact
  apply Inverse.lastField ClientPostResetStatus.value (uint_inverse 1 _ _)
  intro value
  apply Inverse.finish
  apply Inverse.done
  intro m
  cases m
  simp only [true_and, ClientPostResetStatus.mk.injEq]

theorem ClientPrelogin72.payload_exact : Exact encodePayload decodePayload := by
  apply Inverse.exact
  apply Inverse.field ClientPrelogin72.value1 (uint_inverse 1 _ _)
  intro value1
  apply Inverse.field ClientPrelogin72.value2 (uint_inverse 1 _ _)
  intro value2
  apply Inverse.lastField ClientPrelogin72.text (string16_inverse _ _)
  intro text
  apply Inverse.finish
  apply Inverse.done
  intro m
  cases m
  simp only [true_and, ClientPrelogin72.mk.injEq, and_assoc]

theorem ServerPreloginStatus.payload_exact : Exact encodePayload decodePayload := by
  apply Inverse.exact
  apply Inverse.lastField ServerPreloginStatus.value (uint_inverse 1 _ _)
  intro value
  apply Inverse.finish
  apply Inverse.done
  intro m
  cases m
  simp only [true_and, ServerPreloginStatus.mk.injEq]

theorem ClientU32B2.payload_exact : Exact encodePayload decodePayload := by
  apply Inverse.exact
  apply Inverse.lastField ClientU32B2.value (uint_inverse 4 _ _)
  intro value
  apply Inverse.finish
  apply Inverse.done
  intro m
  cases m
  simp only [true_and, ClientU32B2.mk.injEq]

theorem ClientC6Selection.payload_exact : Exact encodePayload decodePayload := by
  apply Inverse.exact
  apply Inverse.field ClientC6Selection.text (string16_inverse _ _)
  intro text
  apply Inverse.lastField (fun _ => 1) (uint_inverse 1 _ _)
  intro marker
  apply Inverse.finish
  apply Inverse.readCheck
  · intro m h
    obtain ⟨-, rfl⟩ := h
    exact not_not_intro rfl
  intro hmarker
  apply Inverse.done
  intro m
  cases m
  have hone : 1 = marker := by omega
  simp only [hone, true_and, and_true, ClientC6Selection.mk.injEq]

theorem ServerSessionResponse.payload_exact : Exact encodePayload decodePayload := by
  apply Inverse.exact
  apply Inverse.field ServerSessionResponse.listForMode1 (string16_inverse _ _)
  intro listForMode1
  apply Inverse.field ServerSessionResponse.rawForMode1 (string16_inverse _ _)
  intro rawForMode1
  apply Inverse.field ServerSessionResponse.listForMode0 (string16_inverse _ _)
  intro listForMode0
  apply Inverse.lastField ServerSessionResponse.rawForMode0 (string16_inverse _ _)
  intro rawForMode0
  apply Inverse.finish
  apply Inverse.done
  intro m
  cases m
  simp only [true_and, ServerSessionResponse.mk.injEq, and_assoc]

theorem BootstrapVersions.payload_exact : Exact encodePayload decodePayload := by
  apply Inverse.exact
  apply Inverse.field BootstrapVersions.e1Version (uint_inverse 1 _ _)
  intro e1Version
  apply Inverse.field BootstrapVersions.e0Version (uint_inverse 1 _ _)
  intro e0Version
  apply Inverse.lastField BootstrapVersions.daVersion (uint_inverse 1 _ _)
  intro daVersion
  apply Inverse.finish
  apply Inverse.done
  intro m
  cases m
  simp only [true_and, BootstrapVersions.mk.injEq, and_assoc]

theorem ClientAreaRequest.payload_exact : Exact encodePayload decodePayload := by
  apply Inverse.exact
  apply Inverse.writeCheck
  apply Inverse.lastField ClientAreaRequest.mode (uint_inverse 1 _ _)
  intro mode
  apply Inverse.finish
  apply Inverse.readCheck
  · intro m hall
    obtain ⟨⟨-, hzero⟩, rfl⟩ := hall
    exact hzero
  intro hmode
  apply Inverse.done
  intro m
  obtain ⟨mode'⟩ := m
  constructor
  · intro hall
    obtain ⟨-, rfl⟩ := hall
    rfl
  · intro h
    cases h
    exact ⟨⟨trivial, hmode⟩, rfl⟩

theorem ScreenBootstrapResponse.payload_exact : Exact encodePayload decodePayload := by
  have hdecode : decodePayload = parsed (do
      let selector ← readU8 "selector"
      raiseIf (selector ≠ 0) (.decodeError s!"expected 0xC4 selector 0, got {selector}")
      let revision ← (do
        let raw ← readU8 "revision"
        return if raw < 0x80 then raw else raw - 0x100)
      let text ← readString16 "text"
      ensureFinished
      return ⟨revision, text⟩) := by
    simp only [decodePayload, bind_assoc, pure_bind]
  rw [hdecode]
  apply Inverse.exact
  apply Inverse.writeCheck
  apply Inverse.field (fun _ => 0) (uint_inverse 1 _ _)
  intro selector
  apply Inverse.readCheck
  · intro m hall
    obtain ⟨-, rfl⟩ := hall
    exact not_not_intro rfl
  intro hselector
  apply Inverse.bind ScreenBootstrapResponse.revision (signedByte_inverse _ _)
    (fun _ h => not_not.mp h.1.2)
  intro revision hrevision
  apply Inverse.lastField ScreenBootstrapResponse.text (string16_inverse _ _)
  intro text
  apply Inverse.finish
  apply Inverse.done
  intro m
  obtain ⟨revision', text'⟩ := m
  have hzero : 0 = selector := by omega
  constructor
  · intro hall
    obtain ⟨⟨-, rfl⟩, rfl⟩ := hall
    rfl
  · intro h
    cases h
    exact ⟨⟨⟨⟨trivial, not_not_intro hrevision⟩, hzero⟩, rfl⟩, rfl⟩

theorem ScreenResourceManifestResponse.payload_exact : Exact encodePayload decodePayload := by
  apply Inverse.exact
  apply Inverse.field (fun _ => 1) (uint_inverse 1 _ _)
  intro selector
  apply Inverse.readCheck
  · intro m h
    obtain ⟨-, rfl⟩ := h
    exact not_not_intro rfl
  intro hselector
  apply Inverse.field ScreenResourceManifestResponse.resourceVersion (uint_inverse 1 _ _)
  intro resourceVersion
  apply Inverse.lastField ScreenResourceManifestResponse.itemCount (uint_inverse 2 _ _)
  intro itemCount
  apply Inverse.finish
  apply Inverse.done
  intro m
  cases m
  have hone : 1 = selector := by omega
  simp only [hone, true_and, ScreenResourceManifestResponse.mk.injEq]

theorem ScreenResourceItemResponse.payload_exact : Exact encodePayload decodePayload := by
  apply Inverse.exact
  apply Inverse.field (fun _ => 2) (uint_inverse 1 _ _)
  intro selector
  apply Inverse.readCheck
  · intro m hall
    obtain ⟨-, rfl⟩ := hall
    exact not_not_intro rfl
  intro hselector
  apply Inverse.field ScreenResourceItemResponse.key (string16_inverse _ _)
  intro key
  apply Inverse.field (fun m : ScreenResourceItemResponse => (m.data.length : Int))
    (uint_inverse 4 _ _)
  intro dataLength
  apply Inverse.last ScreenResourceItemResponse.data (exactBytes_inverse dataLength _)
    (fun _ h => h.2)
  intro data hdata
  apply Inverse.finish
  apply Inverse.done
  intro m
  obtain ⟨key', data'⟩ := m
  have htwo : 2 = selector := by omega
  constructor
  · intro hall
    obtain ⟨⟨⟨-, rfl⟩, -⟩, rfl⟩ := hall
    rfl
  · intro h
    cases h
    exact ⟨⟨⟨⟨trivial, htwo⟩, rfl⟩, hdata⟩, rfl⟩

theorem BootstrapDaResponse.payload_exact : Exact encodePayload decodePayload := by
  apply Inverse.exact
  apply Inverse.field BootstrapDaResponse.version (uint_inverse 1 _ _)
  intro version
  apply Inverse.field (fun m : BootstrapDaResponse => (m.blob.length : Int)) (uint_inverse 4 _ _)
  intro blobLength
  apply Inverse.last BootstrapDaResponse.blob (exactBytes_inverse blobLength _) (fun _ h => h.2)
  intro blob hblob
  apply Inverse.finish
  apply Inverse.done
  intro m
  obtain ⟨version', blob'⟩ := m
  constructor
  · intro hall
    obtain ⟨⟨⟨-, rfl⟩, -⟩, rfl⟩ := hall
    rfl
  · intro h
    cases h
    exact ⟨⟨⟨trivial, rfl⟩, hblob⟩, rfl⟩

theorem BootstrapE1Response.payload_exact : Exact encodePayload decodePayload := by
  apply Inverse.exact
  apply Inverse.field BootstrapE1Response.version (uint_inverse 1 _ _)
  intro version
  apply Inverse.field (fun m : BootstrapE1Response => (m.blob1.length : Int)) (uint_inverse 4 _ _)
  intro size1
  apply Inverse.bind BootstrapE1Response.blob1 (exactBytes_inverse size1 _) (fun _ h => h.2)
  intro blob1 hblob1
  apply Inverse.field (fun m : BootstrapE1Response => (m.blob2.length : Int)) (uint_inverse 4 _ _)
  intro size2
  apply Inverse.bind BootstrapE1Response.blob2 (exactBytes_inverse size2 _) (fun _ h => h.2)
  intro blob2 hblob2
  apply Inverse.field (fun m : BootstrapE1Response => (m.blob3.length : Int)) (uint_inverse 4 _ _)
  intro size3
  apply Inverse.last BootstrapE1Response.blob3 (exactBytes_inverse size3 _) (fun _ h => h.2)
  intro blob3 hblob3
  apply Inverse.finish
  apply Inverse.done
  intro m
  obtain ⟨version', blob1', blob2', blob3'⟩ := m
  constructor
  · intro hall
    obtain ⟨⟨⟨⟨⟨⟨⟨-, rfl⟩, -⟩, rfl⟩, -⟩, rfl⟩, -⟩, rfl⟩ := hall
    rfl
  · intro h
    cases h
    exact ⟨⟨⟨⟨⟨⟨⟨trivial, rfl⟩, hblob1⟩, rfl⟩, hblob2⟩, rfl⟩, hblob3⟩, rfl⟩

theorem BootstrapE0EmptyResponse.payload_exact : Exact encodePayload decodePayload := by
  apply Inverse.exact
  apply Inverse.field BootstrapE0EmptyResponse.version (uint_inverse 1 _ _)
  intro version
  apply Inverse.field (fun _ => 0) (uint_inverse 1 _ _)
  intro firstCount
  apply Inverse.lastField (fun _ => 0) (uint_inverse 2 _ _)
  intro secondCount
  apply Inverse.finish
  apply Inverse.readCheck
  · intro m h
    obtain ⟨⟨-, rfl⟩, rfl⟩ := h
    omega
  intro hcounts
  apply Inverse.done
  intro m
  cases m
  have hfirst : 0 = firstCount := by omega
  have hsecond : 0 = secondCount := by omega
  simp only [← hfirst, ← hsecond, true_and, and_true, BootstrapE0EmptyResponse.mk.injEq]

/-- Every fixed schema: both directions, no trailing byte, no strict prefix. -/
theorem fixed_schemas_exact :
    Exact HandshakeResponse.encodePayload HandshakeResponse.decodePayload ∧
    Exact ClientSessionRequest.encodePayload ClientSessionRequest.decodePayload ∧
    Exact ClientTransportSync0.encodePayload ClientTransportSync0.decodePayload ∧
    Exact ServerTransportReset2.encodePayload ServerTransportReset2.decodePayload ∧
    Exact ClientPostResetStatus.encodePayload ClientPostResetStatus.decodePayload ∧
    Exact ClientPrelogin72.encodePayload ClientPrelogin72.decodePayload ∧
    Exact ServerPreloginStatus.encodePayload ServerPreloginStatus.decodePayload ∧
    Exact ClientU32B2.encodePayload ClientU32B2.decodePayload ∧
    Exact ClientC6Selection.encodePayload ClientC6Selection.decodePayload ∧
    Exact ServerSessionResponse.encodePayload ServerSessionResponse.decodePayload ∧
    Exact BootstrapVersions.encodePayload BootstrapVersions.decodePayload ∧
    Exact ClientAreaRequest.encodePayload ClientAreaRequest.decodePayload ∧
    Exact ScreenBootstrapResponse.encodePayload ScreenBootstrapResponse.decodePayload ∧
    Exact ScreenResourceManifestResponse.encodePayload
      ScreenResourceManifestResponse.decodePayload ∧
    Exact ScreenResourceItemResponse.encodePayload ScreenResourceItemResponse.decodePayload ∧
    Exact BootstrapDaResponse.encodePayload BootstrapDaResponse.decodePayload ∧
    Exact BootstrapE1Response.encodePayload BootstrapE1Response.decodePayload ∧
    Exact BootstrapE0EmptyResponse.encodePayload BootstrapE0EmptyResponse.decodePayload :=
  ⟨HandshakeResponse.payload_exact, ClientSessionRequest.payload_exact,
    ClientTransportSync0.payload_exact, ServerTransportReset2.payload_exact,
    ClientPostResetStatus.payload_exact, ClientPrelogin72.payload_exact,
    ServerPreloginStatus.payload_exact, ClientU32B2.payload_exact,
    ClientC6Selection.payload_exact, ServerSessionResponse.payload_exact,
    BootstrapVersions.payload_exact, ClientAreaRequest.payload_exact,
    ScreenBootstrapResponse.payload_exact, ScreenResourceManifestResponse.payload_exact,
    ScreenResourceItemResponse.payload_exact, BootstrapDaResponse.payload_exact,
    BootstrapE1Response.payload_exact, BootstrapE0EmptyResponse.payload_exact⟩

end Army3
