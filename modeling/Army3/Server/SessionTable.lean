import Army3.Protocol.DecodeErrors
import Army3.Protocol.MessageCodecs
import Army3.Server.Session

namespace Army3

/-- The key the handshake constants derive. -/
def HandshakeKey.transform (key : HandshakeKey) : ByteTransform :=
  ⟨ByteTransform.prefixXor key.seed, key.shift, by simpa using key.seed_pos,
    by simpa using key.seed_le⟩

/-- The responses of the session. -/
def localText : Bytes := [0, 5, 0x6C, 0x6F, 0x63, 0x61, 0x6C]
def handshakePacket (key : HandshakeKey) : Packet :=
  ⟨0xE5, UInt8.ofNat key.seed.length :: key.seed ++ key.shift :: localText⟩
def resetPacket : Packet := ⟨0xA9, [2]⟩
def preloginPacket : Packet := ⟨0xFD, [1]⟩
def sessionPacket : Packet := ⟨0xBB, localText ++ localText ++ localText ++ localText⟩
def versionsPacket : Packet := ⟨0xE2, [2, 2, 2]⟩
def screenPacket (revision : Int) : Packet := ⟨0xC4, [0, UInt8.ofNat (revision % 0x100).toNat, 0, 0]⟩
def daPacket : Packet := ⟨0xDA, [2, 0, 0, 0, 1, 0]⟩
def e1Packet : Packet := ⟨0xE1, [2, 0, 0, 0, 2, 0, 0, 0, 0, 0, 2, 0, 0, 0, 0, 0, 1, 0]⟩
def e0Packet : Packet := ⟨0xE0, [2, 0, 0, 0]⟩
def areaPacket : Packet := ⟨0xE4, [0, 0, 0, 0, 0, 8, 0, 0, 0, 0, 0, 15, 0x4B, 0x68, 0x75, 0x20,
  0x76, 0xE1, 0xBB, 0xB1, 0x63, 0x20, 0x4C, 0x6F, 0x63, 0x61, 0x6C]⟩

namespace LoginSession

/-- The packets of `_initial_bootstrap_responses`. -/
def greeting (s : LoginSession) : List Packet :=
  match s.experimentalSplashRevision, s.splashTransitionSent with
  | some revision, false => [sessionPacket, versionsPacket, screenPacket revision]
  | _, _ => [sessionPacket, versionsPacket]

/-- The packets of `_area_push_if_enabled`. -/
def areaPush (s : LoginSession) : List Packet :=
  if s.experimentalAreaPush ∧ ¬ s.areaPushSent then [areaPacket] else []

def greeted (s : LoginSession) : LoginSession :=
  { s with
    state := .bootstrap
    splashTransitionSent := s.splashTransitionSent || s.experimentalSplashRevision.isSome }

def ready (s : LoginSession) : LoginSession :=
  { s with
    state := .accountPanelReady
    areaPushSent := s.areaPushSent || s.experimentalAreaPush }

@[simp] theorem greeted_state (s : LoginSession) : s.greeted.state = .bootstrap := rfl
@[simp] theorem ready_state (s : LoginSession) : s.ready.state = .accountPanelReady := rfl

theorem greeting_commands (s : LoginSession) :
    s.greeting.map Packet.command =
      if s.experimentalSplashRevision.isSome ∧ ¬ s.splashTransitionSent then [0xBB, 0xE2, 0xC4]
      else [0xBB, 0xE2] := by
  unfold greeting
  cases s.experimentalSplashRevision <;> cases s.splashTransitionSent <;> rfl

theorem areaPush_commands (s : LoginSession) :
    s.areaPush.map Packet.command =
      if s.experimentalAreaPush ∧ ¬ s.areaPushSent then [0xE4] else [] := by
  unfold areaPush
  cases s.experimentalAreaPush <;> cases s.areaPushSent <;> rfl

/-- The session as a table: the outcome and the next session of an accepted request depend on
its command alone; `none` means that no payload is accepted. -/
def answer (s : LoginSession) (command : Command) : Option (SessionOutcome × LoginSession) :=
  match s.state, command with
  | .awaitClientE5, .handshake =>
    some (⟨[handshakePacket s.handshake], some s.handshake.transform⟩,
      { s with state := .awaitInitialBb })
  | .awaitClientE5, _ => none
  | _, .postResetStatus | _, .clientText72 => some ({}, s)
  | _, .preloginStatus => some ({ outbound := [preloginPacket] }, s)
  | .awaitInitialBb, .transportSync => some ({ outbound := [resetPacket] }, s)
  | .awaitInitialBb, .bootstrapReady | .bootstrap, .bootstrapReady =>
    some ({ outbound := s.areaPush }, s.ready)
  | .awaitInitialBb, .clientSession | .bootstrap, .clientSession =>
    some ({ outbound := s.greeting }, s.greeted)
  | .awaitInitialBb, _ => none
  | _, .screenBootstrap => if s.experimentalSplashRevision = none then none else some ({}, s)
  | _, .clientSelection | _, .unknown07 => some ({}, s)
  | _, .bootstrapDa => some ({ outbound := [daPacket] }, s)
  | _, .bootstrapE1 => some ({ outbound := [e1Packet] }, s)
  | _, .bootstrapE0 => some ({ outbound := [e0Packet] }, s)
  | .bootstrap, .clientU32B2 => some ({}, s)
  | .accountPanelReady, .clientSession => some ({ outbound := [sessionPacket] }, s)
  | .accountPanelReady, .area => some ({ outbound := [areaPacket] }, s)
  | .accountPanelReady, .bootstrapReady => some ({}, s)
  | _, _ => none

attribute [local simp] answer

/-- The requests that are validated and not answered. -/
def silentCommands : List Command :=
  [.unknown07, .postResetStatus, .clientText72, .clientU32B2, .screenBootstrap, .clientSelection]

/-- The requests with a constant answer, whose command the answer repeats. -/
def replies : List (Command × Packet) :=
  [(.transportSync, resetPacket), (.preloginStatus, preloginPacket), (.bootstrapDa, daPacket),
    (.bootstrapE1, e1Packet), (.bootstrapE0, e0Packet)]

theorem replies_command {command : Command} {response : Packet}
    (h : (command, response) ∈ replies) :
    response.command = command.value ∧
      command ∈ [.transportSync, .preloginStatus, .bootstrapDa, .bootstrapE1, .bootstrapE0] := by
  have hall : ∀ entry ∈ replies, entry.2.command = entry.1.value ∧
      entry.1 ∈ [Command.transportSync, .preloginStatus, .bootstrapDa, .bootstrapE1,
        .bootstrapE0] := by
    decide
  exact hall _ h

/-- The kinds of entries of the table. -/
inductive Answers (s : LoginSession) : Command → SessionOutcome → LoginSession → Prop
  | handshake (hstate : s.state = .awaitClientE5) :
      Answers s .handshake ⟨[handshakePacket s.handshake], some s.handshake.transform⟩
        { s with state := .awaitInitialBb }
  | silent {command : Command} (hstate : s.state ≠ .awaitClientE5)
      (hcommand : command ∈ silentCommands) : Answers s command {} s
  | reply {command : Command} {response : Packet} (hstate : s.state ≠ .awaitClientE5)
      (hreply : (command, response) ∈ replies) : Answers s command { outbound := [response] } s
  | greet (hstate : s.state = .awaitInitialBb ∨ s.state = .bootstrap) :
      Answers s .clientSession { outbound := s.greeting } s.greeted
  | enter (hstate : s.state = .awaitInitialBb ∨ s.state = .bootstrap) :
      Answers s .bootstrapReady { outbound := s.areaPush } s.ready
  | session (hstate : s.state = .accountPanelReady) :
      Answers s .clientSession { outbound := [sessionPacket] } s
  | area (hstate : s.state = .accountPanelReady) :
      Answers s .area { outbound := [areaPacket] } s
  | settled (hstate : s.state = .accountPanelReady) : Answers s .bootstrapReady {} s

theorem answers_of_answer {s s' : LoginSession} {command : Command} {outcome : SessionOutcome}
    (h : s.answer command = some (outcome, s')) : Answers s command outcome s' := by
  unfold answer at h
  split at h <;> (try split at h) <;> cases h
  · exact .handshake ‹_›
  all_goals
    have hstate : s.state ≠ .awaitClientE5 := by
      first
      | assumption
      | rw [‹s.state = _›]; decide
    first
    | exact .silent hstate (by decide)
    | exact .reply hstate (by decide)
    | exact .session ‹_›
    | exact .area ‹_›
    | exact .settled ‹_›
    | exact .greet (.inl ‹_›)
    | exact .greet (.inr ‹_›)
    | exact .enter (.inl ‹_›)
    | exact .enter (.inr ‹_›)

end LoginSession

theorem uintWire_byte (value : UInt8) : UintWire 1 value.toNat [value] := by
  refine ⟨value.toNat, rfl, value.toNat_lt, ?_⟩
  simp only [BigEndian.toBytes, List.nil_append, UInt8.ofNat_toNat]

theorem handshake_toPacket (key : HandshakeKey) :
    HandshakeResponse.toPacket ⟨key.seed, key.shift.toNat, LoginSession.LOCAL_TEXT⟩ =
      .ok (handshakePacket key) := by
  have hpos := key.seed_pos
  have hle := key.seed_le
  have hfits : ¬ ¬ (1 ≤ key.seed.length ∧ key.seed.length ≤ 0x7F) := by omega
  have hlength : UintWire 1 key.seed.length [UInt8.ofNat key.seed.length] :=
    ⟨key.seed.length, rfl, by omega, rfl⟩
  have hpayload : HandshakeResponse.encodePayload
      ⟨key.seed, key.shift.toNat, LoginSession.LOCAL_TEXT⟩ = .ok (handshakePacket key).payload := by
    apply Codec.written_eq_ok.mpr
    rw [Codec.run_bind_of_ok (raiseIf_run_eq_ok.mpr ⟨hfits, rfl⟩), writeU8,
      Codec.run_bind_of_ok (writeUint_run_eq_ok.mpr ⟨_, hlength, rfl⟩),
      Codec.run_bind_of_ok (show (writeBytes key.seed).run _ = .ok ((), _ ++ key.seed) from rfl),
      writeU8, Codec.run_bind_of_ok (writeUint_run_eq_ok.mpr ⟨_, uintWire_byte key.shift, rfl⟩)]
    have htext : String16Wire LoginSession.LOCAL_TEXT localText := ⟨_, rfl, by decide, rfl⟩
    refine writeString16_run_eq_ok.mpr ⟨localText, htext, ?_⟩
    simp [handshakePacket]
  rw [HandshakeResponse.toPacket, hpayload]
  rfl

theorem screen_toPacket {revision : Int} (h : -128 ≤ revision ∧ revision ≤ 127) :
    ScreenBootstrapResponse.toPacket { revision } = .ok (screenPacket revision) := by
  have hselector : UintWire 1 0 [0] := uintWire_byte 0
  have hrevision : UintWire 1 (revision % 0x100) [UInt8.ofNat (revision % 0x100).toNat] :=
    ⟨(revision % 0x100).toNat, by omega, by omega, rfl⟩
  have hpayload : ScreenBootstrapResponse.encodePayload { revision } =
      .ok (screenPacket revision).payload := by
    apply Codec.written_eq_ok.mpr
    rw [Codec.run_bind_of_ok (raiseIf_run_eq_ok.mpr ⟨not_not_intro h, rfl⟩), writeU8,
      Codec.run_bind_of_ok (writeUint_run_eq_ok.mpr ⟨_, hselector, rfl⟩), writeU8,
      Codec.run_bind_of_ok (writeUint_run_eq_ok.mpr ⟨_, hrevision, rfl⟩)]
    rfl
  rw [ScreenBootstrapResponse.toPacket, hpayload]
  rfl

theorem handshakePacket_decode (key : HandshakeKey) :
    HandshakeResponse.decodePayload (handshakePacket key).payload =
      .ok ⟨key.seed, key.shift.toNat, LoginSession.LOCAL_TEXT⟩ :=
  HandshakeResponse.payload_exact.decode_encode _ _ (packetOf_eq_ok.mp (handshake_toPacket key)).1

theorem screenPacket_decode {revision : Int} (h : -128 ≤ revision ∧ revision ≤ 127) :
    ScreenBootstrapResponse.decodePayload (screenPacket revision).payload = .ok { revision } :=
  ScreenBootstrapResponse.payload_exact.decode_encode _ _ (packetOf_eq_ok.mp (screen_toPacket h)).1

theorem screen_toPacket_of_unfit {revision : Int} (h : ¬ (-128 ≤ revision ∧ revision ≤ 127)) :
    ScreenBootstrapResponse.toPacket { revision } =
      .error (.encodeError "screen bootstrap revision must be an s8") := by
  have hpayload : ScreenBootstrapResponse.encodePayload { revision } =
      .error (.encodeError "screen bootstrap revision must be an s8") := by
    simp only [ScreenBootstrapResponse.encodePayload, raiseIf, if_pos h]
    rfl
  rw [ScreenBootstrapResponse.toPacket, hpayload]
  rfl

namespace LoginSession
open Raising

def IsSessionError (e : PyError) : Prop := ∃ text, e = .sessionProtocolError text

/-- The configured revision is one that 0xC4 can carry. -/
def RevisionFits (s : LoginSession) : Prop :=
  ∀ revision ∈ s.experimentalSplashRevision, -128 ≤ revision ∧ revision ≤ 127

theorem orSessionError_checks {α : Type} {decode : Except PyError α} {text : String}
    (h : ∀ e, decode = .error e → IsDecodeError e) :
    Checks IsSessionError (orSessionError decode text) := by
  cases decode with
  | ok value => exact Checks.pure value
  | error e =>
    obtain ⟨text', rfl⟩ := h e rfl
    exact Checks.throw ⟨text, rfl⟩

theorem raiseUnexpected_bind_checks {α β : Type} (packet : Packet) (f : α → SessionM β) :
    Checks IsSessionError (raiseUnexpected packet >>= f) :=
  fun _ => .inr ⟨_, ⟨_, rfl⟩, rfl⟩

theorem decodeEmpty_checks {packet : Packet} {command : Command}
    (hknown : command ∈ Command.emptyRequests) :
    Checks IsSessionError (decodeEmpty packet command) := by
  unfold decodeEmpty
  apply Checks.ite
  · intro _
    exact raiseUnexpected_bind_checks packet _
  · intro hcommand
    have hraises := fun e => EmptyClientRequest.fromPacket_raises (e := e)
      (not_not.mp hcommand) hknown
    exact (orSessionError_checks hraises).bind fun _ => Checks.pure _

theorem decodeSessionRequest_checks (packet : Packet) :
    Checks IsSessionError (decodeSessionRequest packet) := by
  unfold decodeSessionRequest
  apply Checks.ite
  · intro _
    exact raiseUnexpected_bind_checks packet _
  · intro _
    apply (orSessionError_checks fun _ => ClientSessionRequest.decodePayload_raises).bind
    intro request
    apply Checks.bind
    · apply Checks.ite
      · intro _
        exact Checks.throw ⟨_, rfl⟩
      · intro _
        exact Checks.pure _
    · intro _
      exact Checks.pure request

theorem decodeExperimentalScreenRequest_checks (packet : Packet) :
    Checks IsSessionError (decodeExperimentalScreenRequest packet) := by
  apply Checks.bind (x := get)
  · intro s
    exact .inl ⟨s, rfl⟩
  · intro s
    apply Checks.ite
    · intro _
      exact raiseUnexpected_bind_checks packet _
    · intro _
      exact decodeEmpty_checks (by decide)

theorem sessionResponse_toPacket : sessionResponse.toPacket = .ok sessionPacket := rfl

theorem versions_toPacket :
    BootstrapVersions.toPacket ⟨VERSION, VERSION, VERSION⟩ = .ok versionsPacket := rfl

theorem reset_toPacket : ServerTransportReset2.toPacket {} = .ok resetPacket := rfl

theorem prelogin_toPacket : ServerPreloginStatus.toPacket {} = .ok preloginPacket := rfl

theorem da_toPacket : (BootstrapDaResponse.empty VERSION).toPacket = .ok daPacket := rfl

theorem e1_toPacket : (BootstrapE1Response.empty VERSION).toPacket = .ok e1Packet := rfl

theorem e0_toPacket : BootstrapE0EmptyResponse.toPacket ⟨VERSION⟩ = .ok e0Packet := rfl

theorem area_toPacket : ServerAreaList.toPacket {} = .ok areaPacket := rfl

/-- The two responses that open every greeting are encoded; what is left is the splash
transition. -/
theorem initialBootstrapResponses_run (s : LoginSession) :
    initialBootstrapResponses.run s =
      (match s.experimentalSplashRevision, s.splashTransitionSent with
      | some revision, false => do
        let screen ← ScreenBootstrapResponse.toPacket { revision }
        set { s with splashTransitionSent := true }
        return [sessionPacket, versionsPacket] ++ [screen]
      | _, _ => return [sessionPacket, versionsPacket] : SessionM (List Packet)).run s := by
  unfold initialBootstrapResponses
  rw [run_bind_of_ok (run_liftM_of_ok sessionResponse_toPacket s),
    run_bind_of_ok (run_liftM_of_ok versions_toPacket s)]
  exact run_get_bind _ s

theorem initialBootstrapResponses_cases (s : LoginSession) :
    initialBootstrapResponses.run s = (.ok s.greeting, { s with
      splashTransitionSent := s.splashTransitionSent || s.experimentalSplashRevision.isSome }) ∨
    ¬ s.RevisionFits ∧
      ∃ text, initialBootstrapResponses.run s = (.error (.encodeError text), s) := by
  rw [initialBootstrapResponses_run]
  obtain ⟨key, state, revision, sent, push, pushed⟩ := s
  cases revision with
  | none => cases sent <;> exact .inl rfl
  | some revision =>
    cases sent with
    | true => exact .inl rfl
    | false =>
      simp only
      by_cases hrange : -128 ≤ revision ∧ revision ≤ 127
      · left
        rw [run_bind_of_ok (run_liftM_of_ok (screen_toPacket hrange) _)]
        rfl
      · right
        rw [run_bind_of_error (run_liftM_of_error (screen_toPacket_of_unfit hrange) _)]
        exact ⟨fun hfits => hrange (hfits revision rfl), _, rfl⟩

theorem areaPushIfEnabled_run (s : LoginSession) :
    areaPushIfEnabled.run s = (.ok s.areaPush, { s with
      areaPushSent := s.areaPushSent || s.experimentalAreaPush }) := by
  obtain ⟨key, state, revision, sent, push, pushed⟩ := s
  cases push <;> cases pushed <;> rfl

/-- What `handle` does with a packet: it rejects it and leaves the session, or it gives the
answer of the table, or an unfit revision makes the greeting raise once the state is set. -/
inductive Handled (s : LoginSession) (packet : Packet) :
    Except PyError SessionOutcome × LoginSession → Prop
  | rejected (text : String) : Handled s packet (.error (.sessionProtocolError text), s)
  | accepted {command : Command} {outcome : SessionOutcome} {s' : LoginSession}
      (hcommand : packet.command = command.value)
      (hanswer : s.answer command = some (outcome, s')) : Handled s packet (.ok outcome, s')
  | unfit (text : String) (hfits : ¬ s.RevisionFits)
      (hstate : s.state = .awaitInitialBb ∨ s.state = .bootstrap) :
      Handled s packet (.error (.encodeError text), { s with state := .bootstrap })

variable {s : LoginSession} {packet : Packet}

theorem Handled.raiseUnexpected : Handled s packet ((raiseUnexpected packet).run s) :=
  .rejected _

/-- A check comes first; with it passed, the session is as before. -/
theorem Handled.check {α : Type} {x : SessionM α} {f : α → SessionM SessionOutcome}
    (hx : Checks IsSessionError x) (hf : ∀ a, Handled s packet ((f a).run s)) :
    Handled s packet ((x >>= f).run s) := by
  rcases hx s with ⟨a, ha⟩ | ⟨_, ⟨text, rfl⟩, he⟩
  · rw [run_bind_of_ok ha]
    exact hf a
  · rw [run_bind_of_error he]
    exact .rejected text

theorem decodeEmpty_run_of_ne {command : Command} (h : packet.command ≠ command.value) :
    ∃ text, (decodeEmpty packet command).run s = (.error (.sessionProtocolError text), s) := by
  unfold decodeEmpty
  rw [if_pos h]
  exact ⟨_, rfl⟩

theorem decodeEmpty_run_of_payload {command : Command} (h : packet.payload ≠ []) :
    ∃ text, (decodeEmpty packet command).run s = (.error (.sessionProtocolError text), s) := by
  by_cases hcommand : packet.command = command.value
  · have hraise : ∃ text, EmptyClientRequest.fromPacket packet = .error (.decodeError text) := by
      simp only [EmptyClientRequest.fromPacket, hcommand, Command.ofValue?_value, raiseIf, if_pos h]
      exact ⟨_, rfl⟩
    obtain ⟨text, hraise⟩ := hraise
    unfold decodeEmpty
    rw [if_neg (not_not_intro hcommand), hraise]
    exact ⟨_, rfl⟩
  · exact decodeEmpty_run_of_ne hcommand

theorem decodeSessionRequest_run_of_ne (h : packet.command ≠ Command.clientSession.value) :
    ∃ text, (decodeSessionRequest packet).run s = (.error (.sessionProtocolError text), s) := by
  unfold decodeSessionRequest
  rw [if_pos h]
  exact ⟨_, rfl⟩

theorem Handled.ite {c : Prop} [Decidable c] {x y : SessionM SessionOutcome}
    (hx : c → Handled s packet (x.run s)) (hy : ¬ c → Handled s packet (y.run s)) :
    Handled s packet ((if c then x else y).run s) := by
  by_cases h : c
  · rw [if_pos h]
    exact hx h
  · rw [if_neg h]
    exact hy h

/-- A branch that validates the payload and answers nothing. -/
theorem Handled.silent {α : Type} {x : SessionM α} {command : Command}
    (hx : Checks IsSessionError x) (hcommand : packet.command = command.value)
    (hanswer : s.answer command = some ({}, s)) :
    Handled s packet ((do let _ ← x; return {} : SessionM SessionOutcome).run s) := by
  apply Handled.check hx
  intro _
  exact .accepted hcommand hanswer

/-- A branch that validates the payload and answers with one packet. -/
theorem Handled.reply {α : Type} {x : SessionM α} {command : Command}
    {response : Except PyError Packet} {r : Packet} (hx : Checks IsSessionError x)
    (hresponse : response = .ok r) (hcommand : packet.command = command.value)
    (hanswer : s.answer command = some ({ outbound := [r] }, s)) :
    Handled s packet
      ((do let _ ← x; return { outbound := [← response] } : SessionM SessionOutcome).run s) := by
  apply Handled.check hx
  intro _
  rw [run_bind_of_ok (run_liftM_of_ok hresponse s)]
  exact .accepted hcommand hanswer

/-- An empty handshake request is answered in full. -/
theorem handleE5_run (hdecode : (decodeEmpty packet .handshake).run s = (.ok (), s)) :
    (handleE5 packet).run s = (.ok ⟨[handshakePacket s.handshake], some s.handshake.transform⟩,
      { s with state := .awaitInitialBb }) := by
  have htransform := ByteTransform.fromSeed_ok s.handshake.seed s.handshake.shift
    s.handshake.seed_pos s.handshake.seed_le
  unfold handleE5
  rw [run_bind_of_ok hdecode, run_get_bind, run_bind_of_ok (run_liftM_of_ok htransform s),
    run_bind_of_ok (show (setState _).run s = (.ok (), _) from rfl),
    run_bind_of_ok (run_liftM_of_ok (handshake_toPacket s.handshake) _)]
  rfl

theorem handleE5_handled (hstate : s.state = .awaitClientE5) :
    Handled s packet ((handleE5 packet).run s) := by
  by_cases hcommand : packet.command = Command.handshake.value
  · have hchecks : Checks IsSessionError (decodeEmpty packet .handshake) :=
      decodeEmpty_checks (by decide)
    rcases hchecks s with ⟨value, hok⟩ | ⟨e, ⟨text, rfl⟩, herror⟩
    · rw [handleE5_run hok]
      exact .accepted hcommand (by simp only [answer, hstate])
    · unfold handleE5
      rw [run_bind_of_error herror]
      exact .rejected text
  · obtain ⟨text, hrun⟩ := decodeEmpty_run_of_ne (s := s) hcommand
    unfold handleE5
    rw [run_bind_of_error hrun]
    exact .rejected text

/-- The greeting, once the session is in `BOOTSTRAP`. -/
theorem greet_handled (hstate : s.state = .awaitInitialBb ∨ s.state = .bootstrap)
    (hcommand : packet.command = Command.clientSession.value) :
    Handled s packet ((do return { outbound := ← initialBootstrapResponses } :
      SessionM SessionOutcome).run { s with state := .bootstrap }) := by
  rcases initialBootstrapResponses_cases { s with state := .bootstrap } with hrun | ⟨hfits, _, hrun⟩
  · rw [run_bind_of_ok hrun]
    refine .accepted hcommand ?_
    rcases hstate with h | h <;> simp only [answer, h] <;> rfl
  · rw [run_bind_of_error hrun]
    exact .unfit _ hfits hstate

/-- The step into `ACCOUNT_PANEL_READY`. -/
theorem enter_handled (hstate : s.state = .awaitInitialBb ∨ s.state = .bootstrap)
    (hcommand : packet.command = Command.bootstrapReady.value) :
    Handled s packet ((do
      setState .accountPanelReady
      return { outbound := ← areaPushIfEnabled } : SessionM SessionOutcome).run s) := by
  rw [run_bind_of_ok (show (setState _).run s = (.ok (), _) from rfl),
    run_bind_of_ok (areaPushIfEnabled_run _)]
  refine .accepted hcommand ?_
  rcases hstate with h | h <;> simp only [answer, h] <;> rfl

theorem handleInitialBb_handled (hstate : s.state = .awaitInitialBb) :
    Handled s packet ((handleInitialBb packet).run s) := by
  unfold handleInitialBb
  apply Handled.ite
  · intro hcommand
    exact .reply (orSessionError_checks fun _ => ClientTransportSync0.decodePayload_raises)
      reset_toPacket hcommand (by simp only [answer, hstate])
  intro _
  apply Handled.ite
  · intro hcommand
    exact .silent (orSessionError_checks fun _ => ClientPostResetStatus.decodePayload_raises)
      hcommand (by simp only [answer, hstate])
  intro _
  apply Handled.ite
  · intro hcommand
    exact .silent (orSessionError_checks fun _ => ClientPrelogin72.decodePayload_raises)
      hcommand (by simp only [answer, hstate])
  intro _
  apply Handled.ite
  · intro hcommand
    exact .reply (decodeEmpty_checks (by decide)) prelogin_toPacket hcommand (by simp only [answer, hstate])
  intro _
  apply Handled.ite
  · intro hcommand
    apply Handled.check (decodeEmpty_checks (by decide))
    intro _
    exact enter_handled (.inl hstate) hcommand
  intro _
  by_cases hcommand : packet.command = Command.clientSession.value
  · apply Handled.check (decodeSessionRequest_checks packet)
    intro _
    exact greet_handled (.inl hstate) hcommand
  · obtain ⟨text, hrun⟩ := decodeSessionRequest_run_of_ne (s := s) hcommand
    rw [run_bind_of_error hrun]
    exact .rejected text

/-- The optional 0xC4 request: unexpected unless a revision is configured. -/
theorem screenRequest_handled (hstate : s.state = .bootstrap ∨ s.state = .accountPanelReady)
    (hcommand : packet.command = Command.screenBootstrap.value) :
    Handled s packet ((do
      decodeExperimentalScreenRequest packet
      return {} : SessionM SessionOutcome).run s) := by
  by_cases hnone : s.experimentalSplashRevision = none
  · have hrun : ∃ text, (decodeExperimentalScreenRequest packet).run s =
        (.error (.sessionProtocolError text), s) := by
      unfold decodeExperimentalScreenRequest
      rw [run_get_bind, if_pos hnone]
      exact ⟨_, rfl⟩
    obtain ⟨text, hrun⟩ := hrun
    rw [run_bind_of_error hrun]
    exact .rejected text
  · refine .silent (decodeExperimentalScreenRequest_checks packet) hcommand ?_
    rcases hstate with h | h <;> simp only [answer, h, hnone, if_false]

theorem handleBootstrap_handled (hstate : s.state = .bootstrap) :
    Handled s packet ((handleBootstrap packet).run s) := by
  have hsame : { s with state := .bootstrap } = s := by rw [← hstate]
  unfold handleBootstrap
  apply Handled.ite
  · intro hcommand
    exact .silent (orSessionError_checks fun _ => ClientPostResetStatus.decodePayload_raises)
      hcommand (by simp only [answer, hstate])
  intro _
  apply Handled.ite
  · intro hcommand
    exact .silent (orSessionError_checks fun _ => ClientPrelogin72.decodePayload_raises)
      hcommand (by simp only [answer, hstate])
  intro _
  apply Handled.ite
  · intro hcommand
    exact .reply (decodeEmpty_checks (by decide)) prelogin_toPacket hcommand (by simp only [answer, hstate])
  intro _
  apply Handled.ite
  · intro hcommand
    apply Handled.check (decodeSessionRequest_checks packet)
    intro _
    have hgreet := greet_handled (.inr hstate) hcommand
    rwa [hsame] at hgreet
  intro _
  apply Handled.ite
  · intro hcommand
    exact screenRequest_handled (.inl hstate) hcommand
  intro _
  apply Handled.ite
  · intro hcommand
    exact .silent (orSessionError_checks fun _ => ClientU32B2.decodePayload_raises) hcommand
      (by simp only [answer, hstate])
  intro _
  apply Handled.ite
  · intro hcommand
    exact .silent (orSessionError_checks fun _ => ClientC6Selection.decodePayload_raises) hcommand
      (by simp only [answer, hstate])
  intro _
  apply Handled.ite
  · intro hcommand
    exact .silent (decodeEmpty_checks (by decide)) hcommand (by simp only [answer, hstate])
  intro _
  apply Handled.ite
  · intro hcommand
    exact .reply (decodeEmpty_checks (by decide)) da_toPacket hcommand (by simp only [answer, hstate])
  intro _
  apply Handled.ite
  · intro hcommand
    exact .reply (decodeEmpty_checks (by decide)) e1_toPacket hcommand (by simp only [answer, hstate])
  intro _
  apply Handled.ite
  · intro hcommand
    exact .reply (decodeEmpty_checks (by decide)) e0_toPacket hcommand (by simp only [answer, hstate])
  intro _
  apply Handled.ite
  · intro hcommand
    apply Handled.check (decodeEmpty_checks (by decide))
    intro _
    exact enter_handled (.inr hstate) hcommand
  intro _
  exact .raiseUnexpected

theorem commandOf_run {command : Command} (hcommand : packet.command = command.value) :
    (commandOf packet.command).run s = (.ok command, s) := by
  rw [commandOf, hcommand, Command.ofValue?_value]
  rfl

theorem handleReady_handled (hstate : s.state = .accountPanelReady) :
    Handled s packet ((handleReady packet).run s) := by
  unfold handleReady
  apply Handled.ite
  · intro hcommand
    exact .silent (orSessionError_checks fun _ => ClientPostResetStatus.decodePayload_raises)
      hcommand (by simp only [answer, hstate])
  intro _
  apply Handled.ite
  · intro hcommand
    exact .silent (orSessionError_checks fun _ => ClientPrelogin72.decodePayload_raises)
      hcommand (by simp only [answer, hstate])
  intro _
  apply Handled.ite
  · intro hcommand
    exact .reply (decodeEmpty_checks (by decide)) prelogin_toPacket hcommand (by simp only [answer, hstate])
  intro _
  apply Handled.ite
  · intro hcommand
    exact .reply (decodeSessionRequest_checks packet) sessionResponse_toPacket hcommand
      (by simp only [answer, hstate])
  intro _
  apply Handled.ite
  · intro hcommand
    exact screenRequest_handled (.inr hstate) hcommand
  intro _
  apply Handled.ite
  · intro hcommand
    exact .silent (orSessionError_checks fun _ => ClientC6Selection.decodePayload_raises) hcommand
      (by simp only [answer, hstate])
  intro _
  apply Handled.ite
  · intro hcommand
    exact .reply (orSessionError_checks fun _ => ClientAreaRequest.decodePayload_raises) area_toPacket hcommand
      (by simp only [answer, hstate])
  intro _
  apply Handled.ite
  · intro hcommands
    simp only [List.mem_cons, List.not_mem_nil, or_false] at hcommands
    rcases hcommands with hcommand | hcommand
    · rw [run_bind_of_ok (commandOf_run hcommand)]
      exact .silent (decodeEmpty_checks (by decide)) hcommand (by simp only [answer, hstate])
    · rw [run_bind_of_ok (commandOf_run hcommand)]
      exact .silent (decodeEmpty_checks (by decide)) hcommand (by simp only [answer, hstate])
  intro _
  apply Handled.ite
  · intro hcommands
    simp only [List.mem_cons, List.not_mem_nil, or_false] at hcommands
    unfold handleBootstrapRetry
    rcases hcommands with hcommand | hcommand | hcommand
    · rw [run_bind_of_ok (commandOf_run hcommand)]
      exact .reply (decodeEmpty_checks (by decide)) da_toPacket hcommand
        (by simp only [answer, hstate])
    · rw [run_bind_of_ok (commandOf_run hcommand)]
      exact .reply (decodeEmpty_checks (by decide)) e1_toPacket hcommand
        (by simp only [answer, hstate])
    · rw [run_bind_of_ok (commandOf_run hcommand)]
      exact .reply (decodeEmpty_checks (by decide)) e0_toPacket hcommand
        (by simp only [answer, hstate])
  intro _
  exact .raiseUnexpected

/-- The specification of `handle`. -/
theorem handle_handled (s : LoginSession) (packet : Packet) :
    Handled s packet ((handle packet).run s) := by
  unfold handle
  rw [run_get_bind]
  cases hstate : s.state with
  | awaitClientE5 => exact handleE5_handled hstate
  | awaitInitialBb => exact handleInitialBb_handled hstate
  | bootstrap => exact handleBootstrap_handled hstate
  | accountPanelReady => exact handleReady_handled hstate

end LoginSession
end Army3
