import Army3.Server.SessionRuns

namespace Army3
namespace LoginSession
open Raising

/-- The states in which the bootstrap requests are answered. -/
def AnswersBootstrap (s : LoginSession) : Prop := s.state = .bootstrap ∨ s.state = .accountPanelReady

/-- The empty 0xDA, 0xE1 and 0xE0 requests. -/
def bootstrapRequests : List Packet := [⟨0xDA, []⟩, ⟨0xE1, []⟩, ⟨0xE0, []⟩]

/-- The commands of the requests that may come in between. -/
def backgroundCommands : List UInt8 := [0x3A, 0x72, 0xC6, 0x07, 0xFD]

/-- The packets sent for such a request, whatever it carries and wherever it stands. -/
def standingAnswer (command : UInt8) : List Packet :=
  if command = 0xDA then [daPacket]
  else if command = 0xE1 then [e1Packet]
  else if command = 0xE0 then [e0Packet]
  else if command = 0xFD then [preloginPacket]
  else []

theorem exchange_bootstrapRequest {s : LoginSession} (hstate : s.AnswersBootstrap)
    {packet : Packet} (hpacket : packet ∈ bootstrapRequests) :
    s.exchange packet = ⟨s, packet, .ok { outbound := standingAnswer packet.command }, s⟩ := by
  obtain ⟨key, state, revision, sent, push, pushed⟩ := s
  simp only [bootstrapRequests, List.mem_cons, List.not_mem_nil, or_false] at hpacket
  rcases hstate with rfl | rfl <;> rcases hpacket with rfl | rfl | rfl <;> rfl

theorem exchange_background {s : LoginSession} (hstate : s.AnswersBootstrap)
    {packet : Packet} (hcommand : packet.command ∈ backgroundCommands)
    (haccepted : (s.exchange packet).outcome?.isSome) :
    s.exchange packet = ⟨s, packet, .ok { outbound := standingAnswer packet.command }, s⟩ := by
  obtain ⟨command, outcome, s', hvalue, hanswer, hx⟩ := exchange_of_accepted haccepted
  rw [hvalue] at hcommand
  have hentry : s.answer command = some ({ outbound := standingAnswer command.value }, s) := by
    cases command <;> first
      | exact absurd hcommand (by decide)
      | (rcases hstate with h | h <;> simp only [answer, h] <;> rfl)
  rw [hentry] at hanswer
  cases hanswer
  rw [hx, hvalue]

theorem exchanges_of_same {s : LoginSession} {answers : Packet → SessionOutcome}
    {packets : List Packet}
    (h : ∀ packet ∈ packets, s.exchange packet = ⟨s, packet, .ok (answers packet), s⟩) :
    s.exchanges packets = packets.map fun packet => ⟨s, packet, .ok (answers packet), s⟩ := by
  induction packets with
  | nil => rfl
  | cons packet packets ih =>
    rw [exchanges, h packet List.mem_cons_self, List.map_cons,
      ih fun later hlater => h later (List.mem_cons_of_mem _ hlater)]

/-- In such a run every packet finds the session as the first one did. -/
theorem exchange_of_mem_run {s : LoginSession} (hstate : s.AnswersBootstrap)
    {packets : List Packet}
    (hrun : ∀ x ∈ s.exchanges packets, x.packet ∈ bootstrapRequests ∨
      x.packet.command ∈ backgroundCommands ∧ x.outcome?.isSome) :
    ∀ packet ∈ packets,
      s.exchange packet = ⟨s, packet, .ok { outbound := standingAnswer packet.command }, s⟩ := by
  induction packets with
  | nil => simp
  | cons first packets ih =>
    have hfirst : s.exchange first =
        ⟨s, first, .ok { outbound := standingAnswer first.command }, s⟩ := by
      rcases hrun (s.exchange first) List.mem_cons_self with hrequest | ⟨hcommand, haccepted⟩
      · exact exchange_bootstrapRequest hstate hrequest
      · exact exchange_background hstate hcommand haccepted
    have hlater : ∀ packet ∈ packets,
        s.exchange packet = ⟨s, packet, .ok { outbound := standingAnswer packet.command }, s⟩ := by
      apply ih
      intro x hx
      apply hrun
      rw [exchanges, hfirst]
      exact List.mem_cons_of_mem _ hx
    intro packet hpacket
    rcases List.mem_cons.mp hpacket with rfl | hmem
    · exact hfirst
    · exact hlater packet hmem

/-- The bootstrap requests, in any order and number and among any accepted background requests,
are each answered with one packet of their own command that is the same at every position and
in both states; nothing changes the session, and every rearrangement of the requests rearranges
the responses. -/
theorem bootstrap_requests_order_independent (s : LoginSession) (hstate : s.AnswersBootstrap)
    (packets : List Packet)
    (hrun : ∀ x ∈ s.exchanges packets, x.packet ∈ bootstrapRequests ∨
      x.packet.command ∈ backgroundCommands ∧ x.outcome?.isSome) :
    (∀ packets' : List Packet, packets'.Perm packets →
      s.exchanges packets' = packets'.map fun packet =>
        ⟨s, packet, .ok { outbound := standingAnswer packet.command }, s⟩) ∧
    ∀ packet ∈ bootstrapRequests,
      (∃ payload, standingAnswer packet.command = [⟨packet.command, payload⟩]) ∧
      ∀ t : LoginSession, t.AnswersBootstrap →
        (t.exchange packet).outbound = standingAnswer packet.command := by
  have hsame := exchange_of_mem_run hstate hrun
  refine ⟨fun packets' hperm => ?_, fun packet hpacket => ⟨?_, fun t ht => ?_⟩⟩
  · exact exchanges_of_same fun packet hpacket => hsame packet (hperm.mem_iff.mp hpacket)
  · simp only [bootstrapRequests, List.mem_cons, List.not_mem_nil, or_false] at hpacket
    rcases hpacket with rfl | rfl | rfl <;> exact ⟨_, rfl⟩
  · rw [exchange_bootstrapRequest ht hpacket]
    rfl

/-- A repeated 0xE0 around a background 0xFD, in the ready state. -/
theorem bootstrap_requests_order_independent_retry :
    let s : LoginSession := { state := .accountPanelReady }
    s.exchanges [⟨0xFD, []⟩, ⟨0xE0, []⟩, ⟨0xE0, []⟩] =
      [⟨s, ⟨0xFD, []⟩, .ok { outbound := [preloginPacket] }, s⟩,
        ⟨s, ⟨0xE0, []⟩, .ok { outbound := [e0Packet] }, s⟩,
        ⟨s, ⟨0xE0, []⟩, .ok { outbound := [e0Packet] }, s⟩] :=
  (bootstrap_requests_order_independent { state := .accountPanelReady } (.inr rfl)
    [⟨0xE0, []⟩, ⟨0xFD, []⟩, ⟨0xE0, []⟩] (by decide)).1 _ (by decide)

/-- The payloads a request command is accepted with, whatever the state. -/
def Admits (command : Command) (payload : Bytes) : Prop :=
  match command with
  | .transportSync => ∃ m, ClientTransportSync0.decodePayload payload = .ok m
  | .postResetStatus => ∃ m, ClientPostResetStatus.decodePayload payload = .ok m
  | .clientText72 => ∃ m, ClientPrelogin72.decodePayload payload = .ok m
  | .clientU32B2 => ∃ m, ClientU32B2.decodePayload payload = .ok m
  | .clientSelection => ∃ m, ClientC6Selection.decodePayload payload = .ok m
  | .area => ∃ m, ClientAreaRequest.decodePayload payload = .ok m
  | .clientSession => ∃ m, ClientSessionRequest.decodePayload payload = .ok m ∧ m.mode ∈ [0, 1]
  | _ => payload = []

variable {s : LoginSession} {packet : Packet}

theorem orSessionError_run {α : Type} {decode : Except PyError α} {text : String} {value : α} :
    (orSessionError decode text).run s = (.ok value, s) ↔ decode = .ok value := by
  cases decode with
  | ok value' =>
    change (Except.ok value', s) = _ ↔ _
    rw [Prod.mk.injEq, Except.ok.injEq]
    exact and_iff_left rfl
  | error e => cases e <;> exact ⟨fun h => (by cases h), fun h => (by cases h)⟩

theorem decodeEmpty_run {command : Command} (hknown : command ∈ Command.emptyRequests)
    (hcommand : packet.command = command.value) :
    (decodeEmpty packet command).run s = (.ok (), s) ↔ packet.payload = [] := by
  constructor
  · intro h
    by_contra hpayload
    have hraise : ∃ text, (decodeEmpty packet command).run s =
        (.error (.sessionProtocolError text), s) := decodeEmpty_run_of_payload hpayload
    obtain ⟨text, hrun⟩ := hraise
    rw [hrun] at h
    cases h
  · intro h
    obtain ⟨code, payload⟩ := packet
    simp only at h hcommand
    subst h hcommand
    have hrequest : EmptyClientRequest.fromPacket ⟨command.value, []⟩ = .ok ⟨command, hknown⟩ := by
      simp only [EmptyClientRequest.fromPacket, Command.ofValue?_value, EmptyClientRequest.create,
        dif_pos hknown]
      rfl
    unfold decodeEmpty
    rw [if_neg (not_not_intro rfl), hrequest]
    rfl

theorem decodeSessionRequest_run (hcommand : packet.command = Command.clientSession.value)
    {request : ClientSessionRequest} :
    (decodeSessionRequest packet).run s = (.ok request, s) ↔
      ClientSessionRequest.decodePayload packet.payload = .ok request ∧ request.mode ∈ [0, 1] := by
  unfold decodeSessionRequest
  rw [if_neg (not_not_intro hcommand), (orSessionError_checks fun _ =>
    ClientSessionRequest.decodePayload_raises).run_bind_eq_ok]
  constructor
  · intro hall
    obtain ⟨request', hdecode, hlater⟩ := hall
    by_cases hmode : request'.mode ∉ [0, 1]
    · rw [raiseIf, if_pos hmode] at hlater
      cases hlater
    · rw [raiseIf, if_neg hmode] at hlater
      cases hlater
      exact ⟨orSessionError_run.mp hdecode, not_not.mp hmode⟩
  · intro hall
    obtain ⟨hdecode, hmode⟩ := hall
    refine ⟨request, orSessionError_run.mpr hdecode, ?_⟩
    rw [raiseIf, if_neg (not_not_intro hmode)]
    rfl

theorem accepted_iff : (s.exchange packet).outcome?.isSome ↔
    ∃ outcome s', (handle packet).run s = (.ok outcome, s') := by
  unfold exchange
  generalize (handle packet).run s = answer
  obtain ⟨result, s'⟩ := answer
  cases result with
  | ok outcome => exact ⟨fun _ => ⟨outcome, s', rfl⟩, fun _ => rfl⟩
  | error e => exact ⟨fun h => (by cases h), fun hall => (by obtain ⟨_, _, h⟩ := hall; cases h)⟩

theorem decodeExperimentalScreenRequest_run
    (hcommand : packet.command = Command.screenBootstrap.value) :
    (decodeExperimentalScreenRequest packet).run s = (.ok (), s) ↔
      s.experimentalSplashRevision ≠ none ∧ packet.payload = [] := by
  unfold decodeExperimentalScreenRequest
  rw [run_get_bind]
  by_cases hnone : s.experimentalSplashRevision = none
  · rw [if_pos hnone]
    exact ⟨fun h => (by cases h), fun h => absurd hnone h.1⟩
  · rw [if_neg hnone, ← decodeEmpty_run (s := s) (by decide) hcommand]
    exact ⟨fun h => ⟨hnone, h⟩, fun h => h.2⟩

/-- The check in front of an accepted request was passed. -/
theorem passed {α : Type} {x : SessionM α} {f : α → SessionM SessionOutcome}
    (hx : Checks IsSessionError x) {outcome : SessionOutcome} {s' : LoginSession}
    (h : (x >>= f).run s = (.ok outcome, s')) : ∃ a, x.run s = (.ok a, s) := by
  obtain ⟨a, ha, -⟩ := hx.run_bind_eq_ok.mp h
  exact ⟨a, ha⟩

theorem admits_of_bootstrap (hstate : s.state = .bootstrap) {command : Command}
    (hcommand : packet.command = command.value) {outcome : SessionOutcome} {s' : LoginSession}
    (h : (handle packet).run s = (.ok outcome, s')) : Admits command packet.payload := by
  have hempty : ∀ {f : Unit → SessionM SessionOutcome}, command ∈ Command.emptyRequests →
      (decodeEmpty packet command >>= f).run s = (.ok outcome, s') → packet.payload = [] := by
    intro f hknown hrun
    obtain ⟨⟨⟩, hpassed⟩ := passed (decodeEmpty_checks hknown) hrun
    exact (decodeEmpty_run hknown hcommand).mp hpassed
  unfold handle at h
  rw [run_get_bind, hstate] at h
  simp only [handleBootstrap, hcommand] at h
  cases command <;> simp +decide only [reduceIte] at h
  case postResetStatus =>
    obtain ⟨m, hm⟩ := passed (orSessionError_checks fun _ =>
      ClientPostResetStatus.decodePayload_raises) h
    exact ⟨m, orSessionError_run.mp hm⟩
  case clientText72 =>
    obtain ⟨m, hm⟩ := passed (orSessionError_checks fun _ =>
      ClientPrelogin72.decodePayload_raises) h
    exact ⟨m, orSessionError_run.mp hm⟩
  case clientU32B2 =>
    obtain ⟨m, hm⟩ := passed (orSessionError_checks fun _ => ClientU32B2.decodePayload_raises) h
    exact ⟨m, orSessionError_run.mp hm⟩
  case clientSelection =>
    obtain ⟨m, hm⟩ := passed (orSessionError_checks fun _ =>
      ClientC6Selection.decodePayload_raises) h
    exact ⟨m, orSessionError_run.mp hm⟩
  case clientSession =>
    obtain ⟨m, hm⟩ := passed (decodeSessionRequest_checks packet) h
    exact ⟨m, (decodeSessionRequest_run hcommand).mp hm⟩
  case screenBootstrap =>
    obtain ⟨⟨⟩, hm⟩ := passed (decodeExperimentalScreenRequest_checks packet) h
    exact ((decodeExperimentalScreenRequest_run hcommand).mp hm).2
  case unknown07 | preloginStatus | bootstrapDa | bootstrapE1 | bootstrapE0 | bootstrapReady =>
    exact hempty (by decide) h
  case heartbeat | transportSync | bootstrapVersions | area | handshake => cases h

theorem accepted_of_admits (hstate : s.state = .accountPanelReady) {command : Command}
    (hcommand : packet.command = command.value) (hentry : (s.answer command).isSome)
    (hadmits : Admits command packet.payload) :
    ∃ outcome s', (handle packet).run s = (.ok outcome, s') := by
  have hempty : command ∈ Command.emptyRequests → packet.payload = [] →
      (decodeEmpty packet command).run s = (.ok (), s) := fun hknown hpayload =>
    (decodeEmpty_run hknown hcommand).mpr hpayload
  unfold handle
  rw [run_get_bind, hstate]
  simp only [handleReady, hcommand]
  cases command <;> simp +decide only [reduceIte]
  case postResetStatus =>
    obtain ⟨m, hm⟩ := hadmits
    rw [decodePostResetStatus, run_bind_of_ok (orSessionError_run.mpr hm)]
    exact ⟨_, _, rfl⟩
  case clientText72 =>
    obtain ⟨m, hm⟩ := hadmits
    rw [decodeClientPrelogin72, run_bind_of_ok (orSessionError_run.mpr hm)]
    exact ⟨_, _, rfl⟩
  case preloginStatus =>
    rw [run_bind_of_ok (hempty (by decide) hadmits)]
    exact ⟨_, _, rfl⟩
  case clientSession =>
    obtain ⟨m, hm⟩ := hadmits
    rw [run_bind_of_ok ((decodeSessionRequest_run hcommand).mpr hm)]
    exact ⟨_, _, rfl⟩
  case screenBootstrap =>
    have hrevision : s.experimentalSplashRevision ≠ none := by
      intro hnone
      simp [answer, hstate, hnone] at hentry
    rw [run_bind_of_ok ((decodeExperimentalScreenRequest_run hcommand).mpr ⟨hrevision, hadmits⟩)]
    exact ⟨_, _, rfl⟩
  case clientSelection =>
    obtain ⟨m, hm⟩ := hadmits
    rw [decodeClientC6Selection, run_bind_of_ok (orSessionError_run.mpr hm)]
    exact ⟨_, _, rfl⟩
  case area =>
    obtain ⟨m, hm⟩ := hadmits
    rw [decodeClientArea, run_bind_of_ok (orSessionError_run.mpr hm)]
    exact ⟨_, _, rfl⟩
  case unknown07 | bootstrapReady =>
    rw [run_bind_of_ok (show (commandOf _).run s = (.ok _, s) from rfl),
      run_bind_of_ok (hempty (by decide) hadmits)]
    exact ⟨_, _, rfl⟩
  case bootstrapDa | bootstrapE1 | bootstrapE0 =>
    unfold handleBootstrapRetry
    rw [run_bind_of_ok (commandOf_run hcommand), run_bind_of_ok (hempty (by decide) hadmits)]
    exact ⟨_, _, rfl⟩
  case heartbeat | transportSync | clientU32B2 | bootstrapVersions | handshake =>
    simp [answer, hstate] at hentry

theorem u32_admits_iff {payload : Bytes} :
    Admits .clientU32B2 payload ↔ payload.length = 4 := by
  simp only [Admits, ClientU32B2.decodePayload, Codec.parsed_eq_ok, readU32, readUint_bind_eq_ok]
  constructor
  · intro hall
    obtain ⟨m, rest, digits, tail, hlength, rfl, hend⟩ := hall
    cases tail with
    | nil => rw [List.append_nil, hlength]
    | cons byte tail => cases hend
  · intro hlength
    exact ⟨_, [], payload, [], hlength, (List.append_nil payload).symm, rfl⟩

theorem exchange_bootstrapReady (hstate : s.state = .bootstrap) :
    s.exchange ⟨0xDB, []⟩ = ⟨s, ⟨0xDB, []⟩, .ok { outbound := s.areaPush }, s.ready⟩ := by
  obtain ⟨key, state, revision, sent, push, pushed⟩ := s
  simp only at hstate
  subst hstate
  cases push <;> cases pushed <;> rfl

/-- What the ready state knows of the requests of the bootstrap state: all but 0xB2. -/
theorem answer_ready_isSome {command : Command} (hstate : s.state = .bootstrap)
    (hentry : (s.answer command).isSome) :
    (s.ready.answer command).isSome ↔ command ≠ .clientU32B2 := by
  obtain ⟨key, state, revision, sent, push, pushed⟩ := s
  simp only at hstate
  subst hstate
  cases command
  case screenBootstrap =>
    cases revision with
    | none => cases hentry
    | some revision => exact iff_of_true rfl (by decide)
  case clientU32B2 => exact iff_of_false (by simp [answer, ready]) (by decide)
  case heartbeat | transportSync | bootstrapVersions | area | handshake => cases hentry
  all_goals exact iff_of_true rfl (by decide)

/-- Once an empty 0xDB has been accepted, a packet that was accepted before it still is, unless
it is a 0xB2 with its four bytes. -/
theorem ready_accepts_iff (s : LoginSession) (hstate : s.state = .bootstrap) (packet : Packet) :
    let x := s.exchange ⟨0xDB, []⟩
    x.outcome?.isSome ∧ x.after.state = .accountPanelReady ∧
      (((s.exchange packet).outcome?.isSome → (x.after.exchange packet).outcome?.isSome) ↔
        ¬ (packet.command = 0xB2 ∧ packet.payload.length = 4)) := by
  intro x
  have hx : x = _ := exchange_bootstrapReady hstate
  rw [hx]
  refine ⟨rfl, rfl, ?_⟩
  simp only
  constructor
  · intro h hb2
    obtain ⟨hcommand, hlength⟩ := hb2
    have haccepted : (s.exchange packet).outcome?.isSome := by
      obtain ⟨m, hm⟩ := u32_admits_iff.mpr hlength
      apply accepted_iff.mpr
      unfold handle
      rw [run_get_bind, hstate]
      simp +decide only [handleBootstrap, hcommand, reduceIte]
      rw [decodeClientU32B2, run_bind_of_ok (orSessionError_run.mpr hm)]
      exact ⟨_, _, rfl⟩
    obtain ⟨command, _, _, hvalue, hanswer, -⟩ := exchange_of_accepted (h haccepted)
    obtain rfl : command = .clientU32B2 := Command.value_injective (hvalue.symm.trans hcommand)
    cases hanswer
  · intro hnot haccepted
    obtain ⟨command, outcome, s', hvalue, hanswer, -⟩ := exchange_of_accepted haccepted
    obtain ⟨_, _, hrun⟩ := accepted_iff.mp haccepted
    have hadmits := admits_of_bootstrap hstate hvalue hrun
    refine accepted_iff.mpr (accepted_of_admits rfl hvalue ?_ hadmits)
    rw [answer_ready_isSome hstate (by rw [hanswer]; rfl)]
    intro hb2
    subst hb2
    exact hnot ⟨hvalue, u32_admits_iff.mp hadmits⟩

/-- A late 0xE0 is accepted as the early one was. -/
theorem ready_accepts_iff_e0 :
    let s : LoginSession := { state := .bootstrap }
    ((s.exchange ⟨0xDB, []⟩).after.exchange ⟨0xE0, []⟩).outcome?.isSome :=
  (ready_accepts_iff { state := .bootstrap } rfl ⟨0xE0, []⟩).2.2.mpr (by decide) (by decide)

theorem ready_rejects_b2 :
    let s : LoginSession := { state := .bootstrap }
    (s.exchange ⟨0xB2, [0, 0, 0, 0]⟩).result = .ok {} ∧
      ((s.exchange ⟨0xDB, []⟩).after.exchange ⟨0xB2, [0, 0, 0, 0]⟩).result =
        .error (.sessionProtocolError
          "unexpected command 0xB2 in state ACCOUNT_PANEL_READY") := by
  decide

end LoginSession
end Army3
