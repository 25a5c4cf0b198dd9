import Army3.Server.App
import Army3.Server.SessionRuns

namespace Army3
open FrameDirection

/-- Whether the decoder of the message class a server command stands for takes the payload. -/
def acceptedByItsClass (p : Packet) : Bool :=
  match Command.ofValue? p.command with
  | some .handshake => (HandshakeResponse.decodePayload p.payload).isOk
  | some .transportSync => (ServerTransportReset2.decodePayload p.payload).isOk
  | some .preloginStatus => (ServerPreloginStatus.decodePayload p.payload).isOk
  | some .clientSession => (ServerSessionResponse.decodePayload p.payload).isOk
  | some .bootstrapVersions => (BootstrapVersions.decodePayload p.payload).isOk
  | some .screenBootstrap => (ScreenBootstrapResponse.decodePayload p.payload).isOk
  | some .bootstrapDa => (BootstrapDaResponse.decodePayload p.payload).isOk
  | some .bootstrapE1 => (BootstrapE1Response.decodePayload p.payload).isOk
  | some .bootstrapE0 => (BootstrapE0EmptyResponse.decodePayload p.payload).isOk
  | some .area => (ServerAreaList.decodePayload p.payload).isOk
  | _ => false

def heartbeatPacket : Packet := ⟨Command.heartbeat.value, []⟩

/-- What the server puts on the wire: small enough for every frame, and a heartbeat or a
payload of its class. -/
structure Sendable (p : Packet) : Prop where
  short : p.payload.length ≤ 0xFFFF
  accepted : p ≠ heartbeatPacket → acceptedByItsClass p = true

theorem handshakePacket_sendable (key : HandshakeKey) : Sendable (handshakePacket key) where
  short := by
    have hle := key.seed_le
    simp only [handshakePacket, localText, List.length_cons, List.length_append, List.length_nil]
    omega
  accepted := fun _ => by
    have hdecode := handshakePacket_decode key
    simp only [acceptedByItsClass, show Command.ofValue? (handshakePacket key).command =
      some .handshake from rfl, hdecode]
    rfl

theorem screenPacket_sendable {revision : Int} (h : -128 ≤ revision ∧ revision ≤ 127) :
    Sendable (screenPacket revision) where
  short := by simp [screenPacket]
  accepted := fun _ => by
    simp only [acceptedByItsClass, show Command.ofValue? (screenPacket revision).command =
      some .screenBootstrap from rfl, screenPacket_decode h]
    rfl

theorem constant_sendable {p : Packet}
    (h : p ∈ [resetPacket, preloginPacket, sessionPacket, versionsPacket, daPacket, e1Packet,
      e0Packet, areaPacket]) : Sendable p := by
  constructor
  · revert p
    decide
  · intro _
    simp only [List.mem_cons, List.not_mem_nil, or_false] at h
    rcases h with rfl | rfl | rfl | rfl | rfl | rfl | rfl | rfl <;> rfl

namespace LoginSession

/-- Every response of the session can be sent. -/
theorem Answers.sendable {s s' : LoginSession} {command : Command} {outcome : SessionOutcome}
    (h : Answers s command outcome s') (hfits : s.RevisionFits) :
    ∀ p ∈ outcome.outbound, Sendable p := by
  intro p hp
  cases h with
  | handshake =>
    obtain rfl := List.mem_singleton.mp hp
    exact handshakePacket_sendable s.handshake
  | silent | settled => cases hp
  | reply hstate hreply =>
    obtain rfl := List.mem_singleton.mp hp
    have hconstant : ∀ entry ∈ replies, entry.2 ∈ [resetPacket, preloginPacket, sessionPacket,
        versionsPacket, daPacket, e1Packet, e0Packet, areaPacket] := by
      decide
    exact constant_sendable (hconstant _ hreply)
  | greet =>
    have hgreeting : p ∈ [sessionPacket, versionsPacket] ∨
        ∃ revision ∈ s.experimentalSplashRevision, p = screenPacket revision := by
      unfold greeting at hp
      split at hp
      · next revision hrevision _ =>
        rw [hrevision]
        simp only [List.mem_cons, List.not_mem_nil, or_false] at hp ⊢
        rcases hp with hp | hp | hp
        · exact .inl (.inl hp)
        · exact .inl (.inr hp)
        · exact .inr ⟨revision, rfl, hp⟩
      · exact .inl hp
    rcases hgreeting with hconstant | ⟨revision, hrevision, rfl⟩
    · apply constant_sendable
      simp only [List.mem_cons, List.not_mem_nil, or_false] at hconstant ⊢
      rcases hconstant with rfl | rfl <;> simp
    · exact screenPacket_sendable (hfits revision hrevision)
  | enter =>
    unfold areaPush at hp
    split at hp
    · exact constant_sendable (by simp [List.mem_singleton.mp hp])
    · cases hp
  | session | area => exact constant_sendable (by simp [List.mem_singleton.mp hp])

theorem Answers.of_await {s s' : LoginSession} {command : Command} {outcome : SessionOutcome}
    (h : Answers s command outcome s') (hstate : s.state = .awaitClientE5) :
    outcome = ⟨[handshakePacket s.handshake], some s.handshake.transform⟩ := by
  cases h with
  | handshake => rfl
  | silent hother | reply hother => exact absurd hstate hother
  | greet hother | enter hother => simp [hstate] at hother
  | session hother | area hother | settled hother => simp [hstate] at hother

end LoginSession

/-- The inbound cursor once an outcome has been carried out. -/
def SessionOutcome.cursorAfter (outcome : SessionOutcome) (cursor : Option TransformCursor) :
    Option TransformCursor :=
  match outcome.enableTransform with
  | some transform => some transform.cursor
  | none => cursor

theorem Sendable.fits {p : Packet} (h : Sendable p) (direction : FrameDirection) :
    FitsFrame direction p := fitsFrame_of_short h.short direction

theorem heartbeatPacket_sendable : Sendable heartbeatPacket where
  short := Nat.zero_le _
  accepted := fun hne => absurd rfl hne

theorem frameBytes_cursor (packet : Packet) (direction : FrameDirection)
    (cursor : TransformCursor) :
    ∃ cursor', (frameBytes packet direction (some cursor)).2 = some cursor' := by
  unfold frameBytes wireCommand wireBytes
  cases usesLength32 packet.command direction <;> exact ⟨_, rfl⟩

/-- What has been sent and where the cursor stands: nothing yet, or the handshake in clear and
the rest under its transform. -/
inductive Outgoing (key : HandshakeKey) : Option TransformCursor → List Packet → Bytes → Prop
  | silent : Outgoing key none [] []
  | greeted {cursor : TransformCursor} {rest : List Packet} {tail : Bytes}
      (h : encodeFrames serverToClient (some key.transform.cursor) rest = .ok (tail, some cursor)) :
      Outgoing key (some cursor) (handshakePacket key :: rest)
        ((frameBytes (handshakePacket key) serverToClient none).1 ++ tail)

/-- The packets determine the bytes and the cursor. -/
theorem Outgoing.unique {key : HandshakeKey} {cursor cursor' : Option TransformCursor}
    {sent : List Packet} {written written' : Bytes} (h : Outgoing key cursor sent written)
    (h' : Outgoing key cursor' sent written') : cursor = cursor' ∧ written = written' := by
  cases h with
  | silent =>
    cases h'
    exact ⟨rfl, rfl⟩
  | greeted hrest =>
    cases h' with
    | greeted hrest' =>
      obtain ⟨rfl, hcursor⟩ := Prod.mk.inj (Except.ok.inj (hrest.symm.trans hrest'))
      exact ⟨hcursor, rfl⟩

theorem Outgoing.of_none {key : HandshakeKey} {sent : List Packet} {written : Bytes}
    (h : Outgoing key none sent written) : sent = [] ∧ written = [] := by
  cases h
  exact ⟨rfl, rfl⟩

theorem Outgoing.greeted_first {key : HandshakeKey} {cursor : Option TransformCursor}
    {sent : List Packet} {written : Bytes} (h : Outgoing key cursor sent written)
    (hcursor : cursor ≠ none) : ∃ rest, sent = handshakePacket key :: rest := by
  cases h with
  | silent => exact absurd rfl hcursor
  | greeted hrest => exact ⟨_, rfl⟩

theorem Outgoing.append {key : HandshakeKey} {cursor cursor' : TransformCursor}
    {sent packets : List Packet} {written wire : Bytes} (h : Outgoing key (some cursor) sent written)
    (hwire : encodeFrames serverToClient (some cursor) packets = .ok (wire, some cursor')) :
    Outgoing key (some cursor') (sent ++ packets) (written ++ wire) := by
  cases h with
  | greeted hrest =>
    rw [List.cons_append, List.append_assoc]
    exact .greeted (encodeFrames_append hrest hwire)

namespace Connection
open Raising

theorem write_run {packet : Packet} (h : Sendable packet) (c : Connection) :
    (write packet).run c = (.ok (), { c with
      outboundCursor := (frameBytes packet serverToClient c.outboundCursor).2
      written := c.written ++ (frameBytes packet serverToClient c.outboundCursor).1
      sent := c.sent ++ [packet] }) := by
  unfold write
  rw [run_get_bind,
    run_bind_of_ok (run_liftM_of_ok (encodeFrame_of_fits (h.fits _) _) c)]
  rfl

/-- Under a transform a list of packets is written as its encoding. -/
theorem forM_write_run {packets : List Packet} (h : ∀ p ∈ packets, Sendable p) {c : Connection}
    {cursor : TransformCursor} (hc : c.outboundCursor = some cursor) :
    ∃ wire cursor', encodeFrames serverToClient (some cursor) packets = .ok (wire, some cursor') ∧
      (packets.forM write).run c = (.ok (), { c with
        outboundCursor := some cursor'
        written := c.written ++ wire
        sent := c.sent ++ packets }) := by
  induction packets generalizing c cursor with
  | nil =>
    refine ⟨[], cursor, rfl, ?_⟩
    rw [← hc, List.append_nil, List.append_nil]
    rfl
  | cons packet packets ih =>
    have hpacket := h packet List.mem_cons_self
    obtain ⟨next, hnext⟩ := frameBytes_cursor packet serverToClient cursor
    have hrun := write_run hpacket c
    rw [hc, hnext] at hrun
    obtain ⟨wire, cursor', hwire, hrest⟩ := ih (fun p hp => h p (List.mem_cons_of_mem _ hp))
      (c := ((write packet).run c).2) (by rw [hrun])
    rw [hrun] at hrest
    refine ⟨_, cursor', encodeFrames_cons_eq_ok_iff.mpr
      ⟨hpacket.fits _, wire, by rw [hnext]; exact hwire, rfl⟩, ?_⟩
    change (write packet >>= fun _ => packets.forM write).run c = _
    rw [run_bind_of_ok hrun, hrest]
    simp only [List.append_assoc, List.singleton_append]

/-- What holds of a connection under a handshake key, whatever it has read. -/
structure Sound (key : HandshakeKey) (c : Connection) : Prop where
  direction : c.decoder.direction = clientToServer
  handshake : c.session.handshake = key
  fits : c.session.RevisionFits
  waiting : c.session.state = .awaitClientE5 ↔ c.outboundCursor = none
  inbound : c.decoder.cursor = none ↔ c.outboundCursor = none
  outgoing : Outgoing key c.outboundCursor c.sent c.written
  sendable : ∀ p ∈ c.sent, Sendable p

theorem start_sound (config : ServerConfig) (key : HandshakeKey) :
    Sound key (start config key) where
  direction := rfl
  handshake := rfl
  fits := config.revision_range
  waiting := by simp [start, LoginSession.create]
  inbound := by simp [start]
  outgoing := .silent
  sendable := by simp [start]

theorem enableTransform_run {c : Connection} (transform : ByteTransform)
    (hin : c.decoder.cursor = none) (hout : c.outboundCursor = none) :
    (enableTransform transform).run c = (.ok (), { c with
      decoder := { c.decoder with cursor := some transform.cursor }
      outboundCursor := some transform.cursor }) := by
  unfold enableTransform
  rw [run_get_bind]
  rw [run_bind_of_ok (show (raiseIf (c.decoder.cursor ≠ none ∨ c.outboundCursor ≠ none)
    (.runtimeError "transform was enabled more than once") : ConnectionM Unit).run c =
      (.ok (), c) by simp only [hin, hout, raiseIf]; rfl)]
  rfl

theorem callHandle_run {c : Connection} {packet : Packet} {r : Except PyError SessionOutcome}
    {s' : LoginSession} (h : (LoginSession.handle packet).run c.session = (r, s')) :
    (callHandle packet).run c =
      (r, { c with session := s', handled := c.handled ++ [packet] }) := by
  change (((LoginSession.handle packet).run c.session).1, _) = _
  rw [h]

/-- The handshake is answered with one frame in clear, then both cursors are installed. -/
theorem serve_handshake {key : HandshakeKey} {c : Connection} {packet : Packet}
    {s' : LoginSession} (hin : c.decoder.cursor = none) (hout : c.outboundCursor = none)
    (hrun : (LoginSession.handle packet).run c.session =
      (.ok ⟨[handshakePacket key], some key.transform⟩, s')) :
    (serve packet).run c = (.ok (), {
      decoder := { c.decoder with cursor := some key.transform.cursor }
      outboundCursor := some key.transform.cursor
      session := s'
      written := c.written ++ (frameBytes (handshakePacket key) serverToClient none).1
      handled := c.handled ++ [packet]
      sent := c.sent ++ [handshakePacket key] }) := by
  have hwrite := write_run (handshakePacket_sendable key)
    { c with session := s', handled := c.handled ++ [packet] }
  have hcursor : (frameBytes (handshakePacket key) serverToClient none).2 = none := rfl
  simp only [hout, hcursor] at hwrite
  have hwrites := (run_bind_of_ok (f := fun _ => pure PUnit.unit) hwrite).trans rfl
  unfold serve
  rw [run_bind_of_ok (callHandle_run hrun)]
  simp only [hout]
  exact (run_bind_of_ok hwrites).trans (enableTransform_run key.transform hin rfl)

/-- An accepted packet is answered in full, and the connection stays sound. -/
theorem serve_accepted {key : HandshakeKey} {c : Connection} (hc : Sound key c) {packet : Packet}
    {command : Command} {outcome : SessionOutcome} {s' : LoginSession}
    (hanswer : LoginSession.Answers c.session command outcome s')
    (hrun : (LoginSession.handle packet).run c.session = (.ok outcome, s')) :
    ∃ c', (serve packet).run c = (.ok (), c') ∧ Sound key c' ∧
      c'.decoder = { c.decoder with cursor := outcome.cursorAfter c.decoder.cursor } ∧
      c'.session = s' ∧ c'.handled = c.handled ++ [packet] ∧
      c'.sent = c.sent ++ outcome.outbound := by
  obtain ⟨hdirection, hkey, hfits, hwaiting, hinbound, houtgoing, hsendable⟩ := hc
  have hresponses := hanswer.sendable hfits
  obtain ⟨hstate', -, hnone⟩ := hanswer.enableTransform
  obtain ⟨hrevision, -, hhandshake⟩ := hanswer.configuration
  have hfits' : s'.RevisionFits := by
    rw [LoginSession.RevisionFits, hrevision]
    exact hfits
  have hsent : ∀ p ∈ c.sent ++ outcome.outbound, Sendable p := by
    intro p hp
    rcases List.mem_append.mp hp with hp | hp
    · exact hsendable p hp
    · exact hresponses p hp
  cases hcursor : c.outboundCursor with
  | none =>
    -- Nothing has been sent, and the handshake is the only answer there is.
    obtain rfl := hanswer.of_await (hwaiting.mpr hcursor)
    rw [hkey] at hrun hsent ⊢
    rw [hcursor] at houtgoing
    obtain ⟨hsilent, hunwritten⟩ := houtgoing.of_none
    refine ⟨_, serve_handshake (hinbound.mpr hcursor) hcursor hrun, ?_, rfl, rfl, rfl, rfl⟩
    refine ⟨hdirection, hhandshake.trans hkey, hfits', by simp [hstate'], by simp, ?_, hsent⟩
    rw [hsilent, hunwritten, List.nil_append, ← List.append_nil (frameBytes _ _ _).1]
    exact .greeted rfl
  | some cursor =>
    -- The session is past the handshake, so the outcome enables nothing.
    have hstate : c.session.state ≠ .awaitClientE5 := by
      rw [Ne, hwaiting, hcursor]
      simp
    obtain ⟨wire, cursor', hwire, hwrite⟩ := forM_write_run hresponses
      (c := { c with session := s', handled := c.handled ++ [packet] }) hcursor
    rw [hcursor] at houtgoing
    unfold serve
    rw [run_bind_of_ok (callHandle_run hrun), run_bind_of_ok hwrite, SessionOutcome.cursorAfter,
      hnone hstate]
    refine ⟨_, rfl, ?_, rfl, rfl, rfl, rfl⟩
    refine ⟨hdirection, hhandshake.trans hkey, hfits', by simp [hstate'], ?_,
      houtgoing.append hwire, hsent⟩
    simp [hinbound, hcursor]

/-- Serving a packet on a sound connection: the session rejects it and nothing is written, or
it is answered in full. -/
theorem serve_cases {key : HandshakeKey} {c : Connection} (hc : Sound key c) (packet : Packet) :
    (∃ text, (LoginSession.handle packet).run c.session =
        (.error (.sessionProtocolError text), c.session) ∧
      (serve packet).run c =
        (.error (.sessionProtocolError text), { c with handled := c.handled ++ [packet] })) ∨
    ∃ outcome c', (LoginSession.handle packet).run c.session = (.ok outcome, c'.session) ∧
      (serve packet).run c = (.ok (), c') ∧ Sound key c' ∧
      c'.decoder = { c.decoder with cursor := outcome.cursorAfter c.decoder.cursor } ∧
      c'.handled = c.handled ++ [packet] ∧ c'.sent = c.sent ++ outcome.outbound := by
  have h := LoginSession.handle_handled c.session packet
  generalize hrun : (LoginSession.handle packet).run c.session = answer at h
  cases h with
  | rejected text =>
    refine .inl ⟨text, rfl, ?_⟩
    unfold serve
    rw [run_bind_of_error (callHandle_run hrun)]
  | accepted hcommand hanswer =>
    obtain ⟨c', hserve, hsound, hdecoder, rfl, hhandled, hsent⟩ :=
      serve_accepted hc (LoginSession.answers_of_answer hanswer) hrun
    exact .inr ⟨_, c', rfl, hserve, hsound, hdecoder, hhandled, hsent⟩
  | unfit text hfits => exact absurd hc.fits hfits

/-- The connection with input appended to the decoder's buffer. -/
def buffered (c : Connection) (data : Bytes) : Connection :=
  { c with decoder := { c.decoder with buffer := c.decoder.buffer ++ data } }

/-- The connection with one frame taken out of the decoder. -/
def scanned (c : Connection) (cursor : Option TransformCursor) (rest : Bytes) : Connection :=
  { c with decoder := { c.decoder with cursor := cursor, buffer := rest } }

theorem Sound.buffered {key : HandshakeKey} {c : Connection} (h : Sound key c) (data : Bytes) :
    Sound key (c.buffered data) := { h with }

theorem Sound.scanned {key : HandshakeKey} {c : Connection} (h : Sound key c)
    {cursor : Option TransformCursor} {data rest : Bytes} {packet : Packet}
    (hscan : scanFrame c.decoder.direction c.decoder.maxPayloadBytes c.decoder.cursor
      (c.decoder.buffer ++ data) = .frame packet cursor rest) : Sound key (c.scanned cursor rest) := by
  obtain ⟨-, -, wire, hframe, -⟩ := frameBytes_of_scanFrame hscan
  have hnone : cursor = none ↔ c.decoder.cursor = none := by
    cases hcursor : c.decoder.cursor with
    | none =>
      rw [hcursor] at hframe
      have hcleared : (frameBytes packet c.decoder.direction none).2 = none := rfl
      rw [hframe] at hcleared
      simp [show cursor = none from hcleared]
    | some before =>
      rw [hcursor] at hframe
      obtain ⟨after, hafter⟩ := frameBytes_cursor packet c.decoder.direction before
      rw [hframe] at hafter
      simp [show cursor = some after from hafter]
  exact { h with inbound := hnone.trans h.inbound }

/-- What the inner loop can do with a connection and the input that has come in. -/
inductive Reads (key : HandshakeKey) : Connection → Bytes → Except PyError Unit → Connection → Prop
  | more {c : Connection} {data : Bytes}
      (hscan : scanFrame c.decoder.direction c.decoder.maxPayloadBytes c.decoder.cursor
        (c.decoder.buffer ++ data) = .more) : Reads key c data (.ok ()) (c.buffered data)
  | oversized {c : Connection} {data : Bytes} {size : Nat}
      (hscan : scanFrame c.decoder.direction c.decoder.maxPayloadBytes c.decoder.cursor
        (c.decoder.buffer ++ data) = .oversized size) :
      Reads key c data (.error (c.decoder.oversizedError size)) (c.buffered data)
  | rejected {c : Connection} {data rest : Bytes} {packet : Packet}
      {cursor : Option TransformCursor} {text : String}
      (hscan : scanFrame c.decoder.direction c.decoder.maxPayloadBytes c.decoder.cursor
        (c.decoder.buffer ++ data) = .frame packet cursor rest)
      (hhandle : (LoginSession.handle packet).run c.session =
        (.error (.sessionProtocolError text), c.session)) :
      Reads key c data (.error (.sessionProtocolError text))
        { c.scanned cursor rest with handled := c.handled ++ [packet] }
  | accepted {c c' d : Connection} {data rest : Bytes} {packet : Packet}
      {cursor : Option TransformCursor} {outcome : SessionOutcome} {r : Except PyError Unit}
      (hscan : scanFrame c.decoder.direction c.decoder.maxPayloadBytes c.decoder.cursor
        (c.decoder.buffer ++ data) = .frame packet cursor rest)
      (hhandle : (LoginSession.handle packet).run c.session = (.ok outcome, c'.session))
      (hsound : Sound key c')
      (hdecoder : c'.decoder =
        { c.decoder with cursor := outcome.cursorAfter cursor, buffer := rest })
      (hhandled : c'.handled = c.handled ++ [packet])
      (hsent : c'.sent = c.sent ++ outcome.outbound)
      (hrest : Reads key c' [] r d) : Reads key c data r d

theorem serveInput_reads {key : HandshakeKey} (data : Bytes) (c : Connection) (hc : Sound key c) :
    Reads key c data (serveInput data c).1 (serveInput data c).2 := by
  fun_induction serveInput data c with
  | case1 data c e decoder h =>
    rw [FrameStreamDecoder.feed_one] at h
    split at h <;> cases h
    exact .oversized ‹_›
  | case2 data c decoder h =>
    rw [FrameStreamDecoder.feed_one] at h
    split at h <;> cases h
    exact .more ‹_›
  | case3 data c packet packets decoder h e c' hs =>
    rw [FrameStreamDecoder.feed_one] at h
    split at h <;> cases h
    have hscan := ‹scanFrame _ _ _ _ = _›
    rcases serve_cases (hc.scanned hscan) packet with ⟨text, hhandle, hserve⟩ |
      ⟨outcome, c'', -, hserve, -⟩ <;> cases hs.symm.trans hserve
    exact .rejected hscan hhandle
  | case4 data c packet packets decoder h c' hs ih =>
    rw [FrameStreamDecoder.feed_one] at h
    split at h <;> cases h
    have hscan := ‹scanFrame _ _ _ _ = _›
    rcases serve_cases (hc.scanned hscan) packet with ⟨text, -, hserve⟩ |
      ⟨outcome, c'', hhandle, hserve, hsound, hdecoder, hhandled, hsent⟩ <;>
      cases hs.symm.trans hserve
    exact .accepted hscan hhandle hsound hdecoder hhandled hsent (ih hsound)

/-- The inner loop keeps the connection sound and ends in protocol errors only. -/
theorem Reads.sound {key : HandshakeKey} {c d : Connection} {data : Bytes}
    {r : Except PyError Unit} (h : Reads key c data r d) (hc : Sound key c) :
    Sound key d ∧ ∀ e, r = .error e → e.isProtocolError := by
  induction h with
  | more hscan => exact ⟨hc.buffered _, fun e he => nomatch he⟩
  | oversized hscan =>
    refine ⟨hc.buffered _, fun e he => ?_⟩
    cases he
    rfl
  | rejected hscan hhandle =>
    refine ⟨{ hc.scanned hscan with }, fun e he => ?_⟩
    cases he
    rfl
  | accepted hscan hhandle hsound hdecoder hhandled hsent hrest ih => exact ih hsound

/-- A heartbeat is one more packet under the transform, and nothing without one. -/
theorem heartbeat_cases {key : HandshakeKey} {c : Connection} (hc : Sound key c) :
    ∃ c', heartbeat.run c = (.ok (), c') ∧ Sound key c' ∧ c'.decoder = c.decoder ∧
      c'.session = c.session ∧ c'.handled = c.handled := by
  unfold heartbeat
  rw [run_get_bind]
  cases hcursor : c.outboundCursor with
  | none => exact ⟨c, rfl, hc, rfl, rfl, rfl⟩
  | some cursor =>
    rw [if_neg (by simp)]
    change ∃ c', (write heartbeatPacket).run c = _ ∧ _
    obtain ⟨next, hnext⟩ := frameBytes_cursor heartbeatPacket serverToClient cursor
    have hwire : encodeFrames serverToClient (some cursor) [heartbeatPacket] =
        .ok ((frameBytes heartbeatPacket serverToClient (some cursor)).1, some next) := by
      refine encodeFrames_cons_eq_ok_iff.mpr ⟨heartbeatPacket_sendable.fits _, [], ?_, by simp⟩
      rw [hnext]
      rfl
    rw [write_run heartbeatPacket_sendable, hcursor, hnext]
    refine ⟨_, rfl, ?_, rfl, rfl, rfl⟩
    have hout := hc.outgoing
    rw [hcursor] at hout
    refine ⟨hc.direction, hc.handshake, hc.fits, ?_, ?_, hout.append hwire, ?_⟩
    · simp [hc.waiting, hcursor]
    · simp [hc.inbound, hcursor]
    · intro p hp
      rcases List.mem_append.mp hp with hp | hp
      · exact hc.sendable p hp
      · rw [List.mem_singleton.mp hp]
        exact heartbeatPacket_sendable

/-- A connection is sound after any events, and none of them ends it in an internal error. -/
theorem handleClient_sound {key : HandshakeKey} (events : List ReadEvent) {c : Connection}
    (hc : Sound key c) :
    Sound key (handleClient events c).2 ∧
      ∀ e, (handleClient events c).1 ≠ some (.internalError e) := by
  fun_induction handleClient events c with
  | case1 c => exact ⟨hc, fun e he => nomatch he⟩
  | case2 events c e c' h =>
    obtain ⟨c'', hrun, -⟩ := heartbeat_cases hc
    cases h.symm.trans hrun
  | case3 events c c' h ih =>
    obtain ⟨c'', hrun, hsound, -⟩ := heartbeat_cases hc
    cases h.symm.trans hrun
    exact ih hsound
  | case4 events c => exact ⟨hc, fun e he => nomatch he⟩
  | case5 byte chunk events c e c' h =>
    have hreads := serveInput_reads (byte :: chunk) c hc
    rw [h] at hreads
    obtain ⟨hsound, hprotocol⟩ := hreads.sound hc
    refine ⟨hsound, fun e' he => ?_⟩
    simp [Ending.ofError, hprotocol e rfl] at he
  | case6 byte chunk events c c' h ih =>
    have hreads := serveInput_reads (byte :: chunk) c hc
    rw [h] at hreads
    exact ih (hreads.sound hc).1

end Connection

/-- A session's first accepted packet is an empty 0xE5 and its outcome the only one that enables
a transform; the state never goes back; an area list is sent in `ACCOUNT_PANEL_READY` only. So a
connection never enables its transform twice: no events end it in an internal error. -/
theorem handshake_safety (key : HandshakeKey) (revision : Option Int) (areaPush : Bool)
    (packets : List Packet) :
    let s := LoginSession.create key revision areaPush
    (s.acceptedOutcomes packets = [] ∨ ∃ outcome rest,
      s.acceptedOutcomes packets = (⟨0xE5, []⟩, outcome) :: rest ∧
      outcome.enableTransform.isSome ∧ ∀ x ∈ rest, x.2.enableTransform = none) ∧
    (s.state :: (s.exchanges packets).map (·.after.state)).Pairwise
      (fun earlier later => earlier.rank ≤ later.rank) ∧
    (∀ x ∈ s.exchanges packets, ∀ p ∈ x.outbound, p.command = 0xE4 →
      x.after.state = .accountPanelReady) ∧
    ∀ (config : ServerConfig) (events : List ReadEvent) (e : PyError),
      (Connection.handleClient events (Connection.start config key)).1 ≠
        some (.internalError e) := by
  intro s
  refine ⟨?_, s.exchanges_rank_pairwise packets, ?_, ?_⟩
  · rcases LoginSession.acceptedOutcomes_handshake (s := s) rfl packets with
      hnone | ⟨outcome, rest, haccepted, henable, hrest⟩
    · exact .inl hnone
    · exact .inr ⟨outcome, rest, haccepted, by rw [henable]; rfl, hrest⟩
  · intro x hx p hp harea
    exact LoginSession.exchanges_area_ready hx hp harea
  · intro config events
    exact (Connection.handleClient_sound events (Connection.start_sound config key)).2

end Army3
