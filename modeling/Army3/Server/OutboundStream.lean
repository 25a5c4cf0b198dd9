import Army3.Protocol.FrameRoundTrip
import Army3.Server.ConnectionInvariant

namespace Army3
open FrameDirection

/-- The client's side of the stream: the first frame is read in clear, and the handshake in it
gives the transform of all the others. -/
def peerReceive (wire : Bytes) : Except PyError (List Packet × Nat) := do
  let decoder : FrameStreamDecoder := { direction := serverToClient }
  let first := decoder.feed wire (some 1)
  match ← first.1 with
  | [] => return ([], first.2.pendingBytes)
  | packet :: _ =>
    let handshake ← HandshakeResponse.decodePayload packet.payload
    let transform ← ByteTransform.fromSeed handshake.seed handshake.shift
    let decoder : FrameStreamDecoder := { first.2 with cursor := some transform.cursor }
    let rest := decoder.feed [] none
    return (packet :: (← rest.1), rest.2.pendingBytes)

/-- A decoder with the sender's cursor takes the whole encoding out of its buffer. -/
theorem FrameStreamDecoder.feed_encodeFrames {d : FrameStreamDecoder} {packets : List Packet}
    {cursor : Option TransformCursor}
    (hwire : encodeFrames d.direction d.cursor packets = .ok (d.buffer, cursor))
    (hmax : ∀ packet ∈ packets, packet.payload.length ≤ d.maxPayloadBytes) :
    ∃ d', d.feed [] none = (.ok packets, d') ∧ d'.pendingBytes = 0 := by
  have hreach : d.machine.Reaches ((d.cursor, []), d.buffer ++ []) ((cursor, [] ++ packets), []) :=
    reaches_of_encodeFrames hwire hmax [] []
  have hsettles : d.machine.Settles ((d.cursor, []), d.buffer ++ [] ++ [])
      ((cursor, [] ++ packets), []) :=
    ⟨by simpa using hreach, PrefixMachine.settled_of_wait (machine_step_nil d _)⟩
  obtain ⟨hfeed, -, hdone⟩ := feed_of_settles { data := [] } rfl hsettles
  obtain ⟨hs, hbuffer⟩ := hdone rfl rfl
  obtain ⟨-, hpackets⟩ := Prod.mk.inj hs
  simp only [List.nil_append] at hpackets
  rw [hpackets] at hfeed
  exact ⟨_, hfeed, by rw [pendingBytes, hbuffer, List.length_nil]⟩

/-- The client reads back what has been sent. -/
theorem Outgoing.peerReceive {key : HandshakeKey} {cursor : Option TransformCursor}
    {sent : List Packet} {written : Bytes} (h : Outgoing key cursor sent written)
    (hsendable : ∀ p ∈ sent, Sendable p) : peerReceive written = .ok (sent, 0) := by
  cases h with
  | silent =>
    rw [Army3.peerReceive, FrameStreamDecoder.feed_one, List.append_nil, scanFrame_nil]
    rfl
  | @greeted cursor rest tail hrest =>
    have hhandshake := handshakePacket_sendable key
    have hscan := scanFrame_frameBytes (hhandshake.fits serverToClient) 0xFFFF hhandshake.short none
      tail
    have hkey : ByteTransform.fromSeed key.seed key.shift.toNat = .ok key.transform :=
      ByteTransform.fromSeed_ok key.seed key.shift key.seed_pos key.seed_le
    obtain ⟨d', hfeed, hpending⟩ := FrameStreamDecoder.feed_encodeFrames
      (d := { direction := serverToClient, cursor := some key.transform.cursor, buffer := tail })
      hrest (fun p hp => (hsendable p (List.mem_cons_of_mem _ hp)).short)
    have hhead := FrameStreamDecoder.feed_one { direction := serverToClient }
      ((frameBytes (handshakePacket key) serverToClient none).1 ++ tail)
    simp only [List.nil_append, hscan] at hhead
    simp only [Army3.peerReceive, hhead, handshakePacket_decode, hkey, bind, Except.bind, hfeed,
      hpending, pure, Except.pure]

/-- Whatever comes in and whenever the reads time out, the client reads back the responses and
heartbeats that were written, in order and with nothing left over. The 0xE5 response comes first,
and all but the heartbeats are payloads of their classes. -/
theorem outbound_stream_decodable (config : ServerConfig) (key : HandshakeKey)
    (events : List ReadEvent) :
    let c := (Connection.handleClient events (Connection.start config key)).2
    peerReceive c.written = .ok (c.sent, 0) ∧
    (c.sent = [] ∧ c.written = [] ∨
      ∃ response rest, c.sent = response :: rest ∧ response.command = Command.handshake.value) ∧
    ∀ p ∈ c.sent, p.command ≠ Command.heartbeat.value → acceptedByItsClass p = true := by
  intro c
  obtain ⟨hsound, -⟩ := Connection.handleClient_sound events (Connection.start_sound config key)
  refine ⟨hsound.outgoing.peerReceive hsound.sendable, ?_, ?_⟩
  · have hout := hsound.outgoing
    change Outgoing key c.outboundCursor c.sent c.written at hout
    cases hcursor : c.outboundCursor with
    | none =>
      rw [hcursor] at hout
      exact .inl hout.of_none
    | some cursor =>
      obtain ⟨rest, hrest⟩ := hout.greeted_first (by simp [hcursor])
      exact .inr ⟨handshakePacket key, rest, hrest, rfl⟩
  · intro p hp hcommand
    apply (hsound.sendable p hp).accepted
    intro h
    subst h
    exact hcommand rfl

end Army3
