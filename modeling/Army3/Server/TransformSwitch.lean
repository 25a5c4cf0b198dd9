import Army3.Protocol.FrameRoundTrip
import Army3.Server.InboundStream

namespace Army3
open FrameDirection

/-- What a client with these packets writes: an empty 0xE5 in clear, then the packets under the
transform of the handshake. -/
def clientWire (key : HandshakeKey) (packets : List Packet) : Except PyError Bytes := do
  let transform ← ByteTransform.fromSeed key.seed key.shift.toNat
  let hello ← encodeFrame ⟨Command.handshake.value, []⟩ clientToServer none
  let frames ← encodeFrames clientToServer (some transform.cursor) packets
  return hello.1 ++ frames.1

/-- The packets up to and including the first one that `handle` raises on. -/
def LoginSession.upToRejected (s : LoginSession) : List Packet → List Packet
  | [] => []
  | packet :: packets =>
    match (handle packet).run s with
    | (.ok _, s') => packet :: upToRejected s' packets
    | (.error _, _) => [packet]

theorem encodeFrames_of_short {packets : List Packet}
    (hsize : ∀ packet ∈ packets, packet.payload.length ≤ 0xFFFF) (direction : FrameDirection)
    (cursor : Option TransformCursor) :
    ∃ wire cursor', encodeFrames direction cursor packets = .ok (wire, cursor') := by
  induction packets generalizing cursor with
  | nil => exact ⟨[], cursor, rfl⟩
  | cons packet packets ih =>
    have hfit : FitsFrame direction packet :=
      fitsFrame_of_short (hsize packet List.mem_cons_self) direction
    obtain ⟨wire, cursor', hwire⟩ := ih (fun p hp => hsize p (List.mem_cons_of_mem _ hp))
      (frameBytes packet direction cursor).2
    exact ⟨_, cursor', encodeFrames_cons_eq_ok_iff.mpr ⟨hfit, wire, hwire, rfl⟩⟩

namespace Inbound
open LoginSession

/-- The machine on encoded packets: the session is given all of them, or those up to the first
that it rejects. -/
theorem settles_encodeFrames {maxPayloadBytes : Nat} {s : Inbound} {packets : List Packet}
    {wire : Bytes} {cursor' : Option TransformCursor}
    (hstate : s.session.state ≠ .awaitClientE5)
    (hwire : encodeFrames clientToServer s.cursor packets = .ok (wire, cursor'))
    (hsize : ∀ packet ∈ packets, packet.payload.length ≤ maxPayloadBytes) :
    ∃ t, (machine maxPayloadBytes).Settles (s, wire) t ∧
      (((machine maxPayloadBytes).step t.1 t.2 = .wait ∧
          t.1.handled = s.handled ++ s.session.upToRejected packets) ∨
        ∃ e s' rest, (machine maxPayloadBytes).step t.1 t.2 = .halt e s' rest ∧
          s'.handled = s.handled ++ s.session.upToRejected packets) := by
  induction packets generalizing s wire with
  | nil =>
    cases hwire
    have hwait := machine_step_nil maxPayloadBytes s
    refine ⟨(s, []), ⟨.refl _, PrefixMachine.settled_of_wait hwait⟩, .inl ⟨hwait, ?_⟩⟩
    rw [upToRejected, List.append_nil]
  | cons packet packets ih =>
    obtain ⟨hfit, tail, htail, rfl⟩ := encodeFrames_cons_eq_ok_iff.mp hwire
    have hscan := scanFrame_frameBytes hfit maxPayloadBytes (hsize packet List.mem_cons_self)
      s.cursor tail
    cases hrun : (handle packet).run s.session with
    | mk result session =>
      cases result with
      | ok outcome =>
        obtain ⟨command, hanswers⟩ := answers_of_handle hrun
        obtain ⟨hstate', -, hnone⟩ := hanswers.enableTransform
        -- No second transform is enabled: the machine keeps the encoder's cursor.
        have hnext := step_of_accepted hscan hrun
        simp only [SessionOutcome.cursorAfter, hnone hstate] at hnext
        obtain ⟨t, hsettles, hends⟩ := ih
          (s := ⟨(frameBytes packet clientToServer s.cursor).2, session, s.handled ++ [packet]⟩)
          hstate' htail (fun p hp => hsize p (List.mem_cons_of_mem _ hp))
        refine ⟨t, (PrefixMachine.Reaches.of_step hnext).settles hsettles, ?_⟩
        simpa only [upToRejected, hrun, List.append_assoc, List.singleton_append] using hends
      | error e =>
        have hhalt := step_of_rejected hscan hrun
        refine ⟨_, ⟨.refl _, PrefixMachine.settled_of_halt hhalt⟩, .inr ⟨e, _, _, hhalt, ?_⟩⟩
        simp only [upToRejected, hrun]

end Inbound

theorem clientWire_eq_ok (key : HandshakeKey) {packets : List Packet}
    (hsize : ∀ packet ∈ packets, packet.payload.length ≤ 0xFFFF) :
    ∃ tail cursor, encodeFrames clientToServer (some key.transform.cursor) packets =
        .ok (tail, cursor) ∧
      clientWire key packets =
        .ok ((frameBytes ⟨Command.handshake.value, []⟩ clientToServer none).1 ++ tail) := by
  obtain ⟨tail, cursor, htail⟩ :=
    encodeFrames_of_short hsize clientToServer (some key.transform.cursor)
  have hkey : ByteTransform.fromSeed key.seed key.shift.toNat = .ok key.transform :=
    ByteTransform.fromSeed_ok key.seed key.shift key.seed_pos key.seed_le
  have hfit : FitsFrame clientToServer ⟨Command.handshake.value, []⟩ :=
    fitsFrame_of_short (Nat.zero_le _) clientToServer
  have hhello := encodeFrame_of_fits hfit none
  refine ⟨tail, cursor, htail, ?_⟩
  simp only [clientWire, hkey, hhello, htail, bind, Except.bind, pure, Except.pure]

namespace Connection

/-- Where the machine ends on the whole stream, the connection has handled the same packets. -/
theorem handled_of_settles {config : ServerConfig} {key : HandshakeKey} {events : List ReadEvent}
    (hdata : .data [] ∉ events) {t : Inbound × Bytes} {packets : List Packet}
    (hsettles : (Inbound.machine config.maxPayloadBytes).Settles ((start config key).inbound,
      (events.filterMap ReadEvent.chunk?).flatten) t)
    (hends : ((Inbound.machine config.maxPayloadBytes).step t.1 t.2 = .wait ∧
        t.1.handled = packets) ∨
      ∃ e s' rest, (Inbound.machine config.maxPayloadBytes).step t.1 t.2 = .halt e s' rest ∧
        s'.handled = packets) :
    (handleClient events (start config key)).2.handled = packets := by
  have hwait := Inbound.machine_step_nil config.maxPayloadBytes (start config key).inbound
  obtain ⟨hmax, d, r, hserves, hended, -⟩ := handleClient_serves events (start_sound config key)
    hdata hwait
  obtain ⟨unread, hall, hunread⟩ := hserves.settles hwait
  have hsame := hsettles.unique hall
  subst hsame
  generalize handleClient events (start config key) = run at *
  cases hended with
  | waits hw =>
    rw [hmax] at hw
    rcases hunread with ⟨-, rfl⟩ | ⟨e, s', rest, hh⟩
    · rw [List.append_nil] at hends
      rcases hends with ⟨-, hhandled⟩ | ⟨e, s', rest, hh, -⟩
      · exact hhandled
      · cases hw.symm.trans hh
    · cases hw.symm.trans hh
  | halts hh =>
    rw [hmax] at hh
    have hlong := (Inbound.machine config.maxPayloadBytes).halt_append unread hh
    rcases hends with ⟨hw, -⟩ | ⟨e', s', rest, hh', hhandled⟩
    · cases hw.symm.trans hlong
    · obtain ⟨-, rfl, -⟩ := Verdict.halt.inj (hlong.symm.trans hh')
      exact hhandled

end Connection

/-- Switching the inbound transform on loses and garbles nothing. However the client's bytes are
cut into reads, and whenever the reads time out, `handle` is called with the 0xE5 and then with the
client's packets in order, up to and including the first one it rejects. -/
theorem transform_switch_exact (config : ServerConfig) (key : HandshakeKey)
    (packets : List Packet)
    (hsize : ∀ packet ∈ packets, packet.payload.length ≤ config.maxPayloadBytes) :
    ∃ wire, clientWire key packets = .ok wire ∧
      ∀ events : List ReadEvent, .data [] ∉ events →
        (events.filterMap ReadEvent.chunk?).flatten = wire →
        let first := (Connection.start config key).session
        let greeted := ((LoginSession.handle ⟨0xE5, []⟩).run first).2
        (Connection.handleClient events (.start config key)).2.handled =
          ⟨0xE5, []⟩ :: greeted.upToRejected packets := by
  obtain ⟨tail, cursor, htail, hwire⟩ := clientWire_eq_ok key
    fun p hp => (hsize p hp).trans config.maxPayloadBytes_le
  refine ⟨_, hwire, ?_⟩
  intro events hdata hcut first greeted
  have hgreet := LoginSession.handle_e5 (s := first) rfl
  have hafter : greeted = { first with state := .awaitInitialBb } := by
    simp only [greeted, hgreet]
  have hfit : FitsFrame clientToServer ⟨Command.handshake.value, []⟩ :=
    fitsFrame_of_short (Nat.zero_le _) clientToServer
  have hscan := scanFrame_frameBytes hfit config.maxPayloadBytes (Nat.zero_le _) none tail
  have hnext := Inbound.step_of_accepted (s := (Connection.start config key).inbound) hscan hgreet
  obtain ⟨t, hsettles, hends⟩ := Inbound.settles_encodeFrames
    (s := ⟨some key.transform.cursor, greeted, [⟨0xE5, []⟩]⟩) (by simp [hafter]) htail hsize
  refine Connection.handled_of_settles hdata ?_ hends
  rw [hcut]
  refine (PrefixMachine.Reaches.of_step hnext).settles ?_
  rw [hafter] at hsettles
  exact hsettles

/-- A two-byte key; the session rejects the second of three packets. -/
theorem transform_switch_exact_rejected_request :
    let config : ServerConfig := ⟨0xFFFF, some 5, true, by decide, by simp⟩
    let key : HandshakeKey := ⟨[0x10, 0x20], 7, by decide, by decide⟩
    ∃ wire, clientWire key [⟨0xFD, []⟩, ⟨0xBB, [9]⟩, ⟨0xE0, []⟩] = .ok wire ∧
      ∀ events : List ReadEvent, .data [] ∉ events →
        (events.filterMap ReadEvent.chunk?).flatten = wire →
        (Connection.handleClient events (.start config key)).2.handled =
          [⟨0xE5, []⟩, ⟨0xFD, []⟩, ⟨0xBB, [9]⟩] := by
  intro config key
  obtain ⟨wire, hwire, hhandled⟩ := transform_switch_exact config key
    [⟨0xFD, []⟩, ⟨0xBB, [9]⟩, ⟨0xE0, []⟩] (by decide)
  refine ⟨wire, hwire, ?_⟩
  intro events hdata hcut
  rw [hhandled events hdata hcut]
  decide

end Army3
