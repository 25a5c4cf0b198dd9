import Army3.Framework.Roster
import Army3.Server.Heartbeats
import Army3.Server.OutboundStream
import Army3.Server.TransformSwitch

/-! The server: every client that connects gets a handler of its own. -/

namespace Army3
open FrameDirection

namespace LoginSession

theorem sent_append (s : LoginSession) (packets more : List Packet) :
    s.sent (packets ++ more) = s.sent packets ++ (s.afterPackets packets).sent more := by
  induction packets generalizing s with
  | nil => rfl
  | cons packet packets ih =>
    have htail := ih (s.exchange packet).after
    simp only [sent] at htail
    simp only [sent, List.cons_append, exchanges, List.flatMap_cons, htail, afterPackets,
      List.append_assoc]

theorem sent_prefix (s : LoginSession) {packets packets' : List Packet} (h : packets <+: packets') :
    s.sent packets <+: s.sent packets' := by
  obtain ⟨more, rfl⟩ := h
  exact ⟨_, (s.sent_append packets more).symm⟩

end LoginSession

namespace Connection

theorem Reads.handled_prefix {key : HandshakeKey} {c d : Connection} {data : Bytes}
    {r : Except PyError Unit} (h : Reads key c data r d) : c.handled <+: d.handled := by
  induction h with
  | more | oversized => exact List.prefix_rfl
  | rejected => exact List.prefix_append _ _
  | accepted hscan hhandle hsound hdecoder hhandled hsent hrest ih =>
    rw [hhandled] at ih
    exact (List.prefix_append _ _).trans ih

theorem handled_prefix {key : HandshakeKey} (events : List ReadEvent) {c : Connection}
    (hc : Sound key c) : c.handled <+: (handleClient events c).2.handled := by
  fun_induction handleClient events c with
  | case1 c | case4 events c => exact List.prefix_rfl
  | case2 events c e c' h =>
    obtain ⟨c'', hrun, -⟩ := heartbeat_cases hc
    cases h.symm.trans hrun
  | case3 events c c' h ih =>
    obtain ⟨c'', hrun, hsound, -, -, hhandled⟩ := heartbeat_cases hc
    cases h.symm.trans hrun
    rw [← hhandled]
    exact ih hsound
  | case5 byte chunk events c e c' h =>
    have hreads := serveInput_reads (byte :: chunk) c hc
    rw [h] at hreads
    exact hreads.handled_prefix
  | case6 byte chunk events c c' h ih =>
    have hreads := serveInput_reads (byte :: chunk) c hc
    rw [h] at hreads
    exact hreads.handled_prefix.trans (ih (hreads.sound hc).1)

/-- What has been handled stays handled. -/
theorem handled_prefix_append {key : HandshakeKey} (events more : List ReadEvent) {c : Connection}
    (hc : Sound key c) :
    (handleClient events c).2.handled <+: (handleClient (events ++ more) c).2.handled := by
  have hsound := (handleClient_sound events hc).1
  rw [handleClient_append]
  cases h : handleClient events c with
  | mk ending c' =>
    rw [h] at hsound
    cases ending with
    | none => exact handled_prefix more hsound
    | some ending => exact List.prefix_rfl

/-- What `handle` is called with for a client that writes its packets as `clientWire` does. -/
def calls (config : ServerConfig) (key : HandshakeKey) (packets : List Packet) : List Packet :=
  let greeted := ((LoginSession.handle ⟨0xE5, []⟩).run (start config key).session).2
  ⟨0xE5, []⟩ :: greeted.upToRejected packets

theorem handled_clientWire {config : ServerConfig} {key : HandshakeKey} {packets : List Packet}
    (hsize : ∀ packet ∈ packets, packet.payload.length ≤ config.maxPayloadBytes) {wire : Bytes}
    (hwire : clientWire key packets = .ok wire) {events : List ReadEvent} (hdata : .data [] ∉ events)
    (hall : (events.filterMap ReadEvent.chunk?).flatten = wire) :
    (handleClient events (start config key)).2.handled = calls config key packets := by
  obtain ⟨tail, cursor, htail, hbytes⟩ := clientWire_eq_ok key
    fun p hp => (hsize p hp).trans config.maxPayloadBytes_le
  cases hwire.symm.trans hbytes
  have hgreet := LoginSession.handle_e5 (s := (start config key).session) rfl
  have hfit : FitsFrame clientToServer ⟨Command.handshake.value, []⟩ :=
    fitsFrame_of_short (Nat.zero_le _) clientToServer
  have hscan := scanFrame_frameBytes hfit config.maxPayloadBytes (Nat.zero_le _) none tail
  have hnext := Inbound.step_of_accepted (s := (start config key).inbound) hscan hgreet
  obtain ⟨t, hsettles, hends⟩ := Inbound.settles_encodeFrames (s := ⟨some key.transform.cursor,
    { (start config key).session with state := .awaitInitialBb }, [⟨0xE5, []⟩]⟩) (by simp) htail hsize
  have hhandled : calls config key packets = [⟨0xE5, []⟩] ++
      LoginSession.upToRejected { (start config key).session with state := .awaitInitialBb } packets := by
    simp only [calls, hgreet, List.singleton_append]
  rw [hhandled]
  refine handled_of_settles hdata ?_ hends
  rw [hall]
  exact (PrefixMachine.Reaches.of_step hnext).settles hsettles

/-- As long as some of the wire is still to come, what has been handled is a part of it. -/
theorem handled_of_prefix {config : ServerConfig} {key : HandshakeKey} {packets : List Packet}
    (hsize : ∀ packet ∈ packets, packet.payload.length ≤ config.maxPayloadBytes) {wire : Bytes}
    (hwire : clientWire key packets = .ok wire) {events : List ReadEvent} (hdata : .data [] ∉ events)
    (hpart : (events.filterMap ReadEvent.chunk?).flatten <+: wire) :
    (handleClient events (start config key)).2.handled <+: calls config key packets := by
  obtain ⟨rest, hrest⟩ := hpart
  cases rest with
  | nil =>
    rw [List.append_nil] at hrest
    rw [handled_clientWire hsize hwire hdata hrest]
  | cons byte rest =>
    have hlater : .data [] ∉ events ++ [.data (byte :: rest)] := by simpa using hdata
    rw [← handled_clientWire hsize hwire hlater (by simpa [ReadEvent.chunk?] using hrest)]
    exact handled_prefix_append events _ (start_sound config key)

/-- The client reads the answers to what was handled, with heartbeats among them. -/
theorem peerReceive_answers (config : ServerConfig) (key : HandshakeKey) (events : List ReadEvent) :
    ∃ received, peerReceive (handleClient events (start config key)).2.written = .ok (received, 0) ∧
      withoutHeartbeats received = (start config key).session.sent
        (handleClient events (start config key)).2.handled := by
  obtain ⟨hsound, -⟩ := handleClient_sound events (start_sound config key)
  exact ⟨_, hsound.outgoing.peerReceive hsound.sendable, (withoutHeartbeats_sent config key events).2⟩

end Connection

/-- A call of `_handle_client`: how its body was left, if it has been, and its variables. -/
structure Handler where
  ending : Option Ending := none
  connection : Connection

/-- The next thing the handler's read comes back with; a handler that has returned reads no more. -/
def Handler.turn (h : Handler) (event : ReadEvent) : Handler :=
  match h.ending with
  | none =>
    let run := Connection.handleClient [event] h.connection
    ⟨run.1, run.2⟩
  | some _ => h

theorem Handler.turns_ended (events : List ReadEvent) (ending : Ending) (c : Connection) :
    events.foldl turn ⟨some ending, c⟩ = ⟨some ending, c⟩ := by
  induction events with
  | nil => rfl
  | cons event events ih => exact ih

theorem Handler.turns (events : List ReadEvent) (c : Connection) :
    events.foldl turn ⟨none, c⟩ =
      ⟨(Connection.handleClient events c).1, (Connection.handleClient events c).2⟩ := by
  induction events generalizing c with
  | nil => rfl
  | cons event events ih =>
    have hcut := Connection.handleClient_append [event] events c
    rw [List.singleton_append] at hcut
    rw [hcut, List.foldl_cons, turn]
    cases h : Connection.handleClient [event] c with
    | mk ending c' =>
      cases ending with
      | none => exact ih c'
      | some ending => exact turns_ended events ending c'

/-- A client connects, or the read of a handler comes back. -/
abbrev ServerEvent := RosterEvent ReadEvent

/-- `start_server` and what comes in, in any order; `_CONNECTION_IDS` numbers the handlers. -/
def startServer (config : ServerConfig) (key : HandshakeKey) (schedule : List ServerEvent) :
    Roster Handler :=
  Roster.run { connection := .start config key } Handler.turn {} schedule

/-- The handlers are numbered from 1 without a gap, and each is as if its client were the only one,
whatever the others send and in whatever order the reads come back. -/
theorem clients_served_apart (config : ServerConfig) (key : HandshakeKey)
    (schedule : List ServerEvent) :
    let server := startServer config key schedule
    server.members.map Prod.fst = List.range' 1 (Roster.joins schedule) ∧
    ∀ id handler, (id, handler) ∈ server.members ↔
      ∃ before after, schedule = before ++ .join :: after ∧ id = 1 + Roster.joins before ∧
        handler.ending =
          (Connection.handleClient (Roster.own id after) (.start config key)).1 ∧
        handler.connection =
          (Connection.handleClient (Roster.own id after) (.start config key)).2 := by
  intro server
  refine ⟨Roster.run_ids _ _ schedule, fun id handler => ?_⟩
  change _ ∈ (Roster.run _ _ _ _).members ↔ _
  rw [Roster.mem_run]
  refine exists_congr fun before => exists_congr fun after => and_congr_right fun _ =>
    and_congr_right fun _ => ?_
  rw [Handler.turns]
  obtain ⟨ending, connection⟩ := handler
  rw [Handler.mk.injEq]

/-- Whatever all the other clients do, a client that writes a list of packets reads back the answers
of a session to a first part of them, heartbeats aside; and to all of them, up to the first that the
session rejects, once the server has read what it wrote. -/
theorem every_client_answered (config : ServerConfig) (key : HandshakeKey)
    (before after : List ServerEvent) (packets : List Packet)
    (hsize : ∀ packet ∈ packets, packet.payload.length ≤ config.maxPayloadBytes) :
    let id := 1 + Roster.joins before
    let first := (Connection.start config key).session
    let answers := first.sent (Connection.calls config key packets)
    let reads := ((Roster.own id after).filterMap ReadEvent.chunk?).flatten
    ∃ wire, clientWire key packets = .ok wire ∧
      (.data [] ∉ Roster.own id after → reads <+: wire →
        ∃ handler received,
          (id, handler) ∈ (startServer config key (before ++ .join :: after)).members ∧
          peerReceive handler.connection.written = .ok (received, 0) ∧
          withoutHeartbeats received <+: answers ∧
          (reads = wire → withoutHeartbeats received = answers)) := by
  intro id first answers reads
  obtain ⟨tail, cursor, htail, hwire⟩ := clientWire_eq_ok key
    fun p hp => (hsize p hp).trans config.maxPayloadBytes_le
  refine ⟨_, hwire, fun hdata hpart => ?_⟩
  obtain ⟨received, hreceived, hanswers⟩ :=
    Connection.peerReceive_answers config key (Roster.own id after)
  refine ⟨_, received, (Roster.mem_run _ _).mpr ⟨before, after, rfl, rfl, rfl⟩, ?_, ?_, ?_⟩
  · rw [Handler.turns]
    exact hreceived
  · rw [hanswers]
    exact first.sent_prefix (Connection.handled_of_prefix hsize hwire hdata hpart)
  · intro hall
    rw [hanswers, Connection.handled_clientWire hsize hwire hdata hall]

/-- The second client; the first sends a bad handshake and leaves, and a read times out. -/
theorem every_client_answered_second :
    let config : ServerConfig := ⟨0xFFFF, some 5, true, by decide, by simp⟩
    let key : HandshakeKey := ⟨[0x10, 0x20], 7, by decide, by decide⟩
    let before : List ServerEvent := [.join, .act 1 (.data [0xE5, 0, 1, 9])]
    let after : List ServerEvent := [.act 2 (.data [229, 0, 0, 20]), .act 2 .timeout,
      .act 1 (.data []), .act 2 (.data [48, 16, 242, 16, 49, 25])]
    ∃ handler received,
      (2, handler) ∈ (startServer config key (before ++ .join :: after)).members ∧
      peerReceive handler.connection.written = .ok (received, 0) ∧
      withoutHeartbeats received = [handshakePacket key, preloginPacket] := by
  intro config key before after
  have hwire : clientWire key [⟨0xFD, []⟩, ⟨0xBB, [9]⟩] =
      .ok [229, 0, 0, 20, 48, 16, 242, 16, 49, 25] := by decide +kernel
  obtain ⟨wire, hok, hserved⟩ := every_client_answered config key before after
    [⟨0xFD, []⟩, ⟨0xBB, [9]⟩] (by decide)
  cases hok.symm.trans hwire
  obtain ⟨handler, received, hmem, hreceived, -, hall⟩ := hserved (by decide) (by decide)
  exact ⟨handler, received, hmem, hreceived, hall rfl⟩

end Army3
