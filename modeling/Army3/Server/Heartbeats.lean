import Army3.Server.InboundStream

/-! A connection with timeouts against the same connection without them. -/

namespace Army3
open FrameDirection

def withoutHeartbeats (packets : List Packet) : List Packet :=
  packets.filter fun p => p ≠ heartbeatPacket

theorem withoutHeartbeats_append (packets more : List Packet) :
    withoutHeartbeats (packets ++ more) = withoutHeartbeats packets ++ withoutHeartbeats more :=
  List.filter_append ..

theorem withoutHeartbeats_eq_self {packets : List Packet}
    (h : ∀ p ∈ packets, p.command ≠ Command.heartbeat.value) :
    withoutHeartbeats packets = packets := by
  refine List.filter_eq_self.mpr fun p hp => ?_
  have hne : p ≠ heartbeatPacket := fun heq => h p hp (congrArg Packet.command heq)
  exact decide_eq_true hne

namespace LoginSession

/-- The session itself sends no heartbeat. -/
theorem Answers.not_heartbeat {s s' : LoginSession} {command : Command} {outcome : SessionOutcome}
    (h : Answers s command outcome s') :
    ∀ p ∈ outcome.outbound, p.command ≠ Command.heartbeat.value := by
  intro p hp
  cases h with
  | handshake hstate =>
    rw [List.mem_singleton.mp hp]
    intro heq
    cases heq
  | silent | settled => cases hp
  | reply hstate hreply =>
    obtain ⟨hcommand, hmem⟩ := replies_command hreply
    rw [List.mem_singleton.mp hp, hcommand]
    intro heq
    rw [Command.value_injective heq] at hmem
    simp at hmem
  | greet hstate =>
    have hmem := List.mem_map_of_mem (f := Packet.command) hp
    rw [greeting_commands] at hmem
    intro heq
    rw [heq] at hmem
    split at hmem <;> simp [Command.value] at hmem
  | enter hstate =>
    have hmem := List.mem_map_of_mem (f := Packet.command) hp
    rw [areaPush_commands] at hmem
    intro heq
    rw [heq] at hmem
    split at hmem <;> simp [Command.value] at hmem
  | session hstate | area hstate =>
    rw [List.mem_singleton.mp hp]
    intro heq
    cases heq

end LoginSession

namespace Connection

/-- The second connection is as the first, but has sent no heartbeats. -/
structure Quiet (c d : Connection) : Prop where
  decoder : d.decoder = c.decoder
  session : d.session = c.session
  handled : d.handled = c.handled
  sent : d.sent = withoutHeartbeats c.sent

/-- The inner loop does the same with both. -/
theorem Reads.quiet {key : HandshakeKey} {c c' d d' : Connection} {data : Bytes}
    {r r' : Except PyError Unit} (h : Reads key c data r c') (hquiet : Quiet c d)
    (h' : Reads key d data r' d') : r' = r ∧ Quiet c' d' := by
  induction h generalizing d d' r' with
  | more hscan =>
    cases h' with
    | more hscan' =>
      refine ⟨rfl, ?_, hquiet.session, hquiet.handled, hquiet.sent⟩
      simp only [buffered, hquiet.decoder]
    | oversized hscan' | rejected hscan' | accepted hscan' =>
      rw [hquiet.decoder] at hscan'
      cases hscan.symm.trans hscan'
  | oversized hscan =>
    cases h' with
    | oversized hscan' =>
      rw [hquiet.decoder] at hscan' ⊢
      cases hscan.symm.trans hscan'
      refine ⟨rfl, ?_, hquiet.session, hquiet.handled, hquiet.sent⟩
      simp only [buffered, hquiet.decoder]
    | more hscan' | rejected hscan' | accepted hscan' =>
      rw [hquiet.decoder] at hscan'
      cases hscan.symm.trans hscan'
  | rejected hscan hhandle =>
    cases h' with
    | rejected hscan' hhandle' =>
      rw [hquiet.decoder] at hscan'
      cases hscan.symm.trans hscan'
      rw [hquiet.session] at hhandle'
      cases hhandle.symm.trans hhandle'
      refine ⟨rfl, ?_, hquiet.session, ?_, hquiet.sent⟩
      · simp only [scanned, hquiet.decoder]
      · simp only [hquiet.handled]
    | accepted hscan' hhandle' =>
      rw [hquiet.decoder] at hscan'
      cases hscan.symm.trans hscan'
      rw [hquiet.session] at hhandle'
      cases hhandle.symm.trans hhandle'
    | more hscan' | oversized hscan' =>
      rw [hquiet.decoder] at hscan'
      cases hscan.symm.trans hscan'
  | @accepted c c₁ c₂ data rest packet cursor outcome r hscan hhandle hsound hdecoder hhandled hsent
      hrest ih =>
    cases h' with
    | @accepted _ d₁ _ _ _ _ _ _ _ hscan' hhandle' hsound' hdecoder' hhandled' hsent' hrest' =>
      rw [hquiet.decoder] at hscan'
      cases hscan.symm.trans hscan'
      rw [hquiet.session] at hhandle'
      obtain ⟨houtcome, hsession⟩ := Prod.mk.inj (hhandle.symm.trans hhandle')
      cases houtcome
      obtain ⟨command, hanswers⟩ := LoginSession.answers_of_handle hhandle
      refine ih ⟨?_, hsession.symm, ?_, ?_⟩ hrest'
      · rw [hdecoder', hdecoder, hquiet.decoder]
      · rw [hhandled', hhandled, hquiet.handled]
      · rw [hsent', hsent, hquiet.sent, withoutHeartbeats_append,
          withoutHeartbeats_eq_self hanswers.not_heartbeat]
    | rejected hscan' hhandle' =>
      rw [hquiet.decoder] at hscan'
      cases hscan.symm.trans hscan'
      rw [hquiet.session] at hhandle'
      cases hhandle.symm.trans hhandle'
    | more hscan' | oversized hscan' =>
      rw [hquiet.decoder] at hscan'
      cases hscan.symm.trans hscan'

theorem heartbeat_sent (c : Connection) :
    (heartbeat.run c).2.sent =
      c.sent ++ if c.outboundCursor = none then [] else [heartbeatPacket] := by
  unfold heartbeat
  rw [Raising.run_get_bind]
  split
  · exact (List.append_nil _).symm
  · change ((write heartbeatPacket).run c).2.sent = _
    rw [write_run heartbeatPacket_sendable]

/-- A timeout changes nothing but what has been sent, and that by one heartbeat at most. -/
theorem Quiet.heartbeat {key : HandshakeKey} {c d : Connection} (hquiet : Quiet c d)
    (hc : Sound key c) : Quiet (heartbeat.run c).2 d := by
  obtain ⟨c', hrun, -, hdecoder, hsession, hhandled⟩ := heartbeat_cases hc
  have hsent := heartbeat_sent c
  rw [hrun] at hsent ⊢
  refine ⟨hquiet.decoder.trans hdecoder.symm, hquiet.session.trans hsession.symm,
    hquiet.handled.trans hhandled.symm, ?_⟩
  rw [hquiet.sent, hsent, withoutHeartbeats_append]
  split
  · exact (List.append_nil _).symm
  · exact (List.append_nil _).symm

/-- The run with the timeouts and the run without end alike and differ in the heartbeats only. -/
theorem handleClient_quiet {key : HandshakeKey} (events : List ReadEvent) {c d : Connection}
    (hc : Sound key c) (hd : Sound key d) (hquiet : Quiet c d) :
    (handleClient (events.filter (· ≠ .timeout)) d).1 = (handleClient events c).1 ∧
      Quiet (handleClient events c).2 (handleClient (events.filter (· ≠ .timeout)) d).2 := by
  fun_induction handleClient events c generalizing d with
  | case1 c => exact ⟨rfl, hquiet⟩
  | case2 events c e c' h =>
    obtain ⟨c'', hrun, -⟩ := heartbeat_cases hc
    cases h.symm.trans hrun
  | case3 events c c' h ih =>
    obtain ⟨c'', hrun, hsound, -⟩ := heartbeat_cases hc
    cases h.symm.trans hrun
    have hnext := hquiet.heartbeat hc
    rw [h] at hnext
    exact ih hsound hd hnext
  | case4 events c => exact ⟨rfl, hquiet⟩
  | case5 byte chunk events c e c' h =>
    have hreads := serveInput_reads (byte :: chunk) c hc
    have hreads' := serveInput_reads (byte :: chunk) d hd
    rw [h] at hreads
    obtain ⟨hresult, hnext⟩ := hreads.quiet hquiet hreads'
    rw [List.filter_cons_of_pos (by simp)]
    simp only [handleClient]
    generalize serveInput (byte :: chunk) d = answer at hresult hnext
    obtain ⟨r, d'⟩ := answer
    cases hresult
    exact ⟨rfl, hnext⟩
  | case6 byte chunk events c c' h ih =>
    have hreads := serveInput_reads (byte :: chunk) c hc
    have hreads' := serveInput_reads (byte :: chunk) d hd
    rw [h] at hreads
    obtain ⟨hresult, hnext⟩ := hreads.quiet hquiet hreads'
    have hsound' := (hreads'.sound hd).1
    rw [List.filter_cons_of_pos (by simp)]
    simp only [handleClient]
    generalize serveInput (byte :: chunk) d = answer at hresult hnext hsound'
    obtain ⟨r, d'⟩ := answer
    cases hresult
    exact ih (hreads.sound hc).1 hsound' hnext

theorem filter_ne_timeout (events : List ReadEvent) :
    events.filter (· ≠ .timeout) = (events.filterMap ReadEvent.chunk?).map .data := by
  induction events with
  | nil => rfl
  | cons event events ih =>
    cases event with
    | data chunk => exact congrArg (.data chunk :: ·) ih
    | timeout => exact ih

/-- What has been sent besides the heartbeats is the session's answers to what was handled. -/
theorem withoutHeartbeats_sent (config : ServerConfig) (key : HandshakeKey)
    (events : List ReadEvent) :
    let c := (handleClient events (start config key)).2
    c.session = (start config key).session.afterPackets c.handled ∧
    withoutHeartbeats c.sent = (start config key).session.sent c.handled := by
  have hstart := start_sound config key
  obtain ⟨-, hquiet⟩ := handleClient_quiet events hstart hstart ⟨rfl, rfl, rfl, rfl⟩
  rw [filter_ne_timeout] at hquiet
  have hanswered : Answered (start config key).session (start config key) := ⟨rfl, rfl⟩
  obtain ⟨hsession, hsent⟩ := handleClient_answered (events.filterMap ReadEvent.chunk?) hstart
    hanswered
  rw [hquiet.handled, hquiet.session] at hsession
  rw [hquiet.handled, hquiet.sent] at hsent
  exact ⟨hsession, hsent⟩

/-- A read sends no heartbeat. -/
theorem Reads.heartbeats {key : HandshakeKey} {c d : Connection} {data : Bytes}
    {r : Except PyError Unit} (h : Reads key c data r d) :
    d.sent.count heartbeatPacket = c.sent.count heartbeatPacket := by
  induction h with
  | more | oversized | rejected => rfl
  | accepted hscan hhandle hsound hdecoder hhandled hsent hrest ih =>
    obtain ⟨command, hanswers⟩ := LoginSession.answers_of_handle hhandle
    have hnone := List.count_eq_zero.mpr
      fun hmem => hanswers.not_heartbeat heartbeatPacket hmem rfl
    rw [ih, hsent, List.count_append, hnone, Nat.add_zero]

theorem heartbeats_le_timeouts {key : HandshakeKey} (events : List ReadEvent) {c : Connection}
    (hc : Sound key c) :
    (handleClient events c).2.sent.count heartbeatPacket ≤
      c.sent.count heartbeatPacket + events.count .timeout := by
  fun_induction handleClient events c with
  | case1 c | case4 events c => exact Nat.le_add_right _ _
  | case2 events c e c' h =>
    obtain ⟨c'', hrun, -⟩ := heartbeat_cases hc
    cases h.symm.trans hrun
  | case3 events c c' h ih =>
    obtain ⟨c'', hrun, hsound, -⟩ := heartbeat_cases hc
    cases h.symm.trans hrun
    have hsent := heartbeat_sent c
    rw [h] at hsent
    have hone : c'.sent.count heartbeatPacket ≤ c.sent.count heartbeatPacket + 1 := by
      rw [hsent, List.count_append]
      split <;> simp
    have hrest := ih hsound
    rw [List.count_cons_self]
    omega
  | case5 byte chunk events c e c' h =>
    have hreads := serveInput_reads (byte :: chunk) c hc
    rw [h] at hreads
    rw [hreads.heartbeats]
    exact Nat.le_add_right _ _
  | case6 byte chunk events c c' h ih =>
    have hreads := serveInput_reads (byte :: chunk) c hc
    rw [h] at hreads
    have hrest := ih (hreads.sound hc).1
    rw [hreads.heartbeats] at hrest
    rw [List.count_cons_of_ne (by simp)]
    exact hrest

end Connection

/-- A timeout is answered by a heartbeat or by nothing, and disturbs nothing. With the timeouts
taken out, a connection ends alike with the same decoder, session and packets handled, and has
sent what the other sent less the heartbeats, of which there are no more than timeouts. -/
theorem timeouts_only_add_heartbeats (config : ServerConfig) (key : HandshakeKey)
    (events : List ReadEvent) :
    let run := Connection.handleClient events (.start config key)
    let quiet := Connection.handleClient (events.filter (· ≠ .timeout)) (.start config key)
    quiet.1 = run.1 ∧ quiet.2.decoder = run.2.decoder ∧
    quiet.2.session = run.2.session ∧ quiet.2.handled = run.2.handled ∧
    quiet.2.sent = withoutHeartbeats run.2.sent ∧
    run.2.sent.count heartbeatPacket ≤ events.count .timeout := by
  intro run quiet
  have hstart := Connection.start_sound config key
  obtain ⟨hending, hquiet⟩ := Connection.handleClient_quiet events hstart hstart
    ⟨rfl, rfl, rfl, rfl⟩
  have hcount := Connection.heartbeats_le_timeouts events hstart
  rw [show (Connection.start config key).sent.count heartbeatPacket = 0 from rfl,
    Nat.zero_add] at hcount
  exact ⟨hending, hquiet.decoder, hquiet.session, hquiet.handled, hquiet.sent, hcount⟩

end Army3
