import Army3.Server.ConnectionInvariant

namespace Army3
open FrameDirection

/-- What the input has done to a connection: the inbound cursor, the session, and the packets
given to `handle`. -/
structure Inbound where
  cursor : Option TransformCursor
  session : LoginSession
  handled : List Packet

def Connection.inbound (c : Connection) : Inbound := ⟨c.decoder.cursor, c.session, c.handled⟩

/-- One packet off the stream and through the session. A header that declares too much and a
rejected packet halt. -/
def Inbound.step (maxPayloadBytes : Nat) (s : Inbound) (buffer : Bytes) :
    Verdict Inbound UInt8 PyError :=
  match scanFrame clientToServer maxPayloadBytes s.cursor buffer with
  | .more => .wait
  | .oversized size =>
    .halt (({ direction := clientToServer, maxPayloadBytes } : FrameStreamDecoder).oversizedError
      size) s buffer
  | .frame packet cursor rest =>
    match (LoginSession.handle packet).run s.session with
    | (.ok outcome, session) =>
      .next ⟨outcome.cursorAfter cursor, session, s.handled ++ [packet]⟩ rest
    | (.error e, session) => .halt e ⟨cursor, session, s.handled ++ [packet]⟩ rest

namespace Inbound

variable {maxPayloadBytes : Nat} {s : Inbound} {buffer rest : Bytes}

theorem step_of_more (h : scanFrame clientToServer maxPayloadBytes s.cursor buffer = .more) :
    step maxPayloadBytes s buffer = .wait := by
  rw [step, h]

theorem step_of_oversized {size : Nat}
    (h : scanFrame clientToServer maxPayloadBytes s.cursor buffer = .oversized size) :
    step maxPayloadBytes s buffer =
      .halt (({ direction := clientToServer, maxPayloadBytes } : FrameStreamDecoder).oversizedError
        size) s buffer := by
  rw [step, h]

theorem step_of_accepted {packet : Packet} {cursor : Option TransformCursor}
    {outcome : SessionOutcome} {session : LoginSession}
    (h : scanFrame clientToServer maxPayloadBytes s.cursor buffer = .frame packet cursor rest)
    (hhandle : (LoginSession.handle packet).run s.session = (.ok outcome, session)) :
    step maxPayloadBytes s buffer =
      .next ⟨outcome.cursorAfter cursor, session, s.handled ++ [packet]⟩ rest := by
  simp only [step, h, hhandle]

theorem step_of_rejected {packet : Packet} {cursor : Option TransformCursor} {e : PyError}
    {session : LoginSession}
    (h : scanFrame clientToServer maxPayloadBytes s.cursor buffer = .frame packet cursor rest)
    (hhandle : (LoginSession.handle packet).run s.session = (.error e, session)) :
    step maxPayloadBytes s buffer = .halt e ⟨cursor, session, s.handled ++ [packet]⟩ rest := by
  simp only [step, h, hhandle]

/-- A decided step was decided by the head of the buffer. -/
theorem step_append (more : Bytes) (h : step maxPayloadBytes s buffer ≠ .wait) :
    step maxPayloadBytes s (buffer ++ more) =
      match step maxPayloadBytes s buffer with
      | .wait => .wait
      | .next s' rest => .next s' (rest ++ more)
      | .halt e s' rest => .halt e s' (rest ++ more) := by
  cases hscan : scanFrame clientToServer maxPayloadBytes s.cursor buffer with
  | more => exact absurd (step_of_more hscan) h
  | oversized size =>
    rw [step_of_oversized hscan, step_of_oversized (scanFrame_oversized_append hscan more)]
  | frame packet cursor rest =>
    have hlong := scanFrame_append hscan more
    cases hrun : (LoginSession.handle packet).run s.session with
    | mk result session =>
      cases result with
      | ok outcome => rw [step_of_accepted hscan hrun, step_of_accepted hlong hrun]
      | error e => rw [step_of_rejected hscan hrun, step_of_rejected hlong hrun]

/-- The input side of a connection as a machine on the stream. -/
def machine (maxPayloadBytes : Nat) : PrefixMachine Inbound UInt8 PyError where
  step := step maxPayloadBytes
  next_append more h := by rw [step_append more (by rw [h]; simp), h]
  halt_append more h := by rw [step_append more (by rw [h]; simp), h]

theorem machine_step_nil (maxPayloadBytes : Nat) (s : Inbound) :
    (machine maxPayloadBytes).step s [] = .wait := by
  change step maxPayloadBytes s [] = .wait
  exact step_of_more (scanFrame_nil _ _ _)

end Inbound

def ReadEvent.chunk? : ReadEvent → Option Bytes
  | .data chunk => some chunk
  | .timeout => none

/-- How a connection is left when its inner loop ends so. -/
def Ending.ofResult : Except PyError Unit → Option Ending
  | .ok () => none
  | .error e => some (.ofError e)

theorem Ending.ofError_ne (e : PyError) : Ending.ofError e ≠ .clientClosed := by
  unfold Ending.ofError
  split <;> simp

namespace Connection

/-- The machine waits where the loop returned, or halts with what the loop raised. -/
inductive EndsAt (d : Connection) : Except PyError Unit → Inbound × Bytes → Prop
  | waits (hw : (Inbound.machine d.decoder.maxPayloadBytes).step d.inbound d.decoder.buffer = .wait) :
      EndsAt d (.ok ()) (d.inbound, d.decoder.buffer)
  | halts {t : Inbound × Bytes} {e : PyError}
      (hh : (Inbound.machine d.decoder.maxPayloadBytes).step t.1 t.2 =
        .halt e d.inbound d.decoder.buffer) : EndsAt d (.error e) t

/-- The inner loop runs the machine on what is buffered until it waits or halts. -/
theorem Reads.settles {key : HandshakeKey} {c d : Connection} {data : Bytes}
    {r : Except PyError Unit} (h : Reads key c data r d) (hc : Sound key c) :
    d.decoder.maxPayloadBytes = c.decoder.maxPayloadBytes ∧
    ∃ t, (Inbound.machine c.decoder.maxPayloadBytes).Settles
      (c.inbound, c.decoder.buffer ++ data) t ∧ EndsAt d r t := by
  induction h with
  | @more c data hscan =>
    rw [hc.direction] at hscan
    have hwait := Inbound.step_of_more (s := c.inbound) hscan
    exact ⟨rfl, _, ⟨.refl _, PrefixMachine.settled_of_wait hwait⟩, .waits hwait⟩
  | @oversized c data size hscan =>
    rw [hc.direction] at hscan
    have hhalt := Inbound.step_of_oversized (s := c.inbound) hscan
    exact ⟨rfl, _, ⟨.refl _, PrefixMachine.settled_of_halt hhalt⟩, .halts hhalt⟩
  | @rejected c data rest packet cursor text hscan hhandle =>
    rw [hc.direction] at hscan
    have hhalt := Inbound.step_of_rejected (s := c.inbound) hscan hhandle
    exact ⟨rfl, _, ⟨.refl _, PrefixMachine.settled_of_halt hhalt⟩, .halts hhalt⟩
  | @accepted c c' d data rest packet cursor outcome r hscan hhandle hsound hdecoder hhandled hsent
      hrest ih =>
    rw [hc.direction] at hscan
    have hnext := Inbound.step_of_accepted (s := c.inbound) hscan hhandle
    obtain ⟨hmax, t, hsettles, hends⟩ := ih hsound
    have hinbound : c'.inbound =
        ⟨outcome.cursorAfter cursor, c'.session, c.inbound.handled ++ [packet]⟩ := by
      simp only [inbound, hdecoder, hhandled]
    rw [hinbound] at hsettles
    simp only [hdecoder, List.append_nil] at hmax hsettles
    exact ⟨hmax, t, (PrefixMachine.Reaches.of_step hnext).settles hsettles, hends⟩

/-- What a session that started as `first` made of the packets handled so far. -/
structure Answered (first : LoginSession) (c : Connection) : Prop where
  session : c.session = first.afterPackets c.handled
  sent : c.sent = first.sent c.handled

theorem Answered.handled {first : LoginSession} {c c' : Connection} (h : Answered first c)
    {packet : Packet} {result : Except PyError SessionOutcome}
    (hrun : (LoginSession.handle packet).run c.session = (result, c'.session))
    (hhandled : c'.handled = c.handled ++ [packet])
    (hsent : c'.sent = c.sent ++ (c.session.exchange packet).outbound) : Answered first c' := by
  constructor
  · rw [hhandled, LoginSession.afterPackets_concat, ← h.session, LoginSession.exchange, hrun]
  · rw [hhandled, LoginSession.sent_concat, ← h.session, hsent, h.sent]

theorem Reads.answered {key : HandshakeKey} {first : LoginSession} {c d : Connection} {data : Bytes}
    {r : Except PyError Unit} (h : Reads key c data r d) (hc : Answered first c) :
    Answered first d := by
  induction h with
  | more hscan | oversized hscan => exact { hc with }
  | rejected hscan hhandle =>
    refine hc.handled hhandle rfl ?_
    simp only [scanned, LoginSession.exchange, hhandle, Exchange.outbound, List.append_nil]
  | accepted hscan hhandle hsound hdecoder hhandled hsent hrest ih =>
    refine ih (hc.handled hhandle hhandled ?_)
    simp only [hsent, LoginSession.exchange, hhandle, Exchange.outbound]

theorem handleClient_append (events more : List ReadEvent) (c : Connection) :
    handleClient (events ++ more) c =
      match handleClient events c with
      | (none, c') => handleClient more c'
      | ended => ended := by
  fun_induction handleClient events c with
  | case1 c => rfl
  | case2 events c e c' h => simp only [List.cons_append, handleClient, h]
  | case3 events c c' h ih => simp only [List.cons_append, handleClient, h, ih]
  | case4 events c => rfl
  | case5 byte chunk events c e c' h => simp only [List.cons_append, handleClient, h]
  | case6 byte chunk events c c' h ih => simp only [List.cons_append, handleClient, h, ih]

/-- A connection reads its chunks as the machine does, whenever the reads time out. -/
theorem handleClient_serves {key : HandshakeKey} (events : List ReadEvent) {c : Connection}
    (hc : Sound key c) (hdata : .data [] ∉ events)
    (hwait : (Inbound.machine c.decoder.maxPayloadBytes).step c.inbound c.decoder.buffer = .wait) :
    (handleClient events c).2.decoder.maxPayloadBytes = c.decoder.maxPayloadBytes ∧
    ∃ t r, (Inbound.machine c.decoder.maxPayloadBytes).Serves (c.inbound, c.decoder.buffer)
        (events.filterMap ReadEvent.chunk?) t ∧ EndsAt (handleClient events c).2 r t ∧
      (handleClient events c).1 = Ending.ofResult r := by
  fun_induction handleClient events c with
  | case1 c => exact ⟨rfl, _, .ok (), .nil _, .waits hwait, rfl⟩
  | case2 events c e c' h =>
    obtain ⟨c'', hrun, -⟩ := heartbeat_cases hc
    cases h.symm.trans hrun
  | case3 events c c' h ih =>
    obtain ⟨c'', hrun, hsound, hdecoder, hsession, hhandled⟩ := heartbeat_cases hc
    cases h.symm.trans hrun
    have hinbound : c'.inbound = c.inbound := by
      simp only [inbound, hdecoder, hsession, hhandled]
    rw [hdecoder, hinbound] at ih
    exact ih hsound (fun hmem => hdata (List.mem_cons_of_mem _ hmem)) hwait
  | case4 events c => exact absurd List.mem_cons_self hdata
  | case5 byte chunk events c e c' h =>
    have hreads := serveInput_reads (byte :: chunk) c hc
    rw [h] at hreads
    obtain ⟨hmax, t, hsettles, hends⟩ := hreads.settles hc
    refine ⟨hmax, t, .error e, ?_, hends, rfl⟩
    cases hends with
    | halts hh =>
      rw [hmax] at hh
      exact .halt hsettles hh
  | case6 byte chunk events c c' h ih =>
    have hreads := serveInput_reads (byte :: chunk) c hc
    rw [h] at hreads
    obtain ⟨hmax, t, hsettles, hends⟩ := hreads.settles hc
    cases hends with
    | waits hw =>
      obtain ⟨hmax', t, r, hserves, hends, hending⟩ := ih (hreads.sound hc).1
        (fun hmem => hdata (List.mem_cons_of_mem _ hmem)) hw
      rw [hmax] at hw hserves
      exact ⟨hmax'.trans hmax, t, r, .wait hsettles hw hserves, hends, hending⟩

/-- Without timeouts the session's answers are all that is sent. -/
theorem handleClient_answered {key : HandshakeKey} {first : LoginSession} (chunks : List Bytes)
    {c : Connection} (hc : Sound key c) (ha : Answered first c) :
    Answered first (handleClient (chunks.map .data) c).2 := by
  induction chunks generalizing c with
  | nil => exact ha
  | cons chunk chunks ih =>
    cases chunk with
    | nil => exact ha
    | cons byte chunk =>
      have hreads := serveInput_reads (byte :: chunk) c hc
      simp only [List.map_cons, handleClient]
      cases h : serveInput (byte :: chunk) c with
      | mk result c' =>
        rw [h] at hreads
        cases result with
        | error e => exact hreads.answered ha
        | ok value => exact ih (hreads.sound hc).1 (hreads.answered ha)

theorem filterMap_data (chunks : List Bytes) :
    (chunks.map ReadEvent.data).filterMap ReadEvent.chunk? = chunks := by
  induction chunks with
  | nil => rfl
  | cons chunk chunks ih => exact congrArg (chunk :: ·) ih

/-- What is sent determines the bytes and the outbound cursor. -/
theorem Sound.written_of_sent {key : HandshakeKey} {c d : Connection} (hc : Sound key c)
    (hd : Sound key d) (h : c.sent = d.sent) :
    c.outboundCursor = d.outboundCursor ∧ c.written = d.written := by
  have hout := hc.outgoing
  rw [h] at hout
  exact hout.unique hd.outgoing

/-- Without timeouts the input side determines all but the buffer. -/
theorem same_of_inbound {key : HandshakeKey} {first : LoginSession} {c d : Connection}
    (hc : Sound key c) (hd : Sound key d) (ha : Answered first c) (ha' : Answered first d)
    (h : d.inbound = c.inbound) :
    d.written = c.written ∧ d.session = c.session ∧ d.handled = c.handled ∧ d.sent = c.sent := by
  obtain ⟨-, hsession, hhandled⟩ := Inbound.mk.inj h
  have hsent : d.sent = c.sent := by rw [ha'.sent, ha.sent, hhandled]
  exact ⟨(hd.written_of_sent hc hsent).2, hsession, hhandled, hsent⟩

theorem eq_of_inbound {key : HandshakeKey} {first : LoginSession} {c d : Connection}
    (hc : Sound key c) (hd : Sound key d) (ha : Answered first c) (ha' : Answered first d)
    (h : d.inbound = c.inbound)
    (hmax : d.decoder.maxPayloadBytes = c.decoder.maxPayloadBytes)
    (hbuffer : d.decoder.buffer = c.decoder.buffer) : d = c := by
  obtain ⟨hwritten, hsession, hhandled, hsent⟩ := same_of_inbound hc hd ha ha' h
  have hcursor : d.decoder.cursor = c.decoder.cursor := (Inbound.mk.inj h).1
  have hdirection := hd.direction.trans hc.direction.symm
  exact Connection.ext (FrameStreamDecoder.ext hdirection hcursor hmax hbuffer)
    (hd.written_of_sent hc hsent).1 hsession hwritten hhandled hsent

/-- Two cuts of one stream: the connections are equal, or they end with the same error at the
same packet and differ in the input still buffered. -/
theorem handleClient_chunks (config : ServerConfig) (key : HandshakeKey)
    {chunks chunks' : List Bytes} (hdata : [] ∉ chunks) (hdata' : [] ∉ chunks')
    (hcut : chunks.flatten = chunks'.flatten) :
    let run := handleClient (chunks.map .data) (start config key)
    let run' := handleClient (chunks'.map .data) (start config key)
    (run.1 = none ∧ run' = run) ∨
    ((∃ e, run.1 = some (.ofError e)) ∧ run'.1 = run.1 ∧ run'.2.written = run.2.written ∧
      run'.2.session = run.2.session ∧ run'.2.handled = run.2.handled ∧
      run'.2.sent = run.2.sent) := by
  have hstart := start_sound config key
  have hanswered : Answered (start config key).session (start config key) := ⟨rfl, rfl⟩
  have ha := handleClient_answered chunks hstart hanswered
  have ha' := handleClient_answered chunks' hstart hanswered
  have hs := (handleClient_sound (chunks.map .data) hstart).1
  have hs' := (handleClient_sound (chunks'.map .data) hstart).1
  obtain ⟨hmax, t, r, hserves, hends, hending⟩ := handleClient_serves (chunks.map .data) hstart
    (by simpa using hdata) (Inbound.machine_step_nil _ _)
  obtain ⟨hmax', t', r', hserves', hends', hending'⟩ := handleClient_serves (chunks'.map .data)
    hstart (by simpa using hdata') (Inbound.machine_step_nil _ _)
  rw [filterMap_data] at hserves hserves'
  generalize handleClient (chunks.map .data) (start config key) = run at *
  generalize handleClient (chunks'.map .data) (start config key) = run' at *
  obtain ⟨ending, c⟩ := run
  obtain ⟨ending', c'⟩ := run'
  have hindependent := hserves.chunk_independent hserves' (Inbound.machine_step_nil _ _) hcut
  have hsame := hmax'.trans hmax.symm
  simp only at *
  rw [← hmax] at hindependent
  -- Both ends wait or both halt, by the machine's chunk independence.
  cases hends with
  | waits hw =>
    rcases hindependent with ⟨-, ht⟩ | ⟨e, s, rest, rest', hh, -⟩
    · cases hends' with
      | waits hw' =>
        obtain ⟨hinbound, hbuffer⟩ := Prod.mk.inj ht
        left
        rw [hending, hending', eq_of_inbound hs hs' ha ha' hinbound hsame hbuffer]
        exact ⟨rfl, rfl⟩
      | halts hh' =>
        rw [ht, hsame, hw] at hh'
        cases hh'
    · cases hw.symm.trans hh
  | halts hh =>
    rcases hindependent with ⟨hw, -⟩ | ⟨e, s, rest, rest', hleft, hright⟩
    · cases hw.symm.trans hh
    · cases hends' with
      | waits hw' =>
        rw [hsame] at hw'
        cases hw'.symm.trans hright
      | halts hh' =>
        rw [hsame] at hh'
        obtain ⟨rfl, rfl, -⟩ := Verdict.halt.inj (hh.symm.trans hleft)
        obtain ⟨rfl, hinbound, -⟩ := Verdict.halt.inj (hh'.symm.trans hright)
        obtain ⟨hwritten, hsession, hhandled, hsent⟩ := same_of_inbound hs hs' ha ha' hinbound
        exact .inr ⟨⟨_, hending⟩, hending'.trans hending.symm, hwritten, hsession, hhandled, hsent⟩

end Connection

/-- TCP fragmentation is invisible. However a byte stream is cut into reads, and whatever is read
after it, the connection ends alike, with the same bytes written, the same session and the same
packets handled; without an error the connections are equal, buffer and cursors included. -/
theorem fragmentation_invisible (config : ServerConfig) (key : HandshakeKey)
    (chunks chunks' : List Bytes) (hdata : [] ∉ chunks) (hdata' : [] ∉ chunks')
    (hcut : chunks.flatten = chunks'.flatten) (later : List ReadEvent) :
    let run := Connection.handleClient (chunks.map .data ++ later) (.start config key)
    let run' := Connection.handleClient (chunks'.map .data ++ later) (.start config key)
    run'.1 = run.1 ∧ run'.2.written = run.2.written ∧ run'.2.session = run.2.session ∧
    run'.2.handled = run.2.handled ∧
    (run.1 = none ∨ run.1 = some .clientClosed → run' = run) := by
  intro run run'
  have hcases := Connection.handleClient_chunks config key hdata hdata' hcut
  simp only [run, run', Connection.handleClient_append]
  generalize Connection.handleClient (chunks.map .data) (.start config key) = first at hcases ⊢
  generalize Connection.handleClient (chunks'.map .data) (.start config key) = second at hcases ⊢
  obtain ⟨ending, c⟩ := first
  obtain ⟨ending', c'⟩ := second
  rcases hcases with ⟨rfl, hsame⟩ | ⟨⟨e, rfl⟩, hending, hwritten, hsession, hhandled, -⟩
  · cases hsame
    exact ⟨rfl, rfl, rfl, rfl, fun _ => rfl⟩
  · cases hending
    refine ⟨rfl, hwritten, hsession, hhandled, fun hregular => ?_⟩
    rcases hregular with h | h
    · cases h
    · exact absurd (Option.some.inj h) (Ending.ofError_ne e)

/-- The 0xE5 request and the start of another, in one read and in three. -/
theorem fragmentation_invisible_split_header :
    let config : ServerConfig := ⟨0xFFFF, some 5, true, by decide, by simp⟩
    let whole : List Bytes := [[0xE5, 0, 0, 0xA9, 0]]
    let cut : List Bytes := [[0xE5], [0, 0, 0xA9], [0]]
    (Connection.handleClient (cut.map .data ++ []) (.start config .shipped)).2.written =
      (Connection.handleClient (whole.map .data ++ []) (.start config .shipped)).2.written := by
  intro config whole cut
  obtain ⟨-, hwritten, -⟩ := fragmentation_invisible config .shipped whole cut (by simp [whole])
    (by simp [cut]) rfl []
  exact hwritten

end Army3
