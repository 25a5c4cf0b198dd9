import Army3.Protocol.FrameLimits
import Army3.Server.TransformSwitch

/-! Where the bytes go that a connection has read: into the packets handled, or the buffer. -/

namespace Army3
open FrameDirection

/-- The bytes of packets sent by a client, the first in clear and the others under the transform
of the handshake. -/
def streamWire (key : HandshakeKey) : List Packet → Except PyError Bytes
  | [] => return []
  | first :: packets => do
    let hello ← encodeFrame first clientToServer none
    let frames ← encodeFrames clientToServer (some key.transform.cursor) packets
    return hello.1 ++ frames.1

/-- What has been handled on a connection that is going on, with its bytes and the cursor behind
them: nothing, or the handshake request and packets under the transform. -/
inductive Incoming (key : HandshakeKey) : Option TransformCursor → List Packet → Bytes → Prop
  | silent : Incoming key none [] []
  | greeted {cursor : TransformCursor} {rest : List Packet} {tail : Bytes}
      (h : encodeFrames clientToServer (some key.transform.cursor) rest = .ok (tail, some cursor)) :
      Incoming key (some cursor) (⟨0xE5, []⟩ :: rest)
        ((frameBytes ⟨0xE5, []⟩ clientToServer none).1 ++ tail)

namespace Incoming

variable {key : HandshakeKey} {cursor : Option TransformCursor} {handled : List Packet} {wire : Bytes}
  {packet : Packet}

theorem hello_fits : FitsFrame clientToServer ⟨0xE5, []⟩ := fitsFrame_of_short (Nat.zero_le _) _

theorem streamWire_eq (h : Incoming key cursor handled wire) : streamWire key handled = .ok wire := by
  cases h with
  | silent => rfl
  | greeted hrest =>
    simp only [streamWire, encodeFrame_of_fits hello_fits, hrest, bind, Except.bind, pure, Except.pure]

theorem encodeFrames_singleton (hfit : FitsFrame clientToServer packet) :
    encodeFrames clientToServer cursor [packet] = .ok ((frameBytes packet clientToServer cursor).1,
      (frameBytes packet clientToServer cursor).2) :=
  encodeFrames_cons_eq_ok_iff.mpr ⟨hfit, [], rfl, (List.append_nil _).symm⟩

/-- One packet more, whether it is accepted or not. -/
theorem streamWire_concat (h : Incoming key cursor handled wire)
    (hfit : FitsFrame clientToServer packet) :
    streamWire key (handled ++ [packet]) =
      .ok (wire ++ (frameBytes packet clientToServer cursor).1) := by
  cases h with
  | silent =>
    simp only [List.nil_append, streamWire, encodeFrame_of_fits hfit, encodeFrames, bind, Except.bind,
      pure, Except.pure, List.append_nil]
  | @greeted before rest tail hrest =>
    have hmore := encodeFrames_append hrest (encodeFrames_singleton hfit)
    simp only [List.cons_append, streamWire, encodeFrame_of_fits hello_fits, hmore, bind, Except.bind,
      pure, Except.pure, List.append_assoc]

theorem handshake : Incoming key (some key.transform.cursor) [⟨0xE5, []⟩]
    (frameBytes ⟨0xE5, []⟩ clientToServer none).1 := by
  rw [← List.append_nil (frameBytes _ _ _).1]
  exact .greeted rfl

theorem concat {before : TransformCursor} (h : Incoming key (some before) handled wire)
    (hfit : FitsFrame clientToServer packet) :
    Incoming key (frameBytes packet clientToServer (some before)).2 (handled ++ [packet])
      (wire ++ (frameBytes packet clientToServer (some before)).1) := by
  cases h with
  | greeted hrest =>
    obtain ⟨after, hafter⟩ := frameBytes_cursor packet clientToServer before
    have hmore := encodeFrames_append hrest (encodeFrames_singleton hfit)
    rw [List.cons_append, List.append_assoc, hafter]
    refine .greeted ?_
    rw [hmore, hafter]

theorem of_none (h : Incoming key none handled wire) : handled = [] ∧ wire = [] := by
  cases h
  exact ⟨rfl, rfl⟩

end Incoming

namespace Connection

/-- The bytes read so far: those of the packets handled, and the buffer. -/
def Received (key : HandshakeKey) (c : Connection) (bytes : Bytes) : Prop :=
  ∃ wire, Incoming key c.decoder.cursor c.handled wire ∧ bytes = wire ++ c.decoder.buffer

/-- The inner loop accounts for the input, and for the packet that the session rejects. -/
theorem Reads.received {key : HandshakeKey} {c d : Connection} {data bytes : Bytes}
    {r : Except PyError Unit} (h : Reads key c data r d) (hc : Sound key c)
    (hreceived : Received key c bytes) :
    (r = .ok () → Received key d (bytes ++ data)) ∧
      ∃ wire, streamWire key d.handled = .ok wire ∧ bytes ++ data = wire ++ d.decoder.buffer := by
  induction h generalizing bytes with
  | @more c data hscan =>
    obtain ⟨wire, hincoming, rfl⟩ := hreceived
    have hall := List.append_assoc wire c.decoder.buffer data
    exact ⟨fun _ => ⟨wire, hincoming, hall⟩, wire, hincoming.streamWire_eq, hall⟩
  | oversized hscan =>
    obtain ⟨wire, hincoming, rfl⟩ := hreceived
    exact ⟨nofun, wire, hincoming.streamWire_eq, List.append_assoc wire _ _⟩
  | @rejected c data rest packet cursor text hscan hhandle =>
    obtain ⟨wire, hincoming, rfl⟩ := hreceived
    rw [hc.direction] at hscan
    obtain ⟨hfit, -, frame, hframe, hbuffer⟩ := frameBytes_of_scanFrame hscan
    have hwire := hincoming.streamWire_concat hfit
    rw [hframe] at hwire
    refine ⟨nofun, _, hwire, ?_⟩
    rw [List.append_assoc, hbuffer, ← List.append_assoc]
    rfl
  | @accepted c c' d data rest packet cursor outcome r hscan hhandle hsound hdecoder hhandled hsent
      hrest ih =>
    obtain ⟨wire, hincoming, rfl⟩ := hreceived
    rw [hc.direction] at hscan
    obtain ⟨hfit, -, frame, hframe, hbuffer⟩ := frameBytes_of_scanFrame hscan
    have hnext : Received key c' (wire ++ c.decoder.buffer ++ data) := by
      refine ⟨wire ++ frame, ?_, ?_⟩
      · rw [hhandled, hdecoder]
        obtain ⟨command, hanswers⟩ := LoginSession.answers_of_handle hhandle
        cases hcursor : c.decoder.cursor with
        | none =>
          -- The session waits for the handshake, and accepts nothing else.
          have hstate := hc.waiting.mpr (hc.inbound.mp hcursor)
          rw [hcursor] at hincoming hframe
          obtain ⟨hnone, rfl⟩ := hincoming.of_none
          have houtcome := hanswers.of_await hstate
          have hpacket : packet = ⟨0xE5, []⟩ := LoginSession.exchange_of_accepted_e5 hstate
            (by simp [LoginSession.exchange, hhandle, Exchange.outcome?])
          obtain rfl : (frameBytes ⟨0xE5, []⟩ clientToServer none).1 = frame := by
            rw [← hpacket, hframe]
          rw [hnone, hpacket, houtcome, hc.handshake]
          exact .handshake
        | some before =>
          have hstate : c.session.state ≠ .awaitClientE5 := fun h => by
            rw [hc.inbound.mpr (hc.waiting.mp h)] at hcursor
            cases hcursor
          rw [hcursor] at hincoming hframe
          have hmore := hincoming.concat hfit
          rw [hframe] at hmore
          simp only [SessionOutcome.cursorAfter, hanswers.enableTransform.2.2 hstate]
          exact hmore
      · rw [List.append_assoc, hbuffer, ← List.append_assoc, hdecoder]
    obtain ⟨hgoing, hwire⟩ := ih hsound hnext
    rw [List.append_nil] at hgoing hwire
    exact ⟨hgoing, hwire⟩

theorem handleClient_received {key : HandshakeKey} (events : List ReadEvent) {c : Connection}
    {bytes : Bytes} (hc : Sound key c) (hreceived : Received key c bytes) :
    ∃ wire unread, streamWire key (handleClient events c).2.handled = .ok wire ∧
      bytes ++ (events.filterMap ReadEvent.chunk?).flatten =
        wire ++ (handleClient events c).2.decoder.buffer ++ unread ∧
      ((handleClient events c).1 = none → unread = []) := by
  fun_induction handleClient events c generalizing bytes with
  | case1 c =>
    obtain ⟨wire, hincoming, rfl⟩ := hreceived
    exact ⟨wire, [], hincoming.streamWire_eq, rfl, fun _ => rfl⟩
  | case2 events c e c' h =>
    obtain ⟨c'', hrun, -⟩ := heartbeat_cases hc
    cases h.symm.trans hrun
  | case3 events c c' h ih =>
    obtain ⟨c'', hrun, hsound, hdecoder, -, hhandled⟩ := heartbeat_cases hc
    cases h.symm.trans hrun
    refine ih hsound ?_
    rw [Received, hdecoder, hhandled]
    exact hreceived
  | case4 events c =>
    obtain ⟨wire, hincoming, rfl⟩ := hreceived
    refine ⟨wire, _, hincoming.streamWire_eq, rfl, fun h => ?_⟩
    cases h
  | case5 byte chunk events c e c' h =>
    have hreads := serveInput_reads (byte :: chunk) c hc
    rw [h] at hreads
    obtain ⟨-, wire, hwire, hall⟩ := hreads.received hc hreceived
    refine ⟨wire, (events.filterMap ReadEvent.chunk?).flatten, hwire, ?_, fun h => ?_⟩
    · rw [← hall, List.append_assoc]
      rfl
    · cases h
  | case6 byte chunk events c c' h ih =>
    have hreads := serveInput_reads (byte :: chunk) c hc
    rw [h] at hreads
    obtain ⟨hgoing, -⟩ := hreads.received hc hreceived
    obtain ⟨wire, unread, hwire, hall, hnone⟩ := ih (hreads.sound hc).1 (hgoing rfl)
    refine ⟨wire, unread, hwire, ?_, hnone⟩
    rw [← hall, List.append_assoc]
    rfl

/-- The inner loop buffers no more than has come in, and leaves less than a frame of the limit. -/
theorem Reads.buffer_le {key : HandshakeKey} {c d : Connection} {data : Bytes}
    {r : Except PyError Unit} (h : Reads key c data r d) (hc : Sound key c) :
    d.decoder.maxPayloadBytes = c.decoder.maxPayloadBytes ∧
    d.decoder.buffer.length ≤ c.decoder.buffer.length + data.length ∧
    (r = .ok () →
      d.decoder.buffer.length ≤ pendingLimit clientToServer c.decoder.maxPayloadBytes) := by
  induction h with
  | more hscan =>
    rw [hc.direction] at hscan
    exact ⟨rfl, (List.length_append).le, fun _ => length_le_of_scanFrame_more hscan⟩
  | oversized hscan => exact ⟨rfl, (List.length_append).le, nofun⟩
  | rejected hscan hhandle =>
    obtain ⟨-, -, frame, -, hbuffer⟩ := frameBytes_of_scanFrame hscan
    have hlength := congrArg List.length hbuffer
    rw [List.length_append, List.length_append] at hlength
    exact ⟨rfl, by simp only [scanned]; omega, nofun⟩
  | accepted hscan hhandle hsound hdecoder hhandled hsent hrest ih =>
    obtain ⟨-, -, frame, -, hbuffer⟩ := frameBytes_of_scanFrame hscan
    have hlength := congrArg List.length hbuffer
    rw [List.length_append, List.length_append] at hlength
    obtain ⟨hmax, hle, hgoing⟩ := ih hsound
    rw [hdecoder] at hmax hle hgoing
    rw [List.length_nil] at hle
    exact ⟨hmax, by simp only at hle; omega, hgoing⟩

theorem handleClient_buffer_le {key : HandshakeKey} {chunkSize : Nat} (events : List ReadEvent)
    {c : Connection} (hc : Sound key c)
    (hchunks : ∀ chunk, .data chunk ∈ events → chunk.length ≤ chunkSize)
    (hbuffer : c.decoder.buffer.length ≤ pendingLimit clientToServer c.decoder.maxPayloadBytes) :
    (handleClient events c).2.decoder.buffer.length ≤
        pendingLimit clientToServer c.decoder.maxPayloadBytes + chunkSize ∧
      ((∀ e, (handleClient events c).1 ≠ some (.ofError e)) →
        (handleClient events c).2.decoder.buffer.length ≤
          pendingLimit clientToServer c.decoder.maxPayloadBytes) := by
  fun_induction handleClient events c with
  | case1 c | case4 events c => exact ⟨hbuffer.trans (Nat.le_add_right _ _), fun _ => hbuffer⟩
  | case2 events c e c' h =>
    obtain ⟨c'', hrun, -⟩ := heartbeat_cases hc
    cases h.symm.trans hrun
  | case3 events c c' h ih =>
    obtain ⟨c'', hrun, hsound, hdecoder, -⟩ := heartbeat_cases hc
    cases h.symm.trans hrun
    rw [hdecoder] at ih
    exact ih hsound (fun chunk hmem => hchunks chunk (List.mem_cons_of_mem _ hmem)) hbuffer
  | case5 byte chunk events c e c' h =>
    have hreads := serveInput_reads (byte :: chunk) c hc
    rw [h] at hreads
    obtain ⟨-, hle, -⟩ := hreads.buffer_le hc
    have hchunk := hchunks _ List.mem_cons_self
    refine ⟨?_, fun hno => absurd rfl (hno e)⟩
    simp only at hle ⊢
    omega
  | case6 byte chunk events c c' h ih =>
    have hreads := serveInput_reads (byte :: chunk) c hc
    rw [h] at hreads
    obtain ⟨hmax, -, hgoing⟩ := hreads.buffer_le hc
    simp only at hmax hgoing
    rw [hmax] at ih
    exact ih (hreads.sound hc).1 (fun chunk hmem => hchunks chunk (List.mem_cons_of_mem _ hmem))
      (hgoing trivial)

end Connection

/-- Whatever bytes a client sends, they are the frames of the packets handled, in order and each
once, then what is buffered, then what came after the connection had ended. -/
theorem input_accounted (config : ServerConfig) (key : HandshakeKey) (events : List ReadEvent) :
    let run := Connection.handleClient events (.start config key)
    ∃ wire unread, streamWire key run.2.handled = .ok wire ∧
      (events.filterMap ReadEvent.chunk?).flatten = wire ++ run.2.decoder.buffer ++ unread ∧
      (run.1 = none → unread = []) := by
  intro run
  have hnothing : Connection.Received key (.start config key) [] := ⟨[], .silent, rfl⟩
  exact Connection.handleClient_received events (Connection.start_sound config key) hnothing

/-- A connection never buffers more than one frame of the limit and one read. -/
theorem connection_memory_bounded (config : ServerConfig) (key : HandshakeKey) (chunkSize : Nat)
    (events : List ReadEvent) (hchunks : ∀ chunk, .data chunk ∈ events → chunk.length ≤ chunkSize) :
    let run := Connection.handleClient events (.start config key)
    run.2.decoder.pendingBytes ≤ config.maxPayloadBytes + 2 + chunkSize ∧
    (run.1 = none ∨ run.1 = some .clientClosed →
      run.2.decoder.pendingBytes ≤ config.maxPayloadBytes + 2) := by
  intro run
  obtain ⟨hle, hgoing⟩ := Connection.handleClient_buffer_le events
    (Connection.start_sound config key) hchunks (Nat.zero_le _)
  refine ⟨hle, fun hregular => hgoing fun e he => ?_⟩
  rcases hregular with h | h
  · cases h.symm.trans he
  · exact Ending.ofError_ne e (Option.some.inj (he.symm.trans h))

/-- Two reads of four bytes at most; the second completes a bad handshake request. -/
theorem connection_memory_bounded_bad_handshake :
    let config : ServerConfig := ⟨0xFF, none, false, by decide, by simp⟩
    let run := Connection.handleClient [.data [0xE5, 0], .timeout, .data [1, 9, 0xFD]]
      (.start config .shipped)
    run.2.decoder.pendingBytes ≤ 0x105 := by
  intro config run
  have hchunks : ∀ chunk, ReadEvent.data chunk ∈ [ReadEvent.data [0xE5, 0], .timeout,
      .data [1, 9, 0xFD]] → chunk.length ≤ 4 := by
    intro chunk hmem
    simp only [List.mem_cons, ReadEvent.data.injEq, List.not_mem_nil, or_false] at hmem
    rcases hmem with rfl | h | rfl
    · decide
    · cases h
    · decide
  obtain ⟨hle, -⟩ := connection_memory_bounded config .shipped 4 _ hchunks
  exact hle

end Army3
