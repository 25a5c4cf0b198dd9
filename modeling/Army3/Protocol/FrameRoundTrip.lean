import Army3.Protocol.FrameStream

namespace Army3
namespace FrameStreamDecoder

/-- Before and after any calls, whatever they were given and whatever they raised, the bytes
accepted are the canonical encoding of the packets decoded, from the cursor the decoder
started with to the one it has, followed by the pending bytes. -/
theorem fed_eq_encoded_append_pending (direction : FrameDirection)
    (cursor : Option TransformCursor) (maxPayloadBytes : Nat) (calls : List FeedCall) :
    let fresh : FrameStreamDecoder := { direction, cursor, maxPayloadBytes }
    let d := fresh.afterFeeds calls
    ∃ wire, encodeFrames direction cursor (fresh.decoded calls) = .ok (wire, d.cursor) ∧
      calls.flatMap FeedCall.accepted = wire ++ d.buffer := by
  let fresh : FrameStreamDecoder := { direction, cursor, maxPayloadBytes }
  have hreach := afterFeeds_reaches fresh calls []
  obtain ⟨packets, wire, hpackets, hwire, hfed⟩ := encodeFrames_of_reaches hreach
  rw [List.nil_append] at hpackets
  refine ⟨wire, ?_, ?_⟩
  · rw [show fresh.decoded calls = packets from hpackets]
    exact hwire
  · exact hfed

/-- The results of consecutive calls put together; the first exception ends them. -/
def feedAll (d : FrameStreamDecoder) :
    List FeedCall → Except PyError (List Packet) × FrameStreamDecoder
  | [] => (.ok [], d)
  | call :: calls =>
    match d.feed call.data call.maxPackets with
    | (.error e, d') => (.error e, d')
    | (.ok packets, d') =>
      match feedAll d' calls with
      | (.error e, d'') => (.error e, d'')
      | (.ok more, d'') => (.ok (packets ++ more), d'')

theorem machine_step_nil (d : FrameStreamDecoder) (s : Option TransformCursor × List Packet) :
    d.machine.step s [] = .wait := by
  simp only [machine, frameMachine, scanFrame_nil]

/-- Where the bytes to come use the input up, a valid call returns, and an unlimited last
call has delivered everything. -/
theorem feed_of_settles {d : FrameStreamDecoder} (call : FeedCall) (hvalid : call.Valid)
    {before : List Packet} {later : Bytes} {s : Option TransformCursor × List Packet}
    (h : d.machine.Settles ((d.cursor, before), d.buffer ++ call.data ++ later) (s, [])) :
    let run := d.feedRun call.data call.maxPackets
    d.feed call.data call.maxPackets = (.ok run.packets, run.decoder) ∧
    d.machine.Reaches ((run.decoder.cursor, before ++ run.packets), run.decoder.buffer ++ later)
      (s, []) ∧
    (call.maxPackets = none → later = [] →
      (run.decoder.cursor, before ++ run.packets) = s ∧ run.decoder.buffer = []) := by
  obtain ⟨-, hreach, hend⟩ := feedRun_spec d call hvalid before
  have hthere := h.of_reaches (hreach.append later)
  rcases hend with ⟨hnone, hwait⟩ | ⟨size, t, rest, -, hhalt⟩
  · refine ⟨by simp only [feed, hnone], hthere.1, fun hlimit hlater => ?_⟩
    subst hlater
    rw [List.append_nil] at hthere
    have hsame := hthere.unique ⟨PrefixMachine.Reaches.refl _,
      PrefixMachine.settled_of_wait (hwait hlimit)⟩
    exact ⟨(congrArg Prod.fst hsame).symm, (congrArg Prod.snd hsame).symm⟩
  · exact absurd hhalt (h.no_halt (machine_step_nil d s) hreach)

/-- On the way to a configuration where the input is used up nothing raises, and a last
unlimited call delivers the rest. -/
theorem feedAll_drains {d : FrameStreamDecoder} {calls : List FeedCall}
    (hvalid : ∀ call ∈ calls, call.Valid) (before : List Packet) {packets : List Packet}
    {cursor : Option TransformCursor}
    (h : d.machine.Reaches ((d.cursor, before), d.buffer ++ calls.flatMap FeedCall.data)
      ((cursor, before ++ packets), [])) :
    (d.feedAll (calls ++ [{ data := [] }])).1 = .ok packets ∧
    (d.feedAll (calls ++ [{ data := [] }])).2.cursor = cursor ∧
    (d.feedAll (calls ++ [{ data := [] }])).2.pendingBytes = 0 := by
  induction calls generalizing d before packets with
  | nil =>
    have hsettles : d.machine.Settles ((d.cursor, before), d.buffer ++ [] ++ [])
        ((cursor, before ++ packets), []) :=
      ⟨by simpa using h, PrefixMachine.settled_of_wait (machine_step_nil d _)⟩
    obtain ⟨hfeed, -, hdone⟩ := feed_of_settles { data := [] } rfl hsettles
    obtain ⟨hs, hbuffer⟩ := hdone rfl rfl
    obtain ⟨hcursor, hpackets⟩ := Prod.mk.inj hs
    rw [List.append_cancel_left_eq] at hpackets
    simp only [List.nil_append, feedAll, hfeed, hcursor, hpackets, pendingBytes, hbuffer,
      List.append_nil, List.length_nil, and_self]
  | cons call calls ih =>
    rw [List.flatMap_cons, ← List.append_assoc] at h
    obtain ⟨hfeed, hrest, -⟩ := feed_of_settles call (hvalid call (by simp))
      ⟨h, PrefixMachine.settled_of_wait (machine_step_nil d _)⟩
    obtain ⟨⟨hdir, hmax⟩, -, -⟩ := feedRun_spec d call (hvalid call (by simp)) before
    -- The packets still to come continue those this call returned.
    obtain ⟨more, wire, hmore, -, -⟩ := encodeFrames_of_reaches hrest
    simp only [List.append_assoc, List.append_cancel_left_eq] at hmore
    subst hmore
    rw [← List.append_assoc] at hrest
    have hm : (d.feedRun call.data call.maxPackets).decoder.machine = d.machine := by
      rw [machine, hdir, hmax]; rfl
    rw [← hm] at hrest
    obtain ⟨hok, hcursor, hpending⟩ := ih (fun c hc => hvalid c (by simp [hc])) _ hrest
    rw [List.cons_append, feedAll, hfeed]
    simp only
    generalize feedAll _ _ = result at hok hcursor hpending ⊢
    obtain ⟨answer, d'⟩ := result
    simp only at hok hcursor hpending
    subst hok
    exact ⟨rfl, hcursor, hpending⟩

end FrameStreamDecoder

/-- A sender's attempts to encode packets with one cursor: a raising attempt contributes
nothing and leaves the cursor. -/
structure Sent where
  wire : Bytes := []
  packets : List Packet := []
  cursor : Option TransformCursor

def sendAll (direction : FrameDirection) : Option TransformCursor → List Packet → Sent
  | cursor, [] => { cursor }
  | cursor, packet :: attempts =>
    match encodeFrame packet direction cursor with
    | .error _ => sendAll direction cursor attempts
    | .ok (bytes, cursor') =>
      let sent := sendAll direction cursor' attempts
      ⟨bytes ++ sent.wire, packet :: sent.packets, sent.cursor⟩

/-- What was sent is the strict encoding of the packets that fit. -/
theorem sendAll_encodeFrames (direction : FrameDirection) (cursor : Option TransformCursor)
    (attempts : List Packet) :
    (sendAll direction cursor attempts).packets = attempts.filter (FitsFrame direction) ∧
    encodeFrames direction cursor (sendAll direction cursor attempts).packets =
      .ok ((sendAll direction cursor attempts).wire, (sendAll direction cursor attempts).cursor) := by
  induction attempts generalizing cursor with
  | nil => exact ⟨rfl, rfl⟩
  | cons packet attempts ih =>
    by_cases hfit : FitsFrame direction packet
    · obtain ⟨hp, hw⟩ := ih (frameBytes packet direction cursor).2
      simp only [sendAll, encodeFrame_of_fits hfit]
      rw [List.filter_cons_of_pos (by simpa using hfit)]
      exact ⟨congrArg _ hp, encodeFrames_cons_eq_ok_iff.mpr ⟨hfit, _, hw, rfl⟩⟩
    · obtain ⟨text, he⟩ := encodeFrame_of_not_fits hfit cursor
      simp only [sendAll, he]
      rw [List.filter_cons_of_neg (by simpa using hfit)]
      exact ih cursor

/-- However the wire bytes are cut into calls and whatever packet limits the calls carry, a
decoder with the sender's starting cursor returns the packets that were sent, once each and in
order, keeps nothing, and ends at the sender's cursor. -/
theorem frame_stream_round_trip (direction : FrameDirection) (transform : Option ByteTransform)
    (attempts : List Packet) (maxPayloadBytes : Nat) (calls : List FeedCall)
    (hvalid : ∀ call ∈ calls, call.Valid)
    (hmax : ∀ packet ∈ (sendAll direction (transform.map (·.cursor)) attempts).packets,
      packet.payload.length ≤ maxPayloadBytes)
    (hcut : calls.flatMap FeedCall.data =
      (sendAll direction (transform.map (·.cursor)) attempts).wire) :
    let sent := sendAll direction (transform.map (·.cursor)) attempts
    let decoder : FrameStreamDecoder :=
      { direction, cursor := transform.map (·.cursor), maxPayloadBytes }
    let received := decoder.feedAll (calls ++ [{ data := [] }])
    sent.packets = attempts.filter (FitsFrame direction) ∧
    (∀ packet ∈ attempts, ¬ FitsFrame direction packet → ∀ cursor,
      ∃ text, encodeFrame packet direction cursor = .error (.frameError text)) ∧
    received.1 = .ok sent.packets ∧ received.2.pendingBytes = 0 ∧
    received.2.cursor = sent.cursor := by
  intro sent decoder received
  obtain ⟨hfilter, hsent⟩ := sendAll_encodeFrames direction (transform.map (·.cursor)) attempts
  have hreach := reaches_of_encodeFrames hsent hmax [] []
  rw [List.append_nil, ← hcut] at hreach
  obtain ⟨hok, hcursor, hpending⟩ :=
    FrameStreamDecoder.feedAll_drains (d := decoder) hvalid [] hreach
  exact ⟨hfilter, fun packet _ hlong cursor => encodeFrame_of_not_fits hlong cursor,
    hok, hpending, hcursor⟩

/-- A length-32 and a length-16 response under a two-byte key, cut inside both headers. -/
theorem frame_stream_round_trip_two_frames :
    let key : ByteTransform := ⟨[0x10, 0x30], 7, by decide, by decide⟩
    let attempts : List Packet := [⟨0xE1, [1, 2]⟩, ⟨0xBB, [3]⟩]
    let decoder : FrameStreamDecoder := { direction := .serverToClient, cursor := some key.cursor }
    (decoder.feedAll [⟨[0xF8, 0, 0], some 1⟩, ⟨[0, 2, 1, 2, 0xF2, 0x10], none⟩,
      ⟨[0x31, 0x13], some 2⟩, ⟨[], none⟩]).1 = .ok attempts := by
  have h := frame_stream_round_trip .serverToClient (some ⟨[0x10, 0x30], 7, by decide, by decide⟩)
    [⟨0xE1, [1, 2]⟩, ⟨0xBB, [3]⟩] 0xFFFF
    [⟨[0xF8, 0, 0], some 1⟩, ⟨[0, 2, 1, 2, 0xF2, 0x10], none⟩, ⟨[0x31, 0x13], some 2⟩]
    (by decide) (by decide) (by decide)
  exact h.2.2.1

end Army3
