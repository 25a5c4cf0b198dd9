import Army3.Protocol.FrameScan

namespace Army3

structure FeedCall where
  data : Bytes
  maxPackets : Option Int := none

def FeedCall.Valid (call : FeedCall) : Bool := !call.maxPackets.any (fun limit => limit ≤ 0)

/-- The bytes a call appends to the buffer: a bad packet limit is refused before that. -/
def FeedCall.accepted (call : FeedCall) : Bytes := if call.Valid then call.data else []

namespace FrameStreamDecoder

/-- What an answer of `_decode_one` says about the buffer. -/
theorem scan_of_decodeOne_none {d d' : FrameStreamDecoder}
    (h : decodeOne.run d = (.ok none, d')) :
    d' = d ∧ scanFrame d.direction d.maxPayloadBytes d.cursor d.buffer = .more := by
  rw [decodeOne_run] at h
  cases hs : scanFrame d.direction d.maxPayloadBytes d.cursor d.buffer <;> rw [hs] at h <;> cases h
  exact ⟨rfl, rfl⟩

theorem scan_of_decodeOne_some {d d' : FrameStreamDecoder} {packet : Packet}
    (h : decodeOne.run d = (.ok (some packet), d')) :
    ∃ cursor rest, d' = { d with cursor := cursor, buffer := rest } ∧
      scanFrame d.direction d.maxPayloadBytes d.cursor d.buffer = .frame packet cursor rest := by
  rw [decodeOne_run] at h
  cases hs : scanFrame d.direction d.maxPayloadBytes d.cursor d.buffer <;> rw [hs] at h <;> cases h
  exact ⟨_, _, rfl, rfl⟩

theorem scan_of_decodeOne_error {d d' : FrameStreamDecoder} {e : PyError}
    (h : decodeOne.run d = (.error e, d')) :
    d' = d ∧ ∃ size, e = d.oversizedError size ∧
      scanFrame d.direction d.maxPayloadBytes d.cursor d.buffer = .oversized size := by
  rw [decodeOne_run] at h
  cases hs : scanFrame d.direction d.maxPayloadBytes d.cursor d.buffer <;> rw [hs] at h <;> cases h
  exact ⟨rfl, _, rfl, rfl⟩

theorem decodeOne_shorter {d d' : FrameStreamDecoder} {packet : Packet}
    (h : decodeOne.run d = (.ok (some packet), d')) : d'.buffer.length < d.buffer.length := by
  obtain ⟨cursor, rest, rfl, hs⟩ := scan_of_decodeOne_some h
  exact scanFrame_shorter hs

/-- How control leaves `feed`: the local list `packets`, the exception if there is one, and
the decoder. The list is lost to the caller when there is one. -/
structure FeedRun where
  packets : List Packet
  error : Option PyError
  decoder : FrameStreamDecoder

/-- The `while True` loop of `feed`. -/
@[semireducible]
def feedLoop (maxPackets : Option Int) (d : FrameStreamDecoder) (packets : List Packet) :
    FeedRun :=
  if maxPackets.any (fun limit => limit ≤ (packets.length : Int)) then ⟨packets, none, d⟩
  else
    match _h : decodeOne.run d with
    | (.ok none, d') => ⟨packets, none, d'⟩
    | (.ok (some packet), d') => feedLoop maxPackets d' (packets ++ [packet])
    | (.error e, d') => ⟨packets, some e, d'⟩
termination_by d.buffer.length
decreasing_by exact decodeOne_shorter _h

def feedRun (d : FrameStreamDecoder) (data : Bytes) (maxPackets : Option Int) : FeedRun :=
  if maxPackets.any (fun limit => limit ≤ 0) then
    ⟨[], some (.valueError "max_packets must be a positive integer or None"), d⟩
  else feedLoop maxPackets { d with buffer := d.buffer ++ data } []

/-- `feed` as its caller sees it. -/
def feed (d : FrameStreamDecoder) (data : Bytes) (maxPackets : Option Int) :
    Except PyError (List Packet) × FrameStreamDecoder :=
  let run := d.feedRun data maxPackets
  (match run.error with
    | none => .ok run.packets
    | some e => .error e, run.decoder)

/-- A call for one packet is one scan of the buffer. -/
theorem feed_one (d : FrameStreamDecoder) (data : Bytes) :
    d.feed data (some 1) =
      match scanFrame d.direction d.maxPayloadBytes d.cursor (d.buffer ++ data) with
      | .more => (.ok [], { d with buffer := d.buffer ++ data })
      | .oversized size => (.error (d.oversizedError size), { d with buffer := d.buffer ++ data })
      | .frame packet cursor rest => (.ok [packet], { d with cursor := cursor, buffer := rest }) := by
  have hloop : feedLoop (some 1) { d with buffer := d.buffer ++ data } [] =
      match scanFrame d.direction d.maxPayloadBytes d.cursor (d.buffer ++ data) with
      | .more => ⟨[], none, { d with buffer := d.buffer ++ data }⟩
      | .oversized size => ⟨[], some (d.oversizedError size), { d with buffer := d.buffer ++ data }⟩
      | .frame packet cursor rest => ⟨[packet], none, { d with cursor := cursor, buffer := rest }⟩ := by
    rw [feedLoop, if_neg (by simp)]
    split
    · next d' h =>
      obtain ⟨rfl, hs⟩ := scan_of_decodeOne_none h
      rw [hs]
    · next packet d' h =>
      obtain ⟨cursor, rest, rfl, hs⟩ := scan_of_decodeOne_some h
      rw [hs, feedLoop, if_pos (by simp)]
      rfl
    · next e d' h =>
      obtain ⟨rfl, size, rfl, hs⟩ := scan_of_decodeOne_error h
      rw [hs]
      rfl
  rw [feed, feedRun, if_neg (by simp), hloop]
  cases scanFrame d.direction d.maxPayloadBytes d.cursor (d.buffer ++ data) <;> rfl

theorem feed_one_shorter {d d' : FrameStreamDecoder} {data : Bytes} {packet : Packet}
    {packets : List Packet} (h : d.feed data (some 1) = (.ok (packet :: packets), d')) :
    d'.buffer.length < d.buffer.length + data.length := by
  rw [feed_one] at h
  cases hs : scanFrame d.direction d.maxPayloadBytes d.cursor (d.buffer ++ data) with
  | more =>
    rw [hs] at h
    cases h
  | oversized size =>
    rw [hs] at h
    cases h
  | frame packet' cursor rest =>
    rw [hs] at h
    cases h
    rw [← List.length_append]
    exact scanFrame_shorter hs

def machine (d : FrameStreamDecoder) :
    PrefixMachine (Option TransformCursor × List Packet) UInt8 Nat :=
  frameMachine d.direction d.maxPayloadBytes

/-- What the loop of `feed` does: it runs the frame machine for a while; it raises only where
the machine halts, and without a packet limit it returns only where the machine waits. -/
theorem feedLoop_spec (maxPackets : Option Int) (d : FrameStreamDecoder)
    (before packets : List Packet) :
    let run := feedLoop maxPackets d packets
    (run.decoder.direction = d.direction ∧ run.decoder.maxPayloadBytes = d.maxPayloadBytes) ∧
    d.machine.Reaches ((d.cursor, before ++ packets), d.buffer)
      ((run.decoder.cursor, before ++ run.packets), run.decoder.buffer) ∧
    ((run.error = none ∧ (maxPackets = none →
        d.machine.step (run.decoder.cursor, before ++ run.packets) run.decoder.buffer = .wait)) ∨
      ∃ size s rest, run.error = some (d.oversizedError size) ∧
        d.machine.step (run.decoder.cursor, before ++ run.packets) run.decoder.buffer =
          .halt size s rest) := by
  fun_induction feedLoop maxPackets d packets with
  | case1 d packets hlimit =>
    refine ⟨⟨rfl, rfl⟩, PrefixMachine.Reaches.refl _, .inl ⟨rfl, ?_⟩⟩
    intro hall
    subst hall
    simp at hlimit
  | case2 d packets hlimit d' h =>
    obtain ⟨rfl, hs⟩ := scan_of_decodeOne_none h
    refine ⟨⟨rfl, rfl⟩, PrefixMachine.Reaches.refl _, .inl ⟨rfl, fun _ => ?_⟩⟩
    simp only [machine, frameMachine, hs]
  | case3 d packets hlimit packet d' h ih =>
    obtain ⟨cursor, rest, rfl, hs⟩ := scan_of_decodeOne_some h
    obtain ⟨hsame, hreach, hend⟩ := ih
    refine ⟨hsame, ?_, hend⟩
    rw [← List.append_assoc] at hreach
    refine PrefixMachine.Reaches.head ?_ hreach
    simp only [machine, frameMachine, hs]
  | case4 d packets hlimit e d' h =>
    obtain ⟨rfl, size, rfl, hs⟩ := scan_of_decodeOne_error h
    refine ⟨⟨rfl, rfl⟩, PrefixMachine.Reaches.refl _,
      .inr ⟨size, (d'.cursor, before ++ packets), d'.buffer, rfl, ?_⟩⟩
    simp only [machine, frameMachine, hs]

theorem feedRun_of_invalid (d : FrameStreamDecoder) (call : FeedCall) (h : ¬ call.Valid) :
    d.feedRun call.data call.maxPackets =
      ⟨[], some (.valueError "max_packets must be a positive integer or None"), d⟩ := by
  have hany : call.maxPackets.any (fun limit => limit ≤ 0) = true := by
    simpa [FeedCall.Valid] using h
  rw [feedRun, if_pos hany]

/-- A valid call runs the frame machine on the buffer and the new bytes. -/
theorem feedRun_spec (d : FrameStreamDecoder) (call : FeedCall) (h : call.Valid)
    (before : List Packet) :
    let run := d.feedRun call.data call.maxPackets
    (run.decoder.direction = d.direction ∧ run.decoder.maxPayloadBytes = d.maxPayloadBytes) ∧
    d.machine.Reaches ((d.cursor, before), d.buffer ++ call.data)
      ((run.decoder.cursor, before ++ run.packets), run.decoder.buffer) ∧
    ((run.error = none ∧ (call.maxPackets = none →
        d.machine.step (run.decoder.cursor, before ++ run.packets) run.decoder.buffer = .wait)) ∨
      ∃ size s rest, run.error = some (d.oversizedError size) ∧
        d.machine.step (run.decoder.cursor, before ++ run.packets) run.decoder.buffer =
          .halt size s rest) := by
  have hany : ¬ call.maxPackets.any (fun limit => limit ≤ 0) = true := by
    simpa [FeedCall.Valid] using h
  have hloop := feedLoop_spec call.maxPackets { d with buffer := d.buffer ++ call.data } before []
  rw [List.append_nil] at hloop
  rw [feedRun, if_neg hany]
  exact hloop

/-- The decoder after a caller has made all the calls, whatever they raised. -/
def afterFeeds (d : FrameStreamDecoder) : List FeedCall → FrameStreamDecoder
  | [] => d
  | call :: calls => afterFeeds (d.feed call.data call.maxPackets).2 calls

/-- The packets decoded during the calls, those a raising call lost included. -/
def decoded (d : FrameStreamDecoder) : List FeedCall → List Packet
  | [] => []
  | call :: calls =>
    (d.feedRun call.data call.maxPackets).packets ++
      decoded (d.feed call.data call.maxPackets).2 calls

/-- One call runs the frame machine on the buffer and the accepted bytes. -/
theorem feed_reaches (d : FrameStreamDecoder) (call : FeedCall) (before : List Packet) :
    let run := d.feedRun call.data call.maxPackets
    run.decoder.machine = d.machine ∧
    d.machine.Reaches ((d.cursor, before), d.buffer ++ call.accepted)
      ((run.decoder.cursor, before ++ run.packets), run.decoder.buffer) := by
  by_cases hv : call.Valid
  · obtain ⟨⟨hdir, hmax⟩, hreach, -⟩ := feedRun_spec d call hv before
    rw [FeedCall.accepted, if_pos hv]
    exact ⟨by rw [machine, hdir, hmax]; rfl, hreach⟩
  · rw [feedRun_of_invalid d call hv, FeedCall.accepted, if_neg hv, List.append_nil]
    refine ⟨rfl, ?_⟩
    change d.machine.Reaches _ ((d.cursor, before ++ []), d.buffer)
    rw [List.append_nil]

theorem afterFeeds_reaches (d : FrameStreamDecoder) (calls : List FeedCall)
    (before : List Packet) :
    d.machine.Reaches ((d.cursor, before), d.buffer ++ calls.flatMap FeedCall.accepted)
      (((d.afterFeeds calls).cursor, before ++ d.decoded calls), (d.afterFeeds calls).buffer) := by
  induction calls generalizing d before with
  | nil =>
    rw [List.flatMap_nil, decoded, List.append_nil, List.append_nil]
    rfl
  | cons call calls ih =>
    obtain ⟨hm, hreach⟩ := feed_reaches d call before
    have htail := ih (d.feed call.data call.maxPackets).2
      (before ++ (d.feedRun call.data call.maxPackets).packets)
    rw [show (d.feed call.data call.maxPackets).2.machine = d.machine from hm] at htail
    have hhead := hreach.append (calls.flatMap FeedCall.accepted)
    rw [decoded, List.flatMap_cons, ← List.append_assoc, ← List.append_assoc]
    exact hhead.trans htail

end FrameStreamDecoder

/-- The wire bytes of a packet list, each frame encoded where the previous one left the cursor. -/
def encodeFrames (direction : FrameDirection) :
    Option TransformCursor → List Packet → Except PyError (Bytes × Option TransformCursor)
  | cursor, [] => .ok ([], cursor)
  | cursor, packet :: packets => do
    let head ← encodeFrame packet direction cursor
    let tail ← encodeFrames direction head.2 packets
    return (head.1 ++ tail.1, tail.2)

theorem encodeFrames_cons_eq_ok_iff {direction : FrameDirection}
    {cursor cursor' : Option TransformCursor} {packet : Packet} {packets : List Packet}
    {wire : Bytes} :
    encodeFrames direction cursor (packet :: packets) = .ok (wire, cursor') ↔
      FitsFrame direction packet ∧ ∃ tail,
        encodeFrames direction (frameBytes packet direction cursor).2 packets =
          .ok (tail, cursor') ∧
        wire = (frameBytes packet direction cursor).1 ++ tail := by
  by_cases hfit : FitsFrame direction packet
  · simp only [encodeFrames, encodeFrame_of_fits hfit, hfit, true_and]
    change (encodeFrames direction (frameBytes packet direction cursor).2 packets >>= _) = _ ↔ _
    cases ht : encodeFrames direction (frameBytes packet direction cursor).2 packets with
    | error e => simp [bind, Except.bind]
    | ok tail =>
      obtain ⟨tail, last⟩ := tail
      simp only [bind, Except.bind, pure, Except.pure, Except.ok.injEq, Prod.mk.injEq]
      constructor
      · intro h
        obtain ⟨rfl, rfl⟩ := h
        exact ⟨tail, ⟨rfl, rfl⟩, rfl⟩
      · intro h
        obtain ⟨tail', ⟨rfl, rfl⟩, rfl⟩ := h
        exact ⟨rfl, rfl⟩
  · obtain ⟨text, he⟩ := encodeFrame_of_not_fits hfit cursor
    simp [encodeFrames, he, bind, Except.bind, hfit]

theorem encodeFrames_append {direction : FrameDirection}
    {cursor cursor' cursor'' : Option TransformCursor} {packets more : List Packet}
    {wire tail : Bytes} (h : encodeFrames direction cursor packets = .ok (wire, cursor'))
    (h' : encodeFrames direction cursor' more = .ok (tail, cursor'')) :
    encodeFrames direction cursor (packets ++ more) = .ok (wire ++ tail, cursor'') := by
  induction packets generalizing cursor wire with
  | nil =>
    cases h
    exact h'
  | cons packet packets ih =>
    obtain ⟨hfit, rest, hrest, rfl⟩ := encodeFrames_cons_eq_ok_iff.1 h
    rw [List.cons_append]
    refine encodeFrames_cons_eq_ok_iff.2 ⟨hfit, rest ++ tail, ih hrest, ?_⟩
    rw [List.append_assoc]

/-- The machine decodes what the encoder wrote: from the same cursor both end at the same
cursor, whatever follows on the wire. -/
theorem reaches_of_encodeFrames {direction : FrameDirection} {maxPayloadBytes : Nat}
    {cursor cursor' : Option TransformCursor} {packets : List Packet} {wire : Bytes}
    (h : encodeFrames direction cursor packets = .ok (wire, cursor'))
    (hmax : ∀ packet ∈ packets, packet.payload.length ≤ maxPayloadBytes)
    (before : List Packet) (rest : Bytes) :
    (frameMachine direction maxPayloadBytes).Reaches ((cursor, before), wire ++ rest)
      ((cursor', before ++ packets), rest) := by
  induction packets generalizing cursor wire before with
  | nil =>
    cases h
    rw [List.append_nil]
    exact PrefixMachine.Reaches.refl _
  | cons packet packets ih =>
    obtain ⟨hfit, tail, htail, rfl⟩ := encodeFrames_cons_eq_ok_iff.1 h
    have hscan := scanFrame_frameBytes hfit maxPayloadBytes (hmax packet (by simp)) cursor
      (tail ++ rest)
    have hnext := ih htail (fun p hp => hmax p (by simp [hp])) (before ++ [packet])
    rw [List.append_assoc, List.singleton_append] at hnext
    rw [List.append_assoc]
    refine PrefixMachine.Reaches.head ?_ hnext
    simp only [frameMachine, hscan]

/-- And only that: a run consumed the canonical encoding of the packets it produced. -/
theorem encodeFrames_of_reaches {direction : FrameDirection} {maxPayloadBytes : Nat}
    {cursor : Option TransformCursor} {before : List Packet} {buffer : Bytes}
    {d : (Option TransformCursor × List Packet) × Bytes}
    (h : (frameMachine direction maxPayloadBytes).Reaches ((cursor, before), buffer) d) :
    ∃ packets wire, d.1.2 = before ++ packets ∧
      encodeFrames direction cursor packets = .ok (wire, d.1.1) ∧ buffer = wire ++ d.2 := by
  refine h.invariant (I := fun d => ∃ packets wire, d.1.2 = before ++ packets ∧
    encodeFrames direction cursor packets = .ok (wire, d.1.1) ∧ buffer = wire ++ d.2)
    ⟨[], [], by simp, rfl, rfl⟩ ?_
  intro s buffer' s' rest hinv hstep
  obtain ⟨cursor', packets'⟩ := s
  obtain ⟨packets, wire, hp, hw, hb⟩ := hinv
  simp only at hp hw hb
  simp only [frameMachine] at hstep
  cases hs : scanFrame direction maxPayloadBytes cursor' buffer' with
  | more => rw [hs] at hstep; cases hstep
  | oversized size => rw [hs] at hstep; cases hstep
  | frame packet next rest' =>
    rw [hs] at hstep
    cases hstep
    obtain ⟨hfit, -, tail, htail, hbuf⟩ := frameBytes_of_scanFrame hs
    have hone : encodeFrames direction cursor' [packet] = .ok (tail, next) := by
      refine encodeFrames_cons_eq_ok_iff.2 ⟨hfit, [], ?_, ?_⟩
      · rw [htail]; rfl
      · rw [htail, List.append_nil]
    refine ⟨packets ++ [packet], wire ++ tail, ?_, encodeFrames_append hw hone, ?_⟩
    · rw [hp, List.append_assoc]
    · rw [hb, hbuf, List.append_assoc]

end Army3
