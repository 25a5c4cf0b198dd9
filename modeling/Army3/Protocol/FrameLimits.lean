import Army3.Protocol.FrameStream

namespace Army3

/-- The payload length that the complete header at the head of a buffer declares. -/
def declaredLength (direction : FrameDirection) (cursor : Option TransformCursor) :
    Bytes → Option Nat
  | [] => none
  | raw :: tail =>
    let command := logicalCommand cursor raw
    let length32 := usesLength32 command.1 direction
    let width := lengthWidth length32
    if tail.length < width then none
    else some (BigEndian.fromBytes (logicalBytes command.2 length32 (tail.take width)).1)

/-- What a decoder may keep: a payload of the limit lacks at least one byte behind its header. -/
def pendingLimit (direction : FrameDirection) (maxPayloadBytes : Nat) : Nat :=
  match direction with
  | .clientToServer => maxPayloadBytes + 2
  | .serverToClient => maxPayloadBytes + 4

theorem declaredLength_append {direction : FrameDirection} {cursor : Option TransformCursor}
    {buffer : Bytes} {size : Nat} (h : declaredLength direction cursor buffer = some size)
    (more : Bytes) : declaredLength direction cursor (buffer ++ more) = some size := by
  cases buffer with
  | nil => cases h
  | cons raw tail =>
    simp only [declaredLength] at h
    rw [List.cons_append]
    simp only [declaredLength]
    split_ifs at h with hshort
    have hwidth : lengthWidth (usesLength32 (logicalCommand cursor raw).1 direction) ≤ tail.length :=
      Nat.le_of_not_lt hshort
    rw [List.take_append_of_le_length hwidth, if_neg (by rw [List.length_append]; omega)]
    exact h

/-- A scan complains about the header alone. -/
theorem scanFrame_oversized_iff {direction : FrameDirection} {maxPayloadBytes size : Nat}
    {cursor : Option TransformCursor} {buffer : Bytes} :
    scanFrame direction maxPayloadBytes cursor buffer = .oversized size ↔
      declaredLength direction cursor buffer = some size ∧ maxPayloadBytes < size := by
  cases buffer with
  | nil => simp [scanFrame, declaredLength]
  | cons raw tail =>
    simp only [scanFrame, declaredLength]
    split_ifs with h1 h2 h3
    · simp
    · simp only [Scan.oversized.injEq, Option.some.injEq]
      constructor
      · intro h
        exact ⟨h, h ▸ h2⟩
      · intro h
        exact h.1
    · simp only [Option.some.injEq, false_iff, not_and]
      intro h hlong
      exact h2 (h ▸ hlong)
    · simp only [Option.some.injEq, false_iff, not_and]
      intro h hlong
      exact h2 (h ▸ hlong)

theorem usesLength32_clientToServer (command : UInt8) :
    usesLength32 command .clientToServer = false := by
  simp [usesLength32]

/-- An undecided buffer is a proper prefix of a frame within the limit. -/
theorem length_le_of_scanFrame_more {direction : FrameDirection} {maxPayloadBytes : Nat}
    {cursor : Option TransformCursor} {buffer : Bytes}
    (h : scanFrame direction maxPayloadBytes cursor buffer = .more) :
    buffer.length ≤ pendingLimit direction maxPayloadBytes := by
  cases buffer with
  | nil => exact Nat.zero_le _
  | cons raw tail =>
    have hwidth : lengthWidth (usesLength32 (logicalCommand cursor raw).1 direction) + maxPayloadBytes
        ≤ pendingLimit direction maxPayloadBytes := by
      cases direction with
      | clientToServer => simp [usesLength32_clientToServer, lengthWidth, pendingLimit, Nat.add_comm]
      | serverToClient =>
        unfold lengthWidth pendingLimit
        split_ifs <;> simp only <;> omega
    simp only [scanFrame] at h
    rw [List.length_cons]
    split_ifs at h with h1 h2 h3
    · omega
    · omega

namespace FrameStreamDecoder

/-- With a bad header at the head a valid call raises and moves nothing; it only buffers. -/
theorem feed_of_oversized {d : FrameStreamDecoder} {size : Nat} (call : FeedCall)
    (hvalid : call.Valid)
    (h : scanFrame d.direction d.maxPayloadBytes d.cursor (d.buffer ++ call.data) = .oversized size) :
    d.feed call.data call.maxPackets =
      (.error (d.oversizedError size), { d with buffer := d.buffer ++ call.data }) := by
  have hany : ¬ call.maxPackets.any (fun limit => limit ≤ 0) = true := by
    simpa [FeedCall.Valid] using hvalid
  have hrun : decodeOne.run { d with buffer := d.buffer ++ call.data } =
      (.error (d.oversizedError size), { d with buffer := d.buffer ++ call.data }) := by
    rw [decodeOne_run]
    simp only [h]
    rfl
  have hloop : feedLoop call.maxPackets { d with buffer := d.buffer ++ call.data } [] =
      ⟨[], some (d.oversizedError size), { d with buffer := d.buffer ++ call.data }⟩ := by
    rw [feedLoop, if_neg (by simpa using hany)]
    split
    · next d' heq => rw [hrun] at heq; cases heq
    · next packet d' heq => rw [hrun] at heq; cases heq
    · next e d' heq => rw [hrun] at heq; cases heq; rfl
  rw [feed, feedRun, if_neg hany, hloop]

theorem feed_of_invalid {d : FrameStreamDecoder} (call : FeedCall) (h : ¬ call.Valid) :
    d.feed call.data call.maxPackets =
      (.error (.valueError "max_packets must be a positive integer or None"), d) := by
  rw [feed, feedRun_of_invalid d call h]

/-- An unlimited call that returns leaves an undecided buffer. -/
theorem scan_of_feed_ok {d d' : FrameStreamDecoder} {data : Bytes} {packets : List Packet}
    (h : d.feed data none = (.ok packets, d')) :
    d'.direction = d.direction ∧ d'.maxPayloadBytes = d.maxPayloadBytes ∧
      scanFrame d.direction d.maxPayloadBytes d'.cursor d'.buffer = .more := by
  obtain ⟨⟨hdir, hmax⟩, -, hend⟩ := feedRun_spec d ⟨data, none⟩ rfl []
  unfold feed at h
  rcases hend with ⟨herror, hwait⟩ | ⟨size, s, rest, herror, -⟩
  · simp only [herror, Prod.mk.injEq] at h
    obtain ⟨-, rfl⟩ := h
    have hw := hwait rfl
    simp only [machine, frameMachine] at hw
    refine ⟨hdir, hmax, ?_⟩
    cases hs : scanFrame d.direction d.maxPayloadBytes _ _ with
    | more => rfl
    | oversized size => rw [hs] at hw; cases hw
    | frame packet cursor rest => rw [hs] at hw; cases hw
  · simp only [herror, Prod.mk.injEq, reduceCtorEq, false_and] at h

/-- A `FrameError` is about the head of what is left; the frames before it were decoded. -/
theorem scan_of_feed_error {d d' : FrameStreamDecoder} {data : Bytes} {limit : Option Int}
    {text : String} (h : d.feed data limit = (.error (.frameError text), d')) :
    (d'.direction = d.direction ∧ d'.maxPayloadBytes = d.maxPayloadBytes) ∧
    (∃ packets wire, encodeFrames d.direction d.cursor packets = .ok (wire, d'.cursor) ∧
      d.buffer ++ data = wire ++ d'.buffer) ∧
    ∃ size, PyError.frameError text = d'.oversizedError size ∧
      scanFrame d'.direction d'.maxPayloadBytes d'.cursor d'.buffer = .oversized size := by
  by_cases hvalid : FeedCall.Valid ⟨data, limit⟩
  · obtain ⟨⟨hdir, hmax⟩, hreach, hend⟩ := feedRun_spec d ⟨data, limit⟩ hvalid []
    unfold feed at h
    rcases hend with ⟨herror, -⟩ | ⟨size, s, rest, herror, hhalt⟩
    · simp only [herror, Prod.mk.injEq, reduceCtorEq, false_and] at h
    · simp only [herror, Prod.mk.injEq, Except.error.injEq] at h
      obtain ⟨htext, rfl⟩ := h
      simp only at hdir hmax
      refine ⟨⟨hdir, hmax⟩, ?_, size, ?_, ?_⟩
      · obtain ⟨packets, wire, -, hwire, hbytes⟩ := encodeFrames_of_reaches hreach
        exact ⟨packets, wire, hwire, hbytes⟩
      · rw [← htext, oversizedError, oversizedError, hmax]
      · rw [hdir, hmax]
        simp only [machine, frameMachine] at hhalt
        cases hs : scanFrame d.direction d.maxPayloadBytes _ _ with
        | more => rw [hs] at hhalt; cases hhalt
        | oversized size' =>
          rw [hs] at hhalt
          cases hhalt
          rfl
        | frame packet cursor rest => rw [hs] at hhalt; cases hhalt
  · rw [feed_of_invalid ⟨data, limit⟩ hvalid] at h
    cases h

/-- After a bad header no call moves the decoder: what comes in is appended and nothing else. -/
theorem afterFeeds_of_oversized {d : FrameStreamDecoder} {size : Nat}
    (h : scanFrame d.direction d.maxPayloadBytes d.cursor d.buffer = .oversized size)
    (calls : List FeedCall) :
    d.afterFeeds calls = { d with buffer := d.buffer ++ calls.flatMap FeedCall.accepted } := by
  induction calls generalizing d with
  | nil => rw [List.flatMap_nil, List.append_nil]; rfl
  | cons call calls ih =>
    rw [afterFeeds, List.flatMap_cons, ← List.append_assoc]
    have hone : (d.feed call.data call.maxPackets).2 =
        { d with buffer := d.buffer ++ call.accepted } := by
      by_cases hvalid : call.Valid
      · rw [feed_of_oversized call hvalid (scanFrame_oversized_append h call.data),
          FeedCall.accepted, if_pos hvalid]
      · rw [feed_of_invalid call hvalid, FeedCall.accepted, if_neg hvalid, List.append_nil]
    rw [hone, ih (scanFrame_oversized_append h call.accepted)]

/-- An unlimited call that returns keeps less than a frame of the limit. A complete header over
the limit is refused by the call that completes it. From then on every valid call raises the
same `FrameError`, and the cursor and the head of the buffer stay where they are, behind the
frames decoded before. -/
theorem oversized_refused_for_good (d : FrameStreamDecoder) (data : Bytes) :
    (∀ packets d', d.feed data none = (.ok packets, d') →
      d'.pendingBytes ≤ pendingLimit d.direction d.maxPayloadBytes ∧
      ∀ size, declaredLength d.direction d'.cursor d'.buffer = some size →
        size ≤ d.maxPayloadBytes) ∧
    (∀ size limit, declaredLength d.direction d.cursor (d.buffer ++ data) = some size →
      d.maxPayloadBytes < size → FeedCall.Valid ⟨data, limit⟩ →
      d.feed data limit =
        (.error (d.oversizedError size), { d with buffer := d.buffer ++ data })) ∧
    ∀ limit text d', d.feed data limit = (.error (.frameError text), d') →
      (∃ packets wire, encodeFrames d.direction d.cursor packets = .ok (wire, d'.cursor) ∧
        d.buffer ++ data = wire ++ d'.buffer) ∧
      (∃ size, declaredLength d.direction d'.cursor d'.buffer = some size ∧
        d.maxPayloadBytes < size) ∧
      ∀ calls : List FeedCall,
        d'.afterFeeds calls =
          { d' with buffer := d'.buffer ++ calls.flatMap FeedCall.accepted } ∧
        ∀ call : FeedCall, call.Valid →
          ((d'.afterFeeds calls).feed call.data call.maxPackets).1 = .error (.frameError text) := by
  refine ⟨?_, ?_, ?_⟩
  · intro packets d' h
    obtain ⟨-, -, hscan⟩ := scan_of_feed_ok h
    refine ⟨length_le_of_scanFrame_more hscan, fun size hsize => ?_⟩
    by_contra hlong
    rw [scanFrame_oversized_iff.mpr ⟨hsize, by omega⟩] at hscan
    cases hscan
  · intro size limit hsize hlong hvalid
    exact feed_of_oversized ⟨data, limit⟩ hvalid (scanFrame_oversized_iff.mpr ⟨hsize, hlong⟩)
  · intro limit text d' h
    obtain ⟨⟨hdir, hmax⟩, hbefore, size, htext, hscan⟩ := scan_of_feed_error h
    have hheader := scanFrame_oversized_iff.mp hscan
    rw [hdir, hmax] at hheader
    refine ⟨hbefore, ⟨size, hheader⟩, fun calls => ?_⟩
    have hafter := afterFeeds_of_oversized hscan calls
    refine ⟨hafter, fun call hvalid => ?_⟩
    rw [hafter, feed_of_oversized call hvalid, htext]
    · rfl
    · exact scanFrame_oversized_append (scanFrame_oversized_append hscan _) _

end FrameStreamDecoder
end Army3
