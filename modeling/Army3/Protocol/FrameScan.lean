import Army3.Framework.PrefixMachine
import Army3.Framework.Raising
import Army3.Protocol.Framing

namespace Army3

/-- What the head of a buffer holds: nothing decidable yet, a header declaring too large a
payload, or one whole frame with the cursor behind it and the bytes after it. -/
inductive Scan where
  | more
  | oversized (payloadSize : Nat)
  | frame (packet : Packet) (cursor : Option TransformCursor) (rest : Bytes)

def wireCommand (cursor : Option TransformCursor) (command : UInt8) :
    UInt8 × Option TransformCursor :=
  match cursor with
  | some c => ((c.encodeCommand command).1, some (c.encodeCommand command).2)
  | none => (command, none)

def logicalCommand (cursor : Option TransformCursor) (raw : UInt8) :
    UInt8 × Option TransformCursor :=
  match cursor with
  | some c => ((c.decodeCommand raw).1, some (c.decodeCommand raw).2)
  | none => (raw, none)

def wireBytes (cursor : Option TransformCursor) (length32 : Bool) (bytes : Bytes) :
    Bytes × Option TransformCursor :=
  match cursor, length32 with
  | some c, false => ((c.encodeAll bytes).1, some (c.encodeAll bytes).2)
  | cursor, _ => (bytes, cursor)

def logicalBytes (cursor : Option TransformCursor) (length32 : Bool) (raw : Bytes) :
    Bytes × Option TransformCursor :=
  match cursor, length32 with
  | some c, false => ((c.decodeAll raw).1, some (c.decodeAll raw).2)
  | cursor, _ => (raw, cursor)

def lengthWidth (length32 : Bool) : Nat := if length32 then 4 else 2

/-- One frame read off the head of a buffer by value: no cursor is moved before the frame is
known to be complete and legal. -/
def scanFrame (direction : FrameDirection) (maxPayloadBytes : Nat)
    (cursor : Option TransformCursor) : Bytes → Scan
  | [] => .more
  | raw :: tail =>
    let command := logicalCommand cursor raw
    let length32 := usesLength32 command.1 direction
    let width := lengthWidth length32
    let length := logicalBytes command.2 length32 (tail.take width)
    let size := BigEndian.fromBytes length.1
    let payload := logicalBytes length.2 length32 ((tail.drop width).take size)
    if tail.length < width then .more
    else if maxPayloadBytes < size then .oversized size
    else if tail.length < width + size then .more
    else .frame ⟨command.1, payload.1⟩ payload.2 (tail.drop (width + size))

namespace FrameStreamDecoder
open Raising

def oversizedError (d : FrameStreamDecoder) (payloadSize : Nat) : PyError :=
  .frameError s!"declared payload length {payloadSize} exceeds limit {d.maxPayloadBytes}"

@[simp]
theorem takeCommand_run (d : FrameStreamDecoder) (raw : UInt8) :
    (takeCommand raw).run d = (.ok (logicalCommand d.cursor raw).1,
      { d with cursor := (logicalCommand d.cursor raw).2 }) := by
  obtain ⟨direction, cursor, limit, buffer⟩ := d
  cases cursor <;> rfl

@[simp]
theorem takeBytes_run (d : FrameStreamDecoder) (length32 : Bool) (raw : Bytes) :
    (takeBytes length32 raw).run d = (.ok (logicalBytes d.cursor length32 raw).1,
      { d with cursor := (logicalBytes d.cursor length32 raw).2 }) := by
  obtain ⟨direction, cursor, limit, buffer⟩ := d
  cases cursor <;> cases length32 <;> rfl

/-- Whatever was decoded since the checkpoint, restoring it brings the cursor back. -/
theorem restore_run (d : FrameStreamDecoder) (cursor : Option TransformCursor)
    (h : cursor.map (·.transform) = d.cursor.map (·.transform)) :
    (restore (d.cursor.map (·.checkpoint))).run { d with cursor := cursor } = (.ok (), d) := by
  obtain ⟨direction, before, limit, buffer⟩ := d
  cases cursor with
  | none =>
    cases before with
    | none => rfl
    | some c => simp at h
  | some c' =>
    cases before with
    | none => simp at h
    | some c =>
      have hr := TransformCursor.restore_checkpoint c c' (by simpa using h)
      simp only [restore, Option.map_some]
      change (ExceptT.run (do
        let cursor ← restore.liftExcept (c'.restore c.checkpoint)
        modify fun d => { d with cursor := some cursor }) _ : Id _) = _
      rw [hr]
      rfl

theorem logicalCommand_transform (cursor : Option TransformCursor) (raw : UInt8) :
    (logicalCommand cursor raw).2.map (·.transform) = cursor.map (·.transform) := by
  cases cursor <;> rfl

theorem logicalBytes_transform (cursor : Option TransformCursor) (length32 : Bool) (raw : Bytes) :
    (logicalBytes cursor length32 raw).2.map (·.transform) = cursor.map (·.transform) := by
  cases cursor <;> cases length32 <;> simp [logicalBytes]

/-- `_decode_one` is a scan: on all but a whole frame its cursor moves are undone. -/
theorem decodeOne_run (d : FrameStreamDecoder) :
    decodeOne.run d = match scanFrame d.direction d.maxPayloadBytes d.cursor d.buffer with
      | .more => (.ok none, d)
      | .oversized size => (.error (d.oversizedError size), d)
      | .frame packet cursor rest =>
        (.ok (some packet), { d with cursor := cursor, buffer := rest }) := by
  unfold decodeOne
  rw [run_get_bind]
  cases hb : d.buffer with
  | nil => rfl
  | cons raw tail =>
    simp only [scanFrame]
    rw [run_bind_of_ok (takeCommand_run d raw)]
    set command := logicalCommand d.cursor raw with hcommand
    set length32 := usesLength32 command.1 d.direction
    have hwidth : (if length32 = true then 4 else 2) = lengthWidth length32 := rfl
    rw [hwidth]
    have hc : command.2.map (·.transform) = d.cursor.map (·.transform) :=
      logicalCommand_transform d.cursor raw
    by_cases h1 : tail.length < lengthWidth length32
    · have h1' : (raw :: tail).length < 1 + lengthWidth length32 := by
        rw [List.length_cons]; omega
      rw [if_pos h1, if_pos h1', run_bind_of_ok (restore_run d command.2 hc)]
      rfl
    have h1' : ¬ (raw :: tail).length < 1 + lengthWidth length32 := by
      rw [List.length_cons]; omega
    rw [if_neg h1, if_neg h1', List.drop_one, List.tail_cons,
      run_bind_of_ok (takeBytes_run { d with cursor := command.2 } _ _)]
    set length := logicalBytes command.2 length32 (tail.take (lengthWidth length32))
    have hl : length.2.map (·.transform) = d.cursor.map (·.transform) :=
      (logicalBytes_transform _ _ _).trans hc
    by_cases h2 : d.maxPayloadBytes < BigEndian.fromBytes length.1
    · rw [if_pos h2, if_pos h2, run_bind_of_ok (restore_run d length.2 hl)]
      rfl
    rw [if_neg h2, if_neg h2]
    by_cases h3 : tail.length < lengthWidth length32 + BigEndian.fromBytes length.1
    · have h3' : (raw :: tail).length <
          1 + lengthWidth length32 + BigEndian.fromBytes length.1 := by
        rw [List.length_cons]; omega
      rw [if_pos h3, if_pos h3', run_bind_of_ok (restore_run d length.2 hl)]
      rfl
    have h3' : ¬ (raw :: tail).length <
        1 + lengthWidth length32 + BigEndian.fromBytes length.1 := by
      rw [List.length_cons]; omega
    have hdrop (n : Nat) : (raw :: tail).drop (1 + n) = tail.drop n := by
      rw [Nat.add_comm, List.drop_succ_cons]
    rw [if_neg h3, if_neg h3', hdrop, run_bind_of_ok (takeBytes_run { d with cursor := length.2 } _ _)]
    simp only [← hdrop (lengthWidth length32 + _), ← hb, ← Nat.add_assoc]
    rfl

end FrameStreamDecoder
theorem logicalCommand_wireCommand (cursor : Option TransformCursor) (command : UInt8) :
    logicalCommand cursor (wireCommand cursor command).1 =
      (command, (wireCommand cursor command).2) := by
  cases cursor with
  | none => rfl
  | some c => simp only [logicalCommand, wireCommand, c.decodeCommand_encodeCommand]

theorem wireCommand_logicalCommand (cursor : Option TransformCursor) (raw : UInt8) :
    wireCommand cursor (logicalCommand cursor raw).1 = (raw, (logicalCommand cursor raw).2) := by
  cases cursor with
  | none => rfl
  | some c => simp only [logicalCommand, wireCommand, c.encodeCommand_decodeCommand]

theorem logicalBytes_wireBytes (cursor : Option TransformCursor) (length32 : Bool)
    (bytes : Bytes) :
    logicalBytes cursor length32 (wireBytes cursor length32 bytes).1 =
      (bytes, (wireBytes cursor length32 bytes).2) := by
  cases cursor <;> cases length32 <;>
    simp [logicalBytes, wireBytes, TransformCursor.decodeAll_encodeAll]

theorem wireBytes_logicalBytes (cursor : Option TransformCursor) (length32 : Bool)
    (raw : Bytes) :
    wireBytes cursor length32 (logicalBytes cursor length32 raw).1 =
      (raw, (logicalBytes cursor length32 raw).2) := by
  cases cursor <;> cases length32 <;>
    simp [logicalBytes, wireBytes, TransformCursor.encodeAll_decodeAll]

@[simp]
theorem wireBytes_length (cursor : Option TransformCursor) (length32 : Bool) (bytes : Bytes) :
    (wireBytes cursor length32 bytes).1.length = bytes.length := by
  cases cursor <;> cases length32 <;> simp [wireBytes]

@[simp]
theorem logicalBytes_length (cursor : Option TransformCursor) (length32 : Bool) (raw : Bytes) :
    (logicalBytes cursor length32 raw).1.length = raw.length := by
  cases cursor <;> cases length32 <;> simp [logicalBytes]

/-- The largest payload a frame's length field can declare. -/
def payloadLimit (length32 : Bool) : Nat := if length32 then 0xFFFFFFFF else 0xFFFF

theorem payloadLimit_lt (length32 : Bool) :
    payloadLimit length32 < 256 ^ lengthWidth length32 := by
  cases length32 <;> decide

theorem le_payloadLimit_of_lt {length32 : Bool} {n : Nat}
    (h : n < 256 ^ lengthWidth length32) : n ≤ payloadLimit length32 := by
  cases length32 with
  | false => exact Nat.le_of_lt_succ h
  | true => exact Nat.le_of_lt_succ h

def FitsFrame (direction : FrameDirection) (packet : Packet) : Prop :=
  packet.payload.length ≤ payloadLimit (usesLength32 packet.command direction)

instance (direction : FrameDirection) (packet : Packet) : Decidable (FitsFrame direction packet) :=
  inferInstanceAs (Decidable (_ ≤ _))

theorem fitsFrame_of_short {packet : Packet} (h : packet.payload.length ≤ 0xFFFF)
    (direction : FrameDirection) : FitsFrame direction packet := by
  unfold FitsFrame payloadLimit
  split
  · exact h.trans (by decide)
  · exact h

/-- The bytes of a frame that fits: command, length, payload, each through the cursor. -/
def frameBytes (packet : Packet) (direction : FrameDirection) (cursor : Option TransformCursor) :
    Bytes × Option TransformCursor :=
  let length32 := usesLength32 packet.command direction
  let command := wireCommand cursor packet.command
  let length := wireBytes command.2 length32
    (BigEndian.toBytes (lengthWidth length32) packet.payload.length)
  let payload := wireBytes length.2 length32 packet.payload
  (command.1 :: (length.1 ++ payload.1), payload.2)

theorem encodeFrame_of_fits {packet : Packet} {direction : FrameDirection}
    (h : FitsFrame direction packet) (cursor : Option TransformCursor) :
    encodeFrame packet direction cursor = .ok (frameBytes packet direction cursor) := by
  have hfit : ¬ payloadLimit (usesLength32 packet.command direction) < packet.payload.length :=
    Nat.not_lt.mpr h
  simp only [encodeFrame, frameBytes, raiseIf]
  change (if payloadLimit (usesLength32 packet.command direction) < packet.payload.length
    then throw _ else pure () : Except PyError Unit) >>= _ = _
  rw [if_neg hfit]
  cases cursor with
  | none => cases usesLength32 packet.command direction <;> rfl
  | some c => cases usesLength32 packet.command direction <;> rfl

theorem encodeFrame_of_not_fits {packet : Packet} {direction : FrameDirection}
    (h : ¬ FitsFrame direction packet) (cursor : Option TransformCursor) :
    ∃ text, encodeFrame packet direction cursor = .error (.frameError text) := by
  have hlong : payloadLimit (usesLength32 packet.command direction) < packet.payload.length :=
    Nat.lt_of_not_le h
  simp only [encodeFrame, raiseIf]
  change ∃ text, (if payloadLimit (usesLength32 packet.command direction) < packet.payload.length
    then throw _ else pure () : Except PyError Unit) >>= _ = _
  rw [if_pos hlong]
  exact ⟨_, rfl⟩

/-- An encoded frame in front of anything scans back to its packet and cursor. -/
theorem scanFrame_frameBytes {packet : Packet} {direction : FrameDirection}
    (hfit : FitsFrame direction packet) (maxPayloadBytes : Nat)
    (hmax : packet.payload.length ≤ maxPayloadBytes) (cursor : Option TransformCursor)
    (rest : Bytes) :
    scanFrame direction maxPayloadBytes cursor ((frameBytes packet direction cursor).1 ++ rest) =
      .frame packet (frameBytes packet direction cursor).2 rest := by
  obtain ⟨command, payload⟩ := packet
  simp only [frameBytes, List.cons_append, scanFrame, logicalCommand_wireCommand]
  set length32 := usesLength32 command direction with hl32
  set c1 := (wireCommand cursor command).2
  set lengthBytes := BigEndian.toBytes (lengthWidth length32) payload.length with hlb
  set length := wireBytes c1 length32 lengthBytes with hlen
  have hwidth : length.1.length = lengthWidth length32 := by simp [hlen, hlb]
  have htake : (length.1 ++ (wireBytes length.2 length32 payload).1 ++ rest).take
      (lengthWidth length32) = length.1 := by
    rw [← hwidth, List.append_assoc, List.take_left]
  have hdrop : (length.1 ++ (wireBytes length.2 length32 payload).1 ++ rest).drop
      (lengthWidth length32) = (wireBytes length.2 length32 payload).1 ++ rest := by
    rw [← hwidth, List.append_assoc, List.drop_left]
  have hback : logicalBytes c1 length32 length.1 = (lengthBytes, length.2) :=
    logicalBytes_wireBytes c1 length32 lengthBytes
  have hsize : BigEndian.fromBytes lengthBytes = payload.length :=
    BigEndian.fromBytes_toBytes _ _ (Nat.lt_of_le_of_lt hfit (payloadLimit_lt length32))
  have hpayload : ((wireBytes length.2 length32 payload).1 ++ rest).take payload.length =
      (wireBytes length.2 length32 payload).1 := by
    rw [← wireBytes_length length.2 length32 payload, List.take_left]
  have hrest : (length.1 ++ (wireBytes length.2 length32 payload).1 ++ rest).drop
      (lengthWidth length32 + payload.length) = rest := by
    rw [← List.drop_drop, hdrop, ← wireBytes_length length.2 length32 payload, List.drop_left]
  have hlong : (length.1 ++ (wireBytes length.2 length32 payload).1 ++ rest).length =
      lengthWidth length32 + payload.length + rest.length := by
    simp [hwidth, Nat.add_assoc]
  simp only at hmax
  rw [htake, hback, hsize, hdrop, hpayload, logicalBytes_wireBytes, hrest, hlong,
    if_neg (by omega), if_neg (by omega), if_neg (by omega)]

/-- A scanned frame is the canonical encoding of its packet: no other bytes scan to it. -/
theorem frameBytes_of_scanFrame {direction : FrameDirection} {maxPayloadBytes : Nat}
    {cursor cursor' : Option TransformCursor} {buffer rest : Bytes} {packet : Packet}
    (h : scanFrame direction maxPayloadBytes cursor buffer = .frame packet cursor' rest) :
    FitsFrame direction packet ∧ packet.payload.length ≤ maxPayloadBytes ∧
      ∃ wire, frameBytes packet direction cursor = (wire, cursor') ∧ buffer = wire ++ rest := by
  cases buffer with
  | nil => cases h
  | cons raw tail =>
    simp only [scanFrame] at h
    set command := logicalCommand cursor raw with hcommand
    set length32 := usesLength32 command.1 direction with hl32
    set rawLength := tail.take (lengthWidth length32) with hrawLength
    set length := logicalBytes command.2 length32 rawLength with hlength
    set size := BigEndian.fromBytes length.1 with hsize
    set rawPayload := (tail.drop (lengthWidth length32)).take size with hrawPayload
    split_ifs at h with h1 h2 h3
    simp only [Scan.frame.injEq] at h
    obtain ⟨rfl, rfl, rfl⟩ := h
    have hrawLen : rawLength.length = lengthWidth length32 := by
      rw [hrawLength, List.length_take]; omega
    have hrawPay : rawPayload.length = size := by
      rw [hrawPayload, List.length_take, List.length_drop]; omega
    have hlen : length.1.length = lengthWidth length32 := by
      rw [hlength, logicalBytes_length, hrawLen]
    have hpay : (logicalBytes length.2 length32 rawPayload).1.length = size := by
      rw [logicalBytes_length, hrawPay]
    have hbound : size < 256 ^ lengthWidth length32 := by
      rw [hsize, ← hlen]
      exact BigEndian.fromBytes_lt length.1
    have hdigits : BigEndian.toBytes (lengthWidth length32) size = length.1 := by
      rw [hsize, ← hlen]
      exact BigEndian.toBytes_fromBytes length.1
    refine ⟨?_, ?_, raw :: (rawLength ++ rawPayload), ?_, ?_⟩
    · simp only [FitsFrame, hpay]
      exact le_payloadLimit_of_lt hbound
    · simp only [hpay]
      omega
    · simp only [frameBytes, hpay]
      rw [← hl32, hcommand, wireCommand_logicalCommand, ← hcommand, hdigits, hlength,
        wireBytes_logicalBytes, ← hlength]
      simp only [wireBytes_logicalBytes]
    · rw [List.cons_append, List.append_assoc, hrawPayload, ← List.drop_drop, List.take_append_drop,
        hrawLength, List.take_append_drop]

theorem scanFrame_nil (direction : FrameDirection) (maxPayloadBytes : Nat)
    (cursor : Option TransformCursor) : scanFrame direction maxPayloadBytes cursor [] = .more := rfl

/-- What a scan finds, it still finds when more bytes have arrived. -/
theorem scanFrame_append {direction : FrameDirection} {maxPayloadBytes : Nat}
    {cursor cursor' : Option TransformCursor} {buffer rest : Bytes} {packet : Packet}
    (h : scanFrame direction maxPayloadBytes cursor buffer = .frame packet cursor' rest)
    (more : Bytes) :
    scanFrame direction maxPayloadBytes cursor (buffer ++ more) =
      .frame packet cursor' (rest ++ more) := by
  obtain ⟨hfit, hmax, wire, hw, rfl⟩ := frameBytes_of_scanFrame h
  have hs := scanFrame_frameBytes hfit maxPayloadBytes hmax cursor (rest ++ more)
  rw [hw] at hs
  rw [List.append_assoc]
  exact hs

theorem scanFrame_oversized_append {direction : FrameDirection} {maxPayloadBytes size : Nat}
    {cursor : Option TransformCursor} {buffer : Bytes}
    (h : scanFrame direction maxPayloadBytes cursor buffer = .oversized size) (more : Bytes) :
    scanFrame direction maxPayloadBytes cursor (buffer ++ more) = .oversized size := by
  cases buffer with
  | nil => cases h
  | cons raw tail =>
    simp only [scanFrame] at h
    rw [List.cons_append]
    simp only [scanFrame]
    split_ifs at h with h1 h2
    have hwidth : lengthWidth (usesLength32 (logicalCommand cursor raw).1 direction) ≤ tail.length :=
      Nat.le_of_not_lt h1
    rw [List.take_append_of_le_length hwidth, if_neg (by rw [List.length_append]; omega), if_pos h2]
    exact h

theorem scanFrame_shorter {direction : FrameDirection} {maxPayloadBytes : Nat}
    {cursor cursor' : Option TransformCursor} {buffer rest : Bytes} {packet : Packet}
    (h : scanFrame direction maxPayloadBytes cursor buffer = .frame packet cursor' rest) :
    rest.length < buffer.length := by
  obtain ⟨-, -, wire, hw, rfl⟩ := frameBytes_of_scanFrame h
  have hne : wire = (frameBytes packet direction cursor).1 := by rw [hw]
  rw [hne, List.length_append, frameBytes, List.length_cons]
  omega

/-- Reading frames off a stream: the state is the cursor and the packets read so far. -/
def frameMachine (direction : FrameDirection) (maxPayloadBytes : Nat) :
    PrefixMachine (Option TransformCursor × List Packet) UInt8 Nat where
  step s buffer := match scanFrame direction maxPayloadBytes s.1 buffer with
    | .more => .wait
    | .oversized size => .halt size s buffer
    | .frame packet cursor rest => .next (cursor, s.2 ++ [packet]) rest
  next_append := by
    intro s buffer s' rest more h
    cases hs : scanFrame direction maxPayloadBytes s.1 buffer with
    | more => simp [hs] at h
    | oversized size => simp [hs] at h
    | frame packet cursor rest' =>
      simp only [hs, Verdict.next.injEq] at h
      obtain ⟨rfl, rfl⟩ := h
      simp only [scanFrame_append hs more]
  halt_append := by
    intro s buffer e s' rest more h
    cases hs : scanFrame direction maxPayloadBytes s.1 buffer with
    | more => simp [hs] at h
    | frame packet cursor rest' => simp [hs] at h
    | oversized size =>
      simp only [hs, Verdict.halt.injEq] at h
      obtain ⟨rfl, rfl, rfl⟩ := h
      simp only [scanFrame_oversized_append hs more]

end Army3
