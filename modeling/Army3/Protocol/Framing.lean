import Army3.Framework.BigEndian
import Army3.Protocol.Transform

namespace Army3

def LENGTH32_SERVER_COMMANDS : List UInt8 := [0x88, 0xA4, 0xC4, 0xD7, 0xE1]

inductive FrameDirection where
  | clientToServer
  | serverToClient
  deriving DecidableEq, Repr

/-- One logical packet; the field types are what `__post_init__` checks. -/
structure Packet where
  command : UInt8
  payload : Bytes := []
  deriving DecidableEq, Repr

def usesLength32 (command : UInt8) (direction : FrameDirection) : Bool :=
  direction = .serverToClient ∧ command ∈ LENGTH32_SERVER_COMMANDS

/-- The wire bytes of one frame and the cursor they leave. The length check comes before
the first cursor access, so a raise leaves the caller's cursor where it was. -/
def encodeFrame (packet : Packet) (direction : FrameDirection)
    (cursor : Option TransformCursor) : Except PyError (Bytes × Option TransformCursor) := do
  let length32 := usesLength32 packet.command direction
  let lengthWidth := if length32 then 4 else 2
  let maximum := if length32 then 0xFFFFFFFF else 0xFFFF
  raiseIf (maximum < packet.payload.length) (.frameError
    s!"payload length {packet.payload.length} exceeds {lengthWidth}-byte limit")
  let lengthBytes := BigEndian.toBytes lengthWidth packet.payload.length
  match cursor with
  | none => return ([packet.command] ++ lengthBytes ++ packet.payload, none)
  | some cursor =>
    let command := cursor.encodeCommand packet.command
    -- The client's receive path transforms only the command of a length-32 frame.
    if length32 then return ([command.1] ++ lengthBytes ++ packet.payload, some command.2)
    else
      let length := command.2.encodeAll lengthBytes
      let payload := length.2.encodeAll packet.payload
      return ([command.1] ++ length.1 ++ payload.1, some payload.2)

/-- Decodes fragmented or coalesced frames of one direction. -/
@[ext]
structure FrameStreamDecoder where
  direction : FrameDirection
  cursor : Option TransformCursor := none
  maxPayloadBytes : Nat := 0xFFFF
  buffer : Bytes := []
  deriving DecidableEq

namespace FrameStreamDecoder

/-- Exceptions keep the decoder as the method left it. -/
abbrev DecoderM := ExceptT PyError (StateM FrameStreamDecoder)

def pendingBytes (d : FrameStreamDecoder) : Nat := d.buffer.length

/-- `_restore`. -/
def restore (checkpoint : Option Nat) : DecoderM Unit := do
  match (← get).cursor, checkpoint with
  | some cursor, some checkpoint =>
    let cursor ← liftExcept (cursor.restore checkpoint)
    modify fun d => { d with cursor := some cursor }
  | _, _ => return ()
where
  liftExcept {α : Type} : Except PyError α → DecoderM α
    | .ok a => pure a
    | .error e => throw e

/-- The command byte, decoded if a cursor is installed. -/
def takeCommand (raw : UInt8) : DecoderM UInt8 := do
  match (← get).cursor with
  | some cursor =>
    modify fun d => { d with cursor := some (cursor.decodeCommand raw).2 }
    return (cursor.decodeCommand raw).1
  | none => return raw

/-- Length or payload bytes, decoded if a cursor is installed and the frame is length-16. -/
def takeBytes (length32 : Bool) (raw : Bytes) : DecoderM Bytes := do
  match (← get).cursor, length32 with
  | some cursor, false =>
    modify fun d => { d with cursor := some (cursor.decodeAll raw).2 }
    return (cursor.decodeAll raw).1
  | _, _ => return raw

/-- `_decode_one`. -/
def decodeOne : DecoderM (Option Packet) := do
  let d ← get
  match d.buffer with
  | [] => return none
  | rawCommand :: _ =>
    let checkpoint := d.cursor.map (·.checkpoint)
    let command ← takeCommand rawCommand
    let length32 := usesLength32 command d.direction
    let lengthWidth := if length32 then 4 else 2
    let headerSize := 1 + lengthWidth
    if d.buffer.length < headerSize then
      restore checkpoint
      return none
    else
      let lengthBytes ← takeBytes length32 ((d.buffer.drop 1).take lengthWidth)
      let payloadSize := BigEndian.fromBytes lengthBytes
      if d.maxPayloadBytes < payloadSize then
        restore checkpoint
        throw (.frameError
          s!"declared payload length {payloadSize} exceeds limit {d.maxPayloadBytes}")
      else
        let frameSize := headerSize + payloadSize
        if d.buffer.length < frameSize then
          restore checkpoint
          return none
        else
          let payload ← takeBytes length32 ((d.buffer.drop headerSize).take payloadSize)
          modify fun d => { d with buffer := d.buffer.drop frameSize }
          return some ⟨command, payload⟩

end FrameStreamDecoder
end Army3
