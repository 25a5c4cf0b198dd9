import Army3.Protocol.Framing
import Army3.Protocol.Primitives

namespace Army3
open Codec

inductive Command where
  | unknown07 | postResetStatus | clientText72 | heartbeat | transportSync | clientU32B2
  | clientSession | screenBootstrap | clientSelection | bootstrapDa | bootstrapReady
  | bootstrapE0 | bootstrapE1 | bootstrapVersions | area | handshake | preloginStatus
  deriving DecidableEq, Repr

namespace Command

def value : Command → UInt8
  | unknown07 => 0x07
  | postResetStatus => 0x3A
  | clientText72 => 0x72
  | heartbeat => 0x9A
  | transportSync => 0xA9
  | clientU32B2 => 0xB2
  | clientSession => 0xBB
  | screenBootstrap => 0xC4
  | clientSelection => 0xC6
  | bootstrapDa => 0xDA
  | bootstrapReady => 0xDB
  | bootstrapE0 => 0xE0
  | bootstrapE1 => 0xE1
  | bootstrapVersions => 0xE2
  | area => 0xE4
  | handshake => 0xE5
  | preloginStatus => 0xFD

/-- The members in the order of their values. -/
def members : List Command :=
  [unknown07, postResetStatus, clientText72, heartbeat, transportSync, clientU32B2,
    clientSession, screenBootstrap, clientSelection, bootstrapDa, bootstrapReady,
    bootstrapE0, bootstrapE1, bootstrapVersions, area, handshake, preloginStatus]

/-- The enumeration call `Command(value)`; `none` stands for its `ValueError`. -/
def ofValue? (value : UInt8) : Option Command :=
  members.find? fun command => command.value = value

theorem ofValue?_value (command : Command) : ofValue? command.value = some command := by
  cases command <;> rfl

theorem value_injective {c d : Command} (h : c.value = d.value) : c = d := by
  have hsome := ofValue?_value c
  rw [h, ofValue?_value d] at hsome
  exact (Option.some.inj hsome).symm

/-- The requests without a payload. -/
def emptyRequests : List Command :=
  [unknown07, bootstrapDa, bootstrapReady, bootstrapE0, bootstrapE1, handshake, preloginStatus,
    screenBootstrap]

end Command

/-- Built only by `create`, so the command is a known empty request. -/
structure EmptyClientRequest where
  command : Command
  known : command ∈ Command.emptyRequests

namespace EmptyClientRequest

/-- The constructor call with its `__post_init__`. -/
def create (command : Command) : Except PyError EmptyClientRequest :=
  if known : command ∈ Command.emptyRequests then .ok ⟨command, known⟩
  else .error (.encodeError s!"0x{hex02 command.value} is not a known empty request")

def toPacket (request : EmptyClientRequest) : Packet := ⟨request.command.value, []⟩

def fromPacket (packet : Packet) : Except PyError EmptyClientRequest :=
  match Command.ofValue? packet.command with
  | none => throw (.decodeError s!"unknown empty request command 0x{hex02 packet.command}")
  | some command => do
    raiseIf (packet.payload ≠ []) (.decodeError
      s!"empty request 0x{hex02 packet.command} has {packet.payload.length} payload byte(s)")
    create command

end EmptyClientRequest

/-- `Packet(command, self.encode_payload())`. -/
def packetOf (command : Command) (payload : Except PyError Bytes) : Except PyError Packet :=
  payload.map fun payload => ⟨command.value, payload⟩

theorem packetOf_eq_ok {command : Command} {payload : Except PyError Bytes} {p : Packet} :
    packetOf command payload = .ok p ↔ payload = .ok p.payload ∧ p.command = command.value := by
  obtain ⟨code, bytes⟩ := p
  cases payload with
  | error e => simp [packetOf, Except.map]
  | ok value => simp [packetOf, Except.map, eq_comm, and_comm]

structure HandshakeResponse where
  seed : Bytes
  shift : Int
  text : PyStr
  deriving DecidableEq

namespace HandshakeResponse

def encodePayload (m : HandshakeResponse) : Except PyError Bytes := written do
  raiseIf (¬ (1 ≤ m.seed.length ∧ m.seed.length ≤ 0x7F))
    (.encodeError "handshake seed length must be between 1 and 127")
  writeU8 m.seed.length "seed.length"
  writeBytes m.seed
  writeU8 m.shift "shift"
  writeString16 m.text "text"

def toPacket (m : HandshakeResponse) : Except PyError Packet := packetOf .handshake m.encodePayload

def decodePayload : Bytes → Except PyError HandshakeResponse := parsed do
  let seedLength ← readU8 "seed.length"
  raiseIf (¬ (1 ≤ seedLength ∧ seedLength ≤ 0x7F))
    (.decodeError "handshake seed length must be between 1 and 127")
  let seed ← readExact seedLength "seed"
  let shift ← readU8 "shift"
  let text ← readString16 "text"
  ensureFinished
  return ⟨seed, shift, text⟩

end HandshakeResponse

/-- Two text controls and the mode byte sent by command 0xBB. -/
structure ClientSessionRequest where
  fieldFromControl38 : PyStr
  fieldFromControl30 : PyStr
  mode : Int
  deriving DecidableEq

namespace ClientSessionRequest

def encodePayload (m : ClientSessionRequest) : Except PyError Bytes := written do
  writeString16 m.fieldFromControl38 "field_from_control38"
  writeString16 m.fieldFromControl30 "field_from_control30"
  writeU8 m.mode "mode"

def toPacket (m : ClientSessionRequest) : Except PyError Packet :=
  packetOf .clientSession m.encodePayload

def decodePayload : Bytes → Except PyError ClientSessionRequest := parsed do
  let first ← readString16 "field_from_control38"
  let second ← readString16 "field_from_control30"
  let mode ← readU8 "mode"
  ensureFinished
  return ⟨first, second, mode⟩

end ClientSessionRequest

/-- Client 0xA9/subcommand 0 observed after the 0xE5 response. -/
structure ClientTransportSync0 where
  storedText : PyStr
  counter94 : Int
  counter90 : Int
  deriving DecidableEq

namespace ClientTransportSync0

def encodePayload (m : ClientTransportSync0) : Except PyError Bytes := written do
  writeU8 0 "subcommand"
  writeString16 m.storedText "stored_text"
  writeU32 m.counter94 "counter94"
  writeU32 m.counter90 "counter90"

def toPacket (m : ClientTransportSync0) : Except PyError Packet :=
  packetOf .transportSync m.encodePayload

def decodePayload : Bytes → Except PyError ClientTransportSync0 := parsed do
  let subcommand ← readU8 "subcommand"
  raiseIf (subcommand ≠ 0) (.decodeError s!"unsupported client 0xA9 subcommand {subcommand}")
  let storedText ← readString16 "stored_text"
  let counter94 ← readU32 "counter94"
  let counter90 ← readU32 "counter90"
  ensureFinished
  return ⟨storedText, counter94, counter90⟩

end ClientTransportSync0

/-- Server 0xA9/subcommand 2 asks the client to reset transport counters. -/
structure ServerTransportReset2 where
  deriving DecidableEq

namespace ServerTransportReset2

def encodePayload (_ : ServerTransportReset2) : Except PyError Bytes := .ok [0x02]

def toPacket (m : ServerTransportReset2) : Except PyError Packet :=
  packetOf .transportSync m.encodePayload

def decodePayload : Bytes → Except PyError ServerTransportReset2 := parsed do
  let subcommand ← readU8 "subcommand"
  ensureFinished
  raiseIf (subcommand ≠ 2) (.decodeError s!"expected server 0xA9 subcommand 2, got {subcommand}")
  return {}

end ServerTransportReset2

/-- One-byte client status observed immediately after server 0xA9/2. -/
structure ClientPostResetStatus where
  value : Int
  deriving DecidableEq

namespace ClientPostResetStatus

def encodePayload (m : ClientPostResetStatus) : Except PyError Bytes := written do
  writeU8 m.value "value"

def toPacket (m : ClientPostResetStatus) : Except PyError Packet :=
  packetOf .postResetStatus m.encodePayload

def decodePayload : Bytes → Except PyError ClientPostResetStatus := parsed do
  let value ← readU8 "value"
  ensureFinished
  return ⟨value⟩

end ClientPostResetStatus

/-- Two bytes plus one string16 sent before the session request. -/
structure ClientPrelogin72 where
  value1 : Int
  value2 : Int
  text : PyStr
  deriving DecidableEq

namespace ClientPrelogin72

def encodePayload (m : ClientPrelogin72) : Except PyError Bytes := written do
  writeU8 m.value1 "value1"
  writeU8 m.value2 "value2"
  writeString16 m.text "text"

def toPacket (m : ClientPrelogin72) : Except PyError Packet :=
  packetOf .clientText72 m.encodePayload

def decodePayload : Bytes → Except PyError ClientPrelogin72 := parsed do
  let value1 ← readU8 "value1"
  let value2 ← readU8 "value2"
  let text ← readString16 "text"
  ensureFinished
  return ⟨value1, value2, text⟩

end ClientPrelogin72

/-- One-byte 0xFD response; value 1 is the inferred local success status. -/
structure ServerPreloginStatus where
  value : Int := 1
  deriving DecidableEq

namespace ServerPreloginStatus

def encodePayload (m : ServerPreloginStatus) : Except PyError Bytes := written do
  writeU8 m.value "value"

def toPacket (m : ServerPreloginStatus) : Except PyError Packet :=
  packetOf .preloginStatus m.encodePayload

def decodePayload : Bytes → Except PyError ServerPreloginStatus := parsed do
  let value ← readU8 "value"
  ensureFinished
  return ⟨value⟩

end ServerPreloginStatus

/-- One u32 client message observed after the initial 0xBB exchange. -/
structure ClientU32B2 where
  value : Int
  deriving DecidableEq

namespace ClientU32B2

def encodePayload (m : ClientU32B2) : Except PyError Bytes := written do
  writeU32 m.value "value"

def toPacket (m : ClientU32B2) : Except PyError Packet := packetOf .clientU32B2 m.encodePayload

def decodePayload : Bytes → Except PyError ClientU32B2 := parsed do
  let value ← readU32 "value"
  ensureFinished
  return ⟨value⟩

end ClientU32B2

/-- Client 0xC6 action: a string16 followed by the literal byte 1. -/
structure ClientC6Selection where
  text : PyStr
  deriving DecidableEq

namespace ClientC6Selection

def encodePayload (m : ClientC6Selection) : Except PyError Bytes := written do
  writeString16 m.text "text"
  writeU8 1 "marker"

def toPacket (m : ClientC6Selection) : Except PyError Packet :=
  packetOf .clientSelection m.encodePayload

def decodePayload : Bytes → Except PyError ClientC6Selection := parsed do
  let text ← readString16 "text"
  let marker ← readU8 "marker"
  ensureFinished
  raiseIf (marker ≠ 1) (.decodeError s!"expected client 0xC6 marker 1, got {marker}")
  return ⟨text⟩

end ClientC6Selection

structure ServerSessionResponse where
  listForMode1 : PyStr
  rawForMode1 : PyStr
  listForMode0 : PyStr
  rawForMode0 : PyStr
  deriving DecidableEq

namespace ServerSessionResponse

def encodePayload (m : ServerSessionResponse) : Except PyError Bytes := written do
  writeString16 m.listForMode1 "list_for_mode1"
  writeString16 m.rawForMode1 "raw_for_mode1"
  writeString16 m.listForMode0 "list_for_mode0"
  writeString16 m.rawForMode0 "raw_for_mode0"

def toPacket (m : ServerSessionResponse) : Except PyError Packet :=
  packetOf .clientSession m.encodePayload

def decodePayload : Bytes → Except PyError ServerSessionResponse := parsed do
  let listForMode1 ← readString16 "value0"
  let rawForMode1 ← readString16 "value1"
  let listForMode0 ← readString16 "value2"
  let rawForMode0 ← readString16 "value3"
  ensureFinished
  return ⟨listForMode1, rawForMode1, listForMode0, rawForMode0⟩

end ServerSessionResponse

structure BootstrapVersions where
  e1Version : Int
  e0Version : Int
  daVersion : Int
  deriving DecidableEq

namespace BootstrapVersions

def encodePayload (m : BootstrapVersions) : Except PyError Bytes := written do
  writeU8 m.e1Version "e1_version"
  writeU8 m.e0Version "e0_version"
  writeU8 m.daVersion "da_version"

def toPacket (m : BootstrapVersions) : Except PyError Packet :=
  packetOf .bootstrapVersions m.encodePayload

def decodePayload : Bytes → Except PyError BootstrapVersions := parsed do
  let e1Version ← readU8 "e1_version"
  let e0Version ← readU8 "e0_version"
  let daVersion ← readU8 "da_version"
  ensureFinished
  return ⟨e1Version, e0Version, daVersion⟩

end BootstrapVersions

/-- The confirmed one-byte 0xE4 request sent by the area-list UI path. -/
structure ClientAreaRequest where
  mode : Int := 0
  deriving DecidableEq

namespace ClientAreaRequest

def encodePayload (m : ClientAreaRequest) : Except PyError Bytes := written do
  raiseIf (m.mode ≠ 0) (.encodeError "only the confirmed 0xE4 area mode 0 is supported")
  writeU8 m.mode "mode"

def toPacket (m : ClientAreaRequest) : Except PyError Packet := packetOf .area m.encodePayload

def decodePayload : Bytes → Except PyError ClientAreaRequest := parsed do
  let mode ← readU8 "mode"
  ensureFinished
  raiseIf (mode ≠ 0) (.decodeError s!"unsupported 0xE4 area request mode {mode}")
  return ⟨mode⟩

end ClientAreaRequest

/-- Confirmed minimal 0xC4/selector-0 screen-activation branch. -/
structure ScreenBootstrapResponse where
  revision : Int
  text : PyStr := []
  deriving DecidableEq

namespace ScreenBootstrapResponse

def encodePayload (m : ScreenBootstrapResponse) : Except PyError Bytes := written do
  raiseIf (¬ (-128 ≤ m.revision ∧ m.revision ≤ 127))
    (.encodeError "screen bootstrap revision must be an s8")
  writeU8 0 "selector"
  writeU8 (m.revision % 0x100) "revision"
  writeString16 m.text "text"

def toPacket (m : ScreenBootstrapResponse) : Except PyError Packet :=
  packetOf .screenBootstrap m.encodePayload

def decodePayload : Bytes → Except PyError ScreenBootstrapResponse := parsed do
  let selector ← readU8 "selector"
  raiseIf (selector ≠ 0) (.decodeError s!"expected 0xC4 selector 0, got {selector}")
  let rawRevision ← readU8 "revision"
  let revision := if rawRevision < 0x80 then rawRevision else rawRevision - 0x100
  let text ← readString16 "text"
  ensureFinished
  return ⟨revision, text⟩

end ScreenBootstrapResponse

/-- Inferred 0xC4/selector-1 resource-transfer manifest. -/
structure ScreenResourceManifestResponse where
  resourceVersion : Int
  itemCount : Int
  deriving DecidableEq

namespace ScreenResourceManifestResponse

def encodePayload (m : ScreenResourceManifestResponse) : Except PyError Bytes := written do
  writeU8 1 "selector"
  writeU8 m.resourceVersion "resource_version"
  writeU16 m.itemCount "item_count"

def toPacket (m : ScreenResourceManifestResponse) : Except PyError Packet :=
  packetOf .screenBootstrap m.encodePayload

def decodePayload : Bytes → Except PyError ScreenResourceManifestResponse := parsed do
  let selector ← readU8 "selector"
  raiseIf (selector ≠ 1) (.decodeError s!"expected 0xC4 selector 1, got {selector}")
  let resourceVersion ← readU8 "resource_version"
  let itemCount ← readU16 "item_count"
  ensureFinished
  return ⟨resourceVersion, itemCount⟩

end ScreenResourceManifestResponse

/-- Inferred 0xC4/selector-2 resource item. -/
structure ScreenResourceItemResponse where
  key : PyStr
  data : Bytes
  deriving DecidableEq

namespace ScreenResourceItemResponse

def encodePayload (m : ScreenResourceItemResponse) : Except PyError Bytes := written do
  writeU8 2 "selector"
  writeString16 m.key "key"
  writeU32 m.data.length "data.length"
  writeBytes m.data

def toPacket (m : ScreenResourceItemResponse) : Except PyError Packet :=
  packetOf .screenBootstrap m.encodePayload

def decodePayload : Bytes → Except PyError ScreenResourceItemResponse := parsed do
  let selector ← readU8 "selector"
  raiseIf (selector ≠ 2) (.decodeError s!"expected 0xC4 selector 2, got {selector}")
  let key ← readString16 "key"
  let dataLength ← readU32 "data.length"
  let data ← readExact dataLength "data"
  ensureFinished
  return ⟨key, data⟩

end ScreenResourceItemResponse

structure BootstrapDaResponse where
  version : Int
  blob : Bytes
  deriving DecidableEq

namespace BootstrapDaResponse

def empty (version : Int := 1) : BootstrapDaResponse := ⟨version, [0x00]⟩

def encodePayload (m : BootstrapDaResponse) : Except PyError Bytes := written do
  writeU8 m.version "version"
  writeU32 m.blob.length "blob.length"
  writeBytes m.blob

def toPacket (m : BootstrapDaResponse) : Except PyError Packet :=
  packetOf .bootstrapDa m.encodePayload

def decodePayload : Bytes → Except PyError BootstrapDaResponse := parsed do
  let version ← readU8 "version"
  let blobLength ← readU32 "blob.length"
  let blob ← readExact blobLength "blob"
  ensureFinished
  return ⟨version, blob⟩

end BootstrapDaResponse

structure BootstrapE1Response where
  version : Int
  blob1 : Bytes
  blob2 : Bytes
  blob3 : Bytes
  deriving DecidableEq

namespace BootstrapE1Response

def empty (version : Int := 1) : BootstrapE1Response :=
  ⟨version, [0x00, 0x00], [0x00, 0x00], [0x00]⟩

/-- The loop over the three blobs is written out, as is the decoder's. -/
def encodePayload (m : BootstrapE1Response) : Except PyError Bytes := written do
  writeU8 m.version "version"
  writeU32 m.blob1.length "blob1.length"
  writeBytes m.blob1
  writeU32 m.blob2.length "blob2.length"
  writeBytes m.blob2
  writeU32 m.blob3.length "blob3.length"
  writeBytes m.blob3

def toPacket (m : BootstrapE1Response) : Except PyError Packet :=
  packetOf .bootstrapE1 m.encodePayload

def decodePayload : Bytes → Except PyError BootstrapE1Response := parsed do
  let version ← readU8 "version"
  let size1 ← readU32 "blob1.length"
  let blob1 ← readExact size1 "blob1"
  let size2 ← readU32 "blob2.length"
  let blob2 ← readExact size2 "blob2"
  let size3 ← readU32 "blob3.length"
  let blob3 ← readExact size3 "blob3"
  ensureFinished
  return ⟨version, blob1, blob2, blob3⟩

end BootstrapE1Response

/-- Only the confirmed empty-collection subset of the 0xE0 schema. -/
structure BootstrapE0EmptyResponse where
  version : Int := 1
  deriving DecidableEq

namespace BootstrapE0EmptyResponse

def encodePayload (m : BootstrapE0EmptyResponse) : Except PyError Bytes := written do
  writeU8 m.version "version"
  writeU8 0 "first_count"
  writeU16 0 "second_count"

def toPacket (m : BootstrapE0EmptyResponse) : Except PyError Packet :=
  packetOf .bootstrapE0 m.encodePayload

def decodePayload : Bytes → Except PyError BootstrapE0EmptyResponse := parsed do
  let version ← readU8 "version"
  let firstCount ← readU8 "first_count"
  let secondCount ← readU16 "second_count"
  ensureFinished
  raiseIf (firstCount ≠ 0 ∨ secondCount ≠ 0)
    (.decodeError "non-empty 0xE0 records are outside the confirmed M4 schema")
  return ⟨version⟩

end BootstrapE0EmptyResponse
end Army3
