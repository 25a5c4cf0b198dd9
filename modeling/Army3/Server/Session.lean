import Army3.Framework.Raising
import Army3.Protocol.AreaList

namespace Army3

inductive SessionState where
  | awaitClientE5 | awaitInitialBb | bootstrap | accountPanelReady
  deriving DecidableEq, Repr

def SessionState.name : SessionState → String
  | awaitClientE5 => "AWAIT_CLIENT_E5"
  | awaitInitialBb => "AWAIT_INITIAL_BB"
  | bootstrap => "BOOTSTRAP"
  | accountPanelReady => "ACCOUNT_PANEL_READY"

structure SessionOutcome where
  outbound : List Packet := []
  enableTransform : Option ByteTransform := none
  deriving DecidableEq

/-- A handshake seed and shift that the client can derive a key from. -/
@[ext]
structure HandshakeKey where
  seed : Bytes
  shift : UInt8
  seed_pos : 0 < seed.length
  seed_le : seed.length ≤ 0x7F

instance : DecidableEq HandshakeKey := fun key key' =>
  decidable_of_iff (key.seed = key'.seed ∧ key.shift = key'.shift) HandshakeKey.ext_iff.symm

/-- `_SEED` and `_SHIFT`. -/
def HandshakeKey.shipped : HandshakeKey := ⟨[0x00], 0, by decide, by decide⟩

/-- No-auth compatibility state machine. The class's handshake constants are a field. -/
structure LoginSession where
  handshake : HandshakeKey := .shipped
  state : SessionState := .awaitClientE5
  experimentalSplashRevision : Option Int := none
  splashTransitionSent : Bool := false
  experimentalAreaPush : Bool := false
  areaPushSent : Bool := false
  deriving DecidableEq

/-- The methods; an exception keeps what was assigned before it. -/
abbrev SessionM := Raising LoginSession PyError

namespace LoginSession

/-- `_LOCAL_TEXT`. -/
def LOCAL_TEXT : PyStr := PyStr.ofChars ['l', 'o', 'c', 'a', 'l']

/-- `_VERSION`. -/
def VERSION : Int := 2

/-- `__init__`. -/
def create (handshake : HandshakeKey) (experimentalSplashRevision : Option Int)
    (experimentalAreaPush : Bool) : LoginSession :=
  { handshake, experimentalSplashRevision, experimentalAreaPush }

def raiseUnexpected {α : Type} (packet : Packet) : SessionM α := do
  let s ← get
  throw (.sessionProtocolError
    s!"unexpected command 0x{hex02 packet.command} in state {s.state.name}")

/-- `try: … except DecodeError: raise SessionProtocolError(text)`. -/
def orSessionError {α : Type} (decode : Except PyError α) (text : String) : SessionM α :=
  match decode with
  | .ok value => return value
  | .error (.decodeError _) => throw (.sessionProtocolError text)
  | .error e => throw e

def decodeEmpty (packet : Packet) (command : Command) : SessionM Unit := do
  if packet.command ≠ command.value then raiseUnexpected packet
  let _ ← orSessionError (EmptyClientRequest.fromPacket packet)
    s!"command 0x{hex02 packet.command} must have an empty payload"

def decodeSessionRequest (packet : Packet) : SessionM ClientSessionRequest := do
  if packet.command ≠ Command.clientSession.value then raiseUnexpected packet
  let request ← orSessionError (ClientSessionRequest.decodePayload packet.payload)
    "invalid 0xBB payload"
  raiseIf (request.mode ∉ [0, 1]) (.sessionProtocolError "0xBB mode must be 0 or 1")
  return request

def decodeTransportSync (packet : Packet) : SessionM ClientTransportSync0 :=
  orSessionError (ClientTransportSync0.decodePayload packet.payload)
    "invalid client 0xA9/0 payload"

def decodePostResetStatus (packet : Packet) : SessionM ClientPostResetStatus :=
  orSessionError (ClientPostResetStatus.decodePayload packet.payload)
    "invalid client 0x3A payload"

def decodeClientPrelogin72 (packet : Packet) : SessionM ClientPrelogin72 :=
  orSessionError (ClientPrelogin72.decodePayload packet.payload) "invalid client 0x72 payload"

def decodeClientU32B2 (packet : Packet) : SessionM ClientU32B2 :=
  orSessionError (ClientU32B2.decodePayload packet.payload) "invalid client 0xB2 payload"

def decodeClientC6Selection (packet : Packet) : SessionM ClientC6Selection :=
  orSessionError (ClientC6Selection.decodePayload packet.payload) "invalid client 0xC6 payload"

def decodeClientArea (packet : Packet) : SessionM ClientAreaRequest :=
  orSessionError (ClientAreaRequest.decodePayload packet.payload) "invalid client 0xE4 payload"

def decodeExperimentalScreenRequest (packet : Packet) : SessionM Unit := do
  if (← get).experimentalSplashRevision = none then raiseUnexpected packet
  decodeEmpty packet .screenBootstrap

def areaPushIfEnabled : SessionM (List Packet) := do
  let s ← get
  if ¬ s.experimentalAreaPush ∨ s.areaPushSent then return []
  else
    set { s with areaPushSent := true }
    return [← ServerAreaList.toPacket {}]

def sessionResponse : ServerSessionResponse := ⟨LOCAL_TEXT, LOCAL_TEXT, LOCAL_TEXT, LOCAL_TEXT⟩

def initialBootstrapResponses : SessionM (List Packet) := do
  let responses := [← sessionResponse.toPacket,
    ← BootstrapVersions.toPacket ⟨VERSION, VERSION, VERSION⟩]
  let s ← get
  match s.experimentalSplashRevision, s.splashTransitionSent with
  | some revision, false =>
    let screen ← ScreenBootstrapResponse.toPacket { revision }
    set { s with splashTransitionSent := true }
    return responses ++ [screen]
  | _, _ => return responses

/-- The enumeration call `Command(value)`. -/
def commandOf (value : UInt8) : SessionM Command :=
  match Command.ofValue? value with
  | some command => return command
  | none => throw (.valueError s!"{value} is not a valid Command")

def setState (state : SessionState) : SessionM Unit := modify fun s => { s with state }

def handleE5 (packet : Packet) : SessionM SessionOutcome := do
  decodeEmpty packet .handshake
  let key := (← get).handshake
  let transform ← ByteTransform.fromSeed key.seed key.shift.toNat
  let response : HandshakeResponse := ⟨key.seed, key.shift.toNat, LOCAL_TEXT⟩
  setState .awaitInitialBb
  return { outbound := [← response.toPacket], enableTransform := some transform }

def handleInitialBb (packet : Packet) : SessionM SessionOutcome :=
  if packet.command = Command.transportSync.value then do
    let _ ← decodeTransportSync packet
    return { outbound := [← ServerTransportReset2.toPacket {}] }
  else if packet.command = Command.postResetStatus.value then do
    let _ ← decodePostResetStatus packet
    return {}
  else if packet.command = Command.clientText72.value then do
    let _ ← decodeClientPrelogin72 packet
    return {}
  else if packet.command = Command.preloginStatus.value then do
    decodeEmpty packet .preloginStatus
    return { outbound := [← ServerPreloginStatus.toPacket {}] }
  else if packet.command = Command.bootstrapReady.value then do
    decodeEmpty packet .bootstrapReady
    setState .accountPanelReady
    return { outbound := ← areaPushIfEnabled }
  else do
    let _ ← decodeSessionRequest packet
    setState .bootstrap
    return { outbound := ← initialBootstrapResponses }

def handleBootstrap (packet : Packet) : SessionM SessionOutcome :=
  if packet.command = Command.postResetStatus.value then do
    let _ ← decodePostResetStatus packet
    return {}
  else if packet.command = Command.clientText72.value then do
    let _ ← decodeClientPrelogin72 packet
    return {}
  else if packet.command = Command.preloginStatus.value then do
    decodeEmpty packet .preloginStatus
    return { outbound := [← ServerPreloginStatus.toPacket {}] }
  else if packet.command = Command.clientSession.value then do
    let _ ← decodeSessionRequest packet
    return { outbound := ← initialBootstrapResponses }
  else if packet.command = Command.screenBootstrap.value then do
    decodeExperimentalScreenRequest packet
    return {}
  else if packet.command = Command.clientU32B2.value then do
    let _ ← decodeClientU32B2 packet
    return {}
  else if packet.command = Command.clientSelection.value then do
    let _ ← decodeClientC6Selection packet
    return {}
  else if packet.command = Command.unknown07.value then do
    decodeEmpty packet .unknown07
    return {}
  else if packet.command = Command.bootstrapDa.value then do
    decodeEmpty packet .bootstrapDa
    return { outbound := [← (BootstrapDaResponse.empty VERSION).toPacket] }
  else if packet.command = Command.bootstrapE1.value then do
    decodeEmpty packet .bootstrapE1
    return { outbound := [← (BootstrapE1Response.empty VERSION).toPacket] }
  else if packet.command = Command.bootstrapE0.value then do
    decodeEmpty packet .bootstrapE0
    return { outbound := [← BootstrapE0EmptyResponse.toPacket ⟨VERSION⟩] }
  else if packet.command = Command.bootstrapReady.value then do
    decodeEmpty packet .bootstrapReady
    setState .accountPanelReady
    return { outbound := ← areaPushIfEnabled }
  else raiseUnexpected packet

def handleBootstrapRetry (packet : Packet) : SessionM SessionOutcome := do
  let command ← commandOf packet.command
  decodeEmpty packet command
  let response ←
    if command = .bootstrapDa then (BootstrapDaResponse.empty VERSION).toPacket
    else if command = .bootstrapE1 then (BootstrapE1Response.empty VERSION).toPacket
    else BootstrapE0EmptyResponse.toPacket ⟨VERSION⟩
  return { outbound := [response] }

def handleReady (packet : Packet) : SessionM SessionOutcome :=
  if packet.command = Command.postResetStatus.value then do
    let _ ← decodePostResetStatus packet
    return {}
  else if packet.command = Command.clientText72.value then do
    let _ ← decodeClientPrelogin72 packet
    return {}
  else if packet.command = Command.preloginStatus.value then do
    decodeEmpty packet .preloginStatus
    return { outbound := [← ServerPreloginStatus.toPacket {}] }
  else if packet.command = Command.clientSession.value then do
    let _ ← decodeSessionRequest packet
    return { outbound := [← sessionResponse.toPacket] }
  else if packet.command = Command.screenBootstrap.value then do
    decodeExperimentalScreenRequest packet
    return {}
  else if packet.command = Command.clientSelection.value then do
    let _ ← decodeClientC6Selection packet
    return {}
  else if packet.command = Command.area.value then do
    let _ ← decodeClientArea packet
    return { outbound := [← ServerAreaList.toPacket {}] }
  else if packet.command ∈ [Command.unknown07.value, Command.bootstrapReady.value] then do
    decodeEmpty packet (← commandOf packet.command)
    return {}
  else if packet.command ∈
      [Command.bootstrapDa.value, Command.bootstrapE1.value, Command.bootstrapE0.value] then
    handleBootstrapRetry packet
  else raiseUnexpected packet

def handle (packet : Packet) : SessionM SessionOutcome := do
  match (← get).state with
  | .awaitClientE5 => handleE5 packet
  | .awaitInitialBb => handleInitialBb packet
  | .bootstrap => handleBootstrap packet
  | .accountPanelReady => handleReady packet

end LoginSession
end Army3
