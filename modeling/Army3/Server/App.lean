import Army3.Protocol.FrameStream
import Army3.Server.Config
import Army3.Server.Session

namespace Army3

/-- What waiting for `reader.read` comes back with: bytes, none at the end of the stream, or
the heartbeat interval running out. -/
inductive ReadEvent where
  | data (chunk : Bytes)
  | timeout
  deriving DecidableEq

/-- How the body of `_handle_client` is left. -/
inductive Ending where
  | clientClosed
  | protocolError (e : PyError)
  | internalError (e : PyError)
  deriving DecidableEq

/-- The `except` clauses. -/
def Ending.ofError (e : PyError) : Ending :=
  if e.isProtocolError then .protocolError e else .internalError e

/-- The variables of `_handle_client`, the bytes written to the client, and for the record the
packets given to `session.handle` and the packets written. -/
@[ext]
structure Connection where
  decoder : FrameStreamDecoder
  outboundCursor : Option TransformCursor := none
  session : LoginSession
  written : Bytes := []
  handled : List Packet := []
  sent : List Packet := []
  deriving DecidableEq

abbrev ConnectionM := Raising Connection PyError

namespace Connection
open Raising

/-- The start of `_handle_client`; the session's handshake constants are `key`. -/
def start (config : ServerConfig) (key : HandshakeKey) : Connection where
  decoder := { direction := .clientToServer, maxPayloadBytes := config.maxPayloadBytes }
  session := .create key config.experimentalSplashRevision config.experimentalAreaPush

/-- `writer.write(encode_frame(packet, SERVER_TO_CLIENT, outbound_cursor))`. -/
def write (packet : Packet) : ConnectionM Unit := do
  let c ← get
  let frame ← encodeFrame packet .serverToClient c.outboundCursor
  set { c with
    outboundCursor := frame.2
    written := c.written ++ frame.1
    sent := c.sent ++ [packet] }

/-- `session.handle(packet)`. -/
def callHandle (packet : Packet) : ConnectionM SessionOutcome := ExceptT.mk fun c =>
  let answer := (LoginSession.handle packet).run c.session
  (answer.1, { c with session := answer.2, handled := c.handled ++ [packet] })

def enableTransform (transform : ByteTransform) : ConnectionM Unit := do
  let c ← get
  raiseIf (c.decoder.cursor ≠ none ∨ c.outboundCursor ≠ none)
    (.runtimeError "transform was enabled more than once")
  set { c with
    decoder := { c.decoder with cursor := some transform.cursor }
    outboundCursor := some transform.cursor }

/-- The body of the inner loop once a packet has come out of the decoder. -/
def serve (packet : Packet) : ConnectionM Unit := do
  let outcome ← callHandle packet
  outcome.outbound.forM write
  match outcome.enableTransform with
  | some transform => enableTransform transform
  | none => return ()

theorem write_keeps (packet : Packet) : Keeps decoder (write packet) := by
  apply Keeps.get_bind
  intro c
  cases he : encodeFrame packet .serverToClient c.outboundCursor with
  | error e => rw [run_bind_of_error (run_liftM_of_error rfl c)]
  | ok frame =>
    rw [run_bind_of_ok (run_liftM_of_ok rfl c)]
    rfl

theorem enableTransform_keeps (transform : ByteTransform) :
    Keeps (·.decoder.buffer) (enableTransform transform) := by
  apply Keeps.get_bind
  intro c
  by_cases h : c.decoder.cursor ≠ none ∨ c.outboundCursor ≠ none
  · simp only [raiseIf, if_pos h]
    rfl
  · simp only [raiseIf, if_neg h]
    rfl

/-- Serving a packet moves no buffered input. -/
theorem serve_keeps (packet : Packet) : Keeps (·.decoder.buffer) (serve packet) := by
  apply Keeps.bind
  · intro c
    rfl
  intro outcome
  apply Keeps.bind
  · apply Keeps.forM
    intro response c
    exact congrArg FrameStreamDecoder.buffer (write_keeps response c)
  intro _
  cases outcome.enableTransform with
  | none => exact Keeps.pure _
  | some transform => exact enableTransform_keeps transform

/-- The inner loop: feed for one packet, serve it, and go on with what is buffered. -/
@[semireducible]
def serveInput (pending : Bytes) (c : Connection) : Except PyError Unit × Connection :=
  match _h : c.decoder.feed pending (some 1) with
  | (.error e, decoder) => (.error e, { c with decoder })
  | (.ok [], decoder) => (.ok (), { c with decoder })
  | (.ok (packet :: _), decoder) =>
    match _hs : (serve packet).run { c with decoder } with
    | (.error e, c') => (.error e, c')
    | (.ok (), c') => serveInput [] c'
termination_by c.decoder.buffer.length + pending.length
decreasing_by
  have hfeed := FrameStreamDecoder.feed_one_shorter _h
  have hkeeps := serve_keeps packet { c with decoder }
  rw [_hs] at hkeeps
  simp only at hkeeps
  simp only [hkeeps, List.length_nil]
  omega

/-- A timeout sends a heartbeat once a transform is installed. -/
def heartbeat : ConnectionM Unit := do
  let c ← get
  if c.outboundCursor = none then return ()
  else write ⟨Command.heartbeat.value, []⟩

/-- The outer loop over what the reads come back with; `none` while it waits for the next. -/
def handleClient : List ReadEvent → Connection → Option Ending × Connection
  | [], c => (none, c)
  | .timeout :: events, c =>
    match heartbeat.run c with
    | (.error e, c') => (some (.ofError e), c')
    | (.ok (), c') => handleClient events c'
  | .data [] :: _, c => (some .clientClosed, c)
  | .data (byte :: chunk) :: events, c =>
    match serveInput (byte :: chunk) c with
    | (.error e, c') => (some (.ofError e), c')
    | (.ok (), c') => handleClient events c'

end Connection
end Army3
