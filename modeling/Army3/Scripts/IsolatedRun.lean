import Army3.Framework.EventRun
import Mathlib.Data.List.Basic

/-! `run-local-client-isolated.ps1`: the client under temporary firewall rules, and what else may
happen on the machine while the script runs. -/

namespace Army3
namespace IsolatedRun

inductive Address where
  | v4 (value : BitVec 32)
  | v6 (value : BitVec 128)
  deriving DecidableEq

def ipv4 (a b c d : BitVec 8) : BitVec 32 := a ++ b ++ c ++ d

/-- `127.0.0.0/8`, and `::1` alone. -/
def Address.Loopback : Address → Prop
  | .v4 value => value.toNat / 0x1000000 = 127
  | .v6 value => value.toNat = 1

structure AddressRange where
  first : Address
  last : Address
  deriving DecidableEq

def AddressRange.contains (range : AddressRange) (address : Address) : Bool :=
  match range.first, address, range.last with
  | .v4 first, .v4 value, .v4 last => first.toNat ≤ value.toNat && value.toNat ≤ last.toNat
  | .v6 first, .v6 value, .v6 last => first.toNat ≤ value.toNat && value.toNat ≤ last.toNat
  | _, _, _ => false

def blockedIPv4 : List AddressRange :=
  [⟨.v4 (ipv4 0 0 0 0), .v4 (ipv4 126 255 255 255)⟩,
    ⟨.v4 (ipv4 128 0 0 0), .v4 (ipv4 255 255 255 255)⟩]

def blockedIPv6 : List AddressRange :=
  [⟨.v6 0, .v6 0⟩, ⟨.v6 2, .v6 (BitVec.allOnes 128)⟩]

inductive ProfileName where
  | domainProfile
  | privateProfile
  | publicProfile
  deriving DecidableEq

def ProfileName.all : List ProfileName := [.domainProfile, .privateProfile, .publicProfile]

def ProfileName.name : ProfileName → String
  | .domainProfile => "Domain"
  | .privateProfile => "Private"
  | .publicProfile => "Public"

inductive Direction where
  | inbound
  | outbound
  deriving DecidableEq

inductive RuleAction where
  | allow
  | block
  deriving DecidableEq

/-- A firewall rule; `none` stands for `Any`. -/
structure Rule where
  displayName : String
  group : String
  direction : Direction
  action : RuleAction
  enabled : Bool
  profile : Option ProfileName
  program : String
  protocol : Option Nat
  remoteAddress : List AddressRange
  deriving DecidableEq

/-- What a program tries to send, over an interface that has one of the profiles. -/
structure Traffic where
  profile : ProfileName
  program : String
  protocol : Nat
  remoteAddress : Address

def Rule.Blocks (rule : Rule) (traffic : Traffic) : Prop :=
  rule.enabled = true ∧ rule.direction = .outbound ∧ rule.action = .block ∧
    (rule.profile = none ∨ rule.profile = some traffic.profile) ∧ rule.program = traffic.program ∧
    (rule.protocol = none ∨ rule.protocol = some traffic.protocol) ∧
    ∃ range ∈ rule.remoteAddress, range.contains traffic.remoteAddress

instance (rule : Rule) (traffic : Traffic) : Decidable (rule.Blocks traffic) :=
  inferInstanceAs (Decidable (_ ∧ _))

structure Process where
  id : Nat
  executablePath : String
  deriving DecidableEq

inductive TcpState where
  | listen
  | synSent
  | synReceived
  | established
  | finWait1
  | finWait2
  | closeWait
  | closing
  | lastAck
  | timeWait
  deriving DecidableEq

structure Connection where
  owningProcess : Nat
  remoteAddress : Address
  remotePort : Nat
  state : TcpState
  deriving DecidableEq

/-- The machine: its firewall, the processes that run, those that have ended with their exit codes,
and the TCP connections. -/
structure World where
  profileEnabled : ProfileName → Bool
  rules : List Rule
  processes : List Process
  ended : List (Nat × Int)
  connections : List Connection

/-- Whether the firewall lets it out, as far as the rules that block say. -/
def World.Blocks (world : World) (traffic : Traffic) : Prop :=
  world.profileEnabled traffic.profile = true ∧ ∃ rule ∈ world.rules, rule.Blocks traffic

instance (world : World) (traffic : Traffic) : Decidable (world.Blocks traffic) :=
  inferInstanceAs (Decidable (_ ∧ _))

/-- Who has run so far. -/
def World.seen (world : World) : List Nat :=
  world.processes.map Process.id ++ world.ended.map Prod.fst

/-- The parameters, and what the script finds before it touches anything. -/
structure Settings where
  buildRootPath : String
  clientRootPath : String
  relativeToBuild : String
  /-- The files `*.exe` under the client root. -/
  executables : List String
  markerPresent : Bool
  pythonFound : Bool
  verifyExitCode : Int
  serverPort : Nat
  temporarilyEnableFirewallProfiles : Bool
  ruleGroup : String

def Settings.clientExe (settings : Settings) : String :=
  settings.clientRootPath ++ "\\" ++ "Mobi Army 3 HA.exe"

def Settings.marker (settings : Settings) : String :=
  settings.clientRootPath ++ "\\" ++ ".army3-local-copy.json"

abbrev Destination := Address × Nat

inductive RunError where
  | thrown (text : String)
  | unexpected (destinations : List Destination)
  | cmdlet
  deriving DecidableEq

abbrev Outcome := Except RunError Int

/-- Where the script stands: what it does next. -/
inductive Phase where
  | preflight
  | readProfiles
  | enableProfiles
  | confirmProfiles
  | testServer
  | listExecutables
  | addRules (left : List Rule)
  | listClients
  | launch
  | awaitClient
  | openClient (id : Nat)
  | watch (id : Nat)
  | removeRules (outcome : Outcome)
  | restoreProfiles (outcome : Outcome)
  | ended (outcome : Outcome)

/-- The machine, the place in the script, and the script's variables. -/
structure State where
  world : World
  phase : Phase
  profilesToRestore : List ProfileName
  knownClientIds : List Nat
  observedAuxLoopback : List Destination

/-- How a cmdlet ends: as asked, with the answer no (for `Test-NetConnection`, and for the clock
against the deadline), or with an error after a part of its work; an interrupt from the keyboard
is an error too. -/
inductive Answer where
  | succeeds
  | declines
  | fails (finished : Nat)
  deriving DecidableEq

/-- A turn of the script, or something that happens beside it. -/
inductive Event where
  | turn (answer : Answer)
  | starts (process : Process)
  | exits (id : Nat) (code : Int)
  | connects (connection : Connection) (profile : ProfileName)
  | moves (connection : Connection) (state : TcpState)
  | closes (connection : Connection)
  deriving DecidableEq

/-! ### What is done to the machine -/

namespace World

variable (world : World)

def setProfiles (names : List ProfileName) (enabled : Bool) : World :=
  { world with
    profileEnabled := fun profile => if profile ∈ names then enabled else world.profileEnabled profile }

/-- The process is gone, and with it its connections. -/
def endProcess (id : Nat) (code : Int) : World :=
  { world with
    processes := world.processes.filter fun process => process.id ≠ id
    ended := world.ended ++ [(id, code)]
    connections := world.connections.filter fun connection => connection.owningProcess ≠ id }

def ownRules (ruleGroup : String) : List Rule := world.rules.filter fun rule => rule.group = ruleGroup

def otherRules (ruleGroup : String) : List Rule :=
  world.rules.filter fun rule => rule.group ≠ ruleGroup

def addRules (rules : List Rule) : World := { world with rules := world.rules ++ rules }

/-- `Get-NetFirewallRule -Group | Remove-NetFirewallRule`, which goes on where some stay. -/
def removeGroup (ruleGroup : String) (left : List Rule) : World :=
  { world with rules := world.otherRules ruleGroup ++ left }

end World

/-! ### The script -/

section

variable (settings : Settings)

/-- What is checked before the firewall is looked at. -/
def check : Except RunError Unit :=
  if settings.relativeToBuild = ".." ∨ "..\\".toList <+: settings.relativeToBuild.toList then
    .error (.thrown ("ClientRoot must remain under " ++ settings.buildRootPath))
  else if settings.clientExe ∉ settings.executables then
    .error (.thrown ("Patched client executable is missing: " ++ settings.clientExe))
  else if settings.markerPresent = false then
    .error (.thrown ("Patched-copy marker is missing: " ++ settings.marker))
  else if settings.pythonFound = false then .error .cmdlet
  else if settings.verifyExitCode ≠ 0 then .error (.thrown "Patched client verification failed")
  else .ok ()

def blockRule (displayName program : String) (remoteAddress : List AddressRange) : Rule where
  displayName := displayName
  group := settings.ruleGroup
  direction := .outbound
  action := .block
  enabled := true
  profile := none
  program := program
  protocol := none
  remoteAddress := remoteAddress

/-- The rules that the loop over the executables makes, in its order; its index begins with 1. -/
def blockRules : List Rule :=
  settings.executables.zipIdx.flatMap fun (program, index) =>
    [blockRule settings (settings.ruleGroup ++ "-v4-" ++ toString (index + 1)) program blockedIPv4,
      blockRule settings (settings.ruleGroup ++ "-v6-" ++ toString (index + 1)) program blockedIPv6]

def disabledProfiles (world : World) : List ProfileName :=
  ProfileName.all.filter fun profile => world.profileEnabled profile = false

def joinNames (profiles : List ProfileName) : String :=
  ", ".intercalate (profiles.map ProfileName.name)

def watchedStates : List TcpState :=
  [.established, .synSent, .synReceived, .closeWait, .finWait1, .finWait2]

/-- `@("127.0.0.1", "::1")` -/
def expectedAddresses : List Address := [.v4 (ipv4 127 0 0 1), .v6 1]

def connectionsOf (world : World) (id : Nat) : List Connection :=
  world.connections.filter fun connection =>
    connection.owningProcess = id ∧ connection.state ∈ watchedStates

def unexpected (connections : List Connection) : List Connection :=
  connections.filter fun connection => connection.remoteAddress ∉ expectedAddresses

def Connection.destination (connection : Connection) : Destination :=
  (connection.remoteAddress, connection.remotePort)

/-- One turn of the loop over the connections; the set tells which destinations are new. -/
def observe (observed : List Destination) (connection : Connection) : List Destination :=
  if connection.remoteAddress ∈ expectedAddresses ∧ connection.remotePort ≠ settings.serverPort ∧
      connection.destination ∉ observed then
    observed ++ [connection.destination]
  else observed

def isNewClient (known : List Nat) (process : Process) : Bool :=
  process.executablePath = settings.clientExe ∧ process.id ∉ known

end

namespace State

variable (s : State)

def goTo (phase : Phase) : State := { s with phase := phase }

/-- An exception inside of the outer `try`: the `finally` block is next. -/
def leave (e : RunError) : State := s.goTo (.removeRules (.error e))

def inWorld (world : World) : State := { s with world := world }

end State

section

variable (settings : Settings) (s : State)

/-- A turn while the client runs, as far as the script knows. -/
def watchTurn (id : Nat) (answer : Answer) : State :=
  match answer with
  | .fails _ => s.leave .cmdlet
  | _ =>
    if id ∈ s.world.processes.map Process.id then
      let connections := connectionsOf s.world id
      if unexpected connections ≠ [] then
        (s.inWorld (s.world.endProcess id (-1))).leave
          (.unexpected ((unexpected connections).map Connection.destination))
      else
        { s with observedAuxLoopback := connections.foldl (observe settings) s.observedAuxLoopback }
    else s.goTo (.removeRules (.ok ((s.world.ended.lookup id).getD 0)))

def enableTurn (answer : Answer) : State :=
  let restore := s.profilesToRestore
  if restore = [] then s.goTo .testServer
  else if settings.temporarilyEnableFirewallProfiles = false then
    s.leave (.thrown ("All Windows Firewall profiles must be enabled; disabled: " ++
      joinNames restore ++ ". Re-run with -TemporarilyEnableFirewallProfiles only after explicit " ++
      "approval."))
  else
    match answer with
    | .succeeds => (s.inWorld (s.world.setProfiles restore true)).goTo .confirmProfiles
    | .declines => s.goTo .confirmProfiles
    | .fails finished => (s.inWorld (s.world.setProfiles (restore.take finished) true)).leave .cmdlet

def restoreTurn (outcome : Outcome) (answer : Answer) : State :=
  let restore := s.profilesToRestore
  if restore ≠ [] ∧ settings.temporarilyEnableFirewallProfiles = true then
    match answer with
    | .fails finished =>
      (s.inWorld (s.world.setProfiles (restore.take finished) false)).goTo (.ended (.error
        (.thrown "Could not restore the original disabled firewall profiles: ")))
    | _ => (s.inWorld (s.world.setProfiles restore false)).goTo (.ended outcome)
  else s.goTo (.ended outcome)

/-- What the script does next, given how the cmdlet it calls ends. -/
def turn (answer : Answer) : State :=
  match s.phase, answer with
  | .preflight, .fails _ | .readProfiles, .fails _ => s.goTo (.ended (.error .cmdlet))
  | .preflight, _ =>
    match check settings with
    | .error e => s.goTo (.ended (.error e))
    | .ok () => s.goTo .readProfiles
  | .readProfiles, _ =>
    { s with profilesToRestore := disabledProfiles s.world, phase := .enableProfiles }
  | .enableProfiles, answer => enableTurn settings s answer
  | .confirmProfiles, .fails _ => s.leave .cmdlet
  | .confirmProfiles, _ =>
    if (s.profilesToRestore.filter fun profile => s.world.profileEnabled profile = false) ≠ [] then
      s.leave (.thrown "Failed to enable every required Windows Firewall profile")
    else s.goTo .testServer
  | .testServer, .succeeds => s.goTo .listExecutables
  | .testServer, .declines => s.leave
      (.thrown ("Local server is not listening on 127.0.0.1:" ++ toString settings.serverPort))
  | .testServer, .fails _ => s.leave .cmdlet
  | .listExecutables, .fails _ => s.leave .cmdlet
  | .listExecutables, _ =>
    if settings.executables = [] then
      s.leave (.thrown "No executable files found in patched client copy")
    else s.goTo (.addRules (blockRules settings))
  -- The rule of a cmdlet that fails may have been made all the same.
  | .addRules (rule :: _), .fails finished =>
    (s.inWorld (s.world.addRules (List.take finished [rule]))).leave .cmdlet
  | .addRules (rule :: left), _ => (s.inWorld (s.world.addRules [rule])).goTo (.addRules left)
  | .addRules [], _ => s.goTo .listClients
  | .listClients, .fails _ | .launch, .fails _ | .awaitClient, .fails _ | .openClient _, .fails _ =>
    s.leave .cmdlet
  | .listClients, _ =>
    { s with
      knownClientIds := (s.world.processes.filter fun process =>
        process.executablePath = settings.clientExe).map Process.id
      phase := .launch }
  | .launch, _ => s.goTo .awaitClient
  | .awaitClient, .declines =>
    s.leave (.thrown "Client did not start through the interactive desktop shell")
  | .awaitClient, .succeeds =>
    match s.world.processes.find? (isNewClient settings s.knownClientIds) with
    | some candidate => s.goTo (.openClient candidate.id)
    | none => s
  | .openClient id, _ =>
    if id ∈ s.world.processes.map Process.id then s.goTo (.watch id) else s.leave .cmdlet
  | .watch id, answer => watchTurn settings s id answer
  | .removeRules outcome, answer =>
    let own := s.world.ownRules settings.ruleGroup
    let left := match answer with
      | .fails finished => own.drop finished
      | _ => []
    (s.inWorld (s.world.removeGroup settings.ruleGroup left)).goTo (.restoreProfiles outcome)
  | .restoreProfiles outcome, answer => restoreTurn settings s outcome answer
  | .ended _, _ => s

end

/-! ### The machine beside it -/

/-- Something that the script does not do. A number that a process has had is not used again, and
a connection is made where no rule blocks it. -/
def World.happen (world : World) : Event → World
  | .turn _ => world
  | .starts process =>
    if process.id ∈ world.seen then world
    else { world with processes := world.processes ++ [process] }
  | .exits id code =>
    if id ∈ world.processes.map Process.id then world.endProcess id code else world
  | .connects connection profile =>
    match world.processes.find? fun process => process.id = connection.owningProcess with
    | some process =>
      if world.Blocks ⟨profile, process.executablePath, 6, connection.remoteAddress⟩ then world
      else { world with connections := world.connections ++ [connection] }
    | none => world
  | .moves connection state =>
    { world with connections := world.connections.map fun other =>
        if other = connection then { other with state := state } else other }
  | .closes connection =>
    { world with connections := world.connections.filter fun other => other ≠ connection }

def step (settings : Settings) (s : State) : Event → State
  | .turn answer => turn settings s answer
  | event => s.inWorld (s.world.happen event)

end IsolatedRun
end Army3
