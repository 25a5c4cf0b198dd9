import Army3.Framework.Handles
import Army3.Tools.InspectRuntime

/-! The `ProcessReader` over the system: the handles of the two inspectors, and what they guard. -/

namespace Army3

open Traced HandleEvent

abbrev Handle := Nat

/-- The calls into `kernel32`, with the handle where one is opened, and what is printed. -/
inductive SystemCall where
  | openProcess (access : Nat) (pid : Int) (handle : Option Handle)
  | queryFullProcessImageName (process : Handle)
  | createSnapshot (flags : Nat) (pid : Int) (handle : Option Handle)
  | moduleFirst (snapshot : Handle)
  | moduleNext (snapshot : Handle)
  | readProcessMemory (process : Handle) (access : Access)
  | closeHandle (handle : Handle)
  | print (line : PyStr)

def SystemCall.event : SystemCall → HandleEvent Handle
  | .openProcess _ _ handle => handle.elim .other .opens
  | .queryFullProcessImageName process => .uses process
  | .createSnapshot _ _ handle => handle.elim .other .opens
  | .moduleFirst snapshot => .uses snapshot
  | .moduleNext snapshot => .uses snapshot
  | .readProcessMemory process _ => .uses process
  | .closeHandle handle => .closes handle
  | .print _ => .other

/-- What ends a session: an error of the reader, or one of the file system at `resolve()`. -/
inductive SessionError where
  | runtime (error : RuntimeReadError)
  | unresolved

abbrev Session (α : Type) := Traced SystemCall SessionError α

/-- A resolved path: its anchor and the names below it. -/
structure ResolvedPath where
  anchor : PyStr
  names : List PyStr

/-- `str(path)`; the anchor ends in its backslash. -/
def ResolvedPath.str (path : ResolvedPath) : PyStr := path.anchor ++ [backslash].intercalate path.names

structure LoadedModule where
  szModule : PyStr
  modBaseAddr : Nat

/-- A Windows system with the process in it, as the calls find it. -/
structure Windows where
  isNt : Bool
  lower : PyStr → PyStr
  casefold : PyStr → PyStr
  /-- The answer of `OpenProcess`, when it is not null. -/
  process : Option Handle
  /-- `Path(buffer.value).resolve()`, when the name of the image can be had. -/
  executable : Option (Except SessionError ResolvedPath)
  /-- The answer of `CreateToolhelp32Snapshot`, when it is not the invalid one. -/
  snapshot : Option Handle
  modules : List LoadedModule
  image : Image
  /-- A handle that is given out is not open yet. -/
  fresh : ∀ handle, process = some handle → snapshot ≠ some handle

/-- `_raise_last_error(action)` where the call has failed. -/
def orLastError {α : Type} (action : String) (answer : Option α) : Except SessionError α :=
  match answer with
  | some a => .ok a
  | none => .error (.runtime (.lastError (PyStr.lit action)))

/-- `raise RuntimeReadError(text)` -/
def runtimeError (text : PyStr) : SessionError := .runtime (.message text)

namespace Windows

variable (w : Windows)

/-- `path.relative_to(root)` does not raise: no path is relative to one with another anchor, and case
does not matter. -/
def isRelativeTo (path root : ResolvedPath) : Bool :=
  w.lower path.anchor = w.lower root.anchor ∧ root.names.map w.lower <+: path.names.map w.lower

/-- The body of the `try` in `ProcessReader.__init__`. -/
def checkExecutable (root : ResolvedPath) (handle : Handle) : Session Unit := do
  let name ← ask (.queryFullProcessImageName handle)
    (orLastError "QueryFullProcessImageNameW" w.executable)
  let executable ← ofExcept name
  Traced.raiseIf (w.isRelativeTo executable root = false)
    (runtimeError (PyStr.lit "process executable is outside local copy: " ++ executable.str))

/-- `PROCESS_QUERY_INFORMATION | PROCESS_VM_READ` -/
def processAccess : Nat := 0x0400 ||| 0x0010

/-- `TH32CS_SNAPMODULE | TH32CS_SNAPMODULE32` -/
def snapshotFlags : Nat := 0x00000008 ||| 0x00000010

/-- `self.handle = OpenProcess(…)`, null or not. -/
def openProcess (pid : Int) : Session Handle :=
  ask (.openProcess processAccess pid w.process) (orLastError "OpenProcess" w.process)

/-- `ProcessReader(pid, allowed_root)` -/
def processReader (pid : Int) (allowedRoot : Except SessionError ResolvedPath) : Session Handle := do
  let root ← ofExcept allowedRoot
  Traced.raiseIf (w.isNt = false)
    (runtimeError (PyStr.lit "runtime inspection is supported only on Windows"))
  let handle ← w.openProcess pid
  (w.checkExecutable root handle).onError (.closeHandle handle)
  pure handle

/-- The loop of `module_base`; nothing is found when the list of modules is at its end. -/
def searchModules (snapshot : Handle) (moduleName : PyStr) : List LoadedModule → Session (Option Nat)
  | [] => pure none
  | entry :: entries =>
    if w.casefold entry.szModule = w.casefold moduleName then do
      Traced.raiseIf (entry.modBaseAddr = 0) (runtimeError (PyStr.lit "null module base: " ++ moduleName))
      pure (some entry.modBaseAddr)
    else do
      ask (.moduleNext snapshot) (.ok ())
      searchModules snapshot moduleName entries

/-- The `try` of `module_base`, and its snapshot. -/
def searchSnapshot (pid : Int) (moduleName : PyStr) : Session (Option Nat) := do
  let snapshot ← ask (.createSnapshot snapshotFlags pid w.snapshot)
    (orLastError "CreateToolhelp32Snapshot" w.snapshot)
  Traced.andFinally (do
    let _ ← ask (.moduleFirst snapshot) (orLastError "Module32FirstW" w.modules.head?)
    w.searchModules snapshot moduleName w.modules) (.closeHandle snapshot)

/-- `reader.module_base(module_name)` -/
def moduleBase (pid : Int) (moduleName : PyStr) : Session Nat := do
  let found ← w.searchSnapshot pid moduleName
  match found with
  | some base => pure base
  | none => raise (runtimeError (PyStr.lit "module not found: " ++ moduleName))

/-- `with ProcessReader(pid, allowed_root) as reader:` -/
def withProcessReader {α : Type} (pid : Int) (allowedRoot : Except SessionError ResolvedPath)
    (body : Handle → Session α) : Session α := do
  let handle ← w.processReader pid allowedRoot
  (body handle).andFinally (.closeHandle handle)

end Windows

/-- What the reader reads is read through its handle. -/
def throughHandle {α : Type} (handle : Handle) (x : Reading α) : Session α :=
  x.within (.readProcessMemory handle) .runtime

def gameAssembly : PyStr := PyStr.lit "GameAssembly.dll"

/-- `inspect(pid, allowed_root)` -/
def inspectProcess (w : Windows) (pid : Int) (allowedRoot : Except SessionError ResolvedPath) :
    Session PyValue :=
  w.withProcessReader pid allowedRoot fun handle => do
    let moduleBase ← w.moduleBase pid gameAssembly
    throughHandle handle do
      let s ← readStaticFields w.image moduleBase
      inspectFields w.image moduleBase s pid

/-- An entry of `inspect_vtable`. -/
structure VtableEntry where
  slotOffset : Nat
  method : Nat
  deriving DecidableEq

/-- The loop of `inspect_vtable`. -/
def vtableEntries (image : Image) (klass : Nat) : List Nat → Reading (List VtableEntry)
  | [] => pure []
  | offset :: offsets => do
    let method ← pointer image klass offset
    let entries ← vtableEntries image klass offsets
    pure (if method = 0 then entries else ⟨offset, method⟩ :: entries)

/-- `range(start, end, 0x10)` with its defaults. -/
def slotOffsets : List Nat := (List.range 30).map (0x128 + 0x10 * ·)

/-- `inspect_vtable(reader, module_base, object_address)` -/
def inspectVtable (image : Image) (objectAddress : Nat) : Reading (List VtableEntry) := do
  let klass ← pointer image objectAddress 0
  vtableEntries image klass slotOffsets

namespace VtableEntry

/-- `f"0x{method - module_base:X}" if method >= module_base else ""` -/
def rva (moduleBase : Nat) (entry : VtableEntry) : PyStr :=
  if moduleBase ≤ entry.method then PyStr.hex (entry.method - moduleBase) else []

/-- The line that is printed for an entry. -/
def line (moduleBase : Nat) (entry : VtableEntry) : PyStr :=
  PyStr.hex entry.slotOffset ++ PyStr.lit " method=" ++ PyStr.hex entry.method ++ PyStr.lit " rva=" ++
    entry.rva moduleBase

end VtableEntry

namespace PyStr

/-- `f"{value:03X}"` -/
def hex03 (value : Nat) : PyStr :=
  ofChars (((Nat.toDigits 16 value).map Char.toUpper).leftpad 3 '0')

/-- `raw.hex(" ")` -/
def hexBytes (raw : Bytes) : PyStr :=
  [space].intercalate (raw.map fun byte =>
    ofChars [Nat.digitChar (byte.toNat / 16), Nat.digitChar (byte.toNat % 16)])

end PyStr

/-- The slices of sixteen bytes, with their offsets. -/
def chunks (raw : Bytes) : List (Nat × Bytes) :=
  (List.range ((raw.length + 15) / 16)).map fun row => (16 * row, (raw.drop (16 * row)).take 16)

/-- The line that is printed for sixteen bytes. -/
def chunkLine (chunk : Nat × Bytes) : PyStr :=
  PyStr.lit "object+0x" ++ PyStr.hex03 chunk.1 ++ PyStr.lit ": " ++ PyStr.hexBytes chunk.2

/-- `print(line)` for one line after the other. -/
def printLines (lines : List PyStr) : Session Unit := ⟨lines.map .print, .ok ()⟩

/-- `args`; an object below zero is left out. -/
structure VtableArgs where
  pid : Int
  object : Nat
  dumpSize : Int
  asManagedString : Bool

/-- `if args.as_managed_string:` -/
def printString (image : Image) (args : VtableArgs) (handle : Handle) : Session Unit :=
  if args.asManagedString then do
    let text ← throughHandle handle (managedString image args.object)
    printLines [text]
  else pure ()

/-- `if args.dump_size:` -/
def printDump (image : Image) (args : VtableArgs) (handle : Handle) : Session Unit :=
  if args.dumpSize = 0 then pure ()
  else do
    Traced.raiseIf (¬ (0 < args.dumpSize ∧ args.dumpSize ≤ 0x400))
      (runtimeError (PyStr.lit "--dump-size must be between 1 and 0x400"))
    let raw ← throughHandle handle (read image args.object 0 args.dumpSize.toNat)
    printLines ((chunks raw).map chunkLine)

/-- `main()` of the vtable inspector. -/
def vtableMain (w : Windows) (args : VtableArgs) (clientRoot : Except SessionError ResolvedPath) :
    Session Unit :=
  w.withProcessReader args.pid clientRoot fun handle => do
    let moduleBase ← w.moduleBase args.pid gameAssembly
    printString w.image args handle
    printDump w.image args handle
    let entries ← throughHandle handle (inspectVtable w.image args.object)
    printLines (entries.map (·.line moduleBase))

end Army3
