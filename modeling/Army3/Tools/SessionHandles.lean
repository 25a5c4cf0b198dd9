import Army3.Tools.ReaderSession

/-! The two inspectors close what they open, and read only from a process of the local copy. -/

namespace Army3

open Traced HandleEvent SystemCall

namespace Windows

variable (w : Windows) (allowedRoot : Except SessionError ResolvedPath)

/-- The process can be opened, and its executable lies below the allowed root. -/
structure Accepts : Prop where
  nt : w.isNt = true
  opened : ∃ process, w.process = some process
  inside : ∃ root executable, allowedRoot = .ok root ∧ w.executable = some (.ok executable) ∧
    w.isRelativeTo executable root = true

/-- What a call may be: before the executable is known to be inside the local copy only its name is
asked for, and memory is read through the handle of the process alone. -/
def Allows : SystemCall → Prop
  | .openProcess access _ handle => access = 0x0410 ∧ handle = w.process
  | .queryFullProcessImageName process => w.process = some process
  | .readProcessMemory process _ => w.process = some process ∧ w.Accepts allowedRoot
  | .closeHandle handle => w.process = some handle ∨ w.snapshot = some handle
  | _ => w.Accepts allowedRoot

/-- The base of the module of that name that comes first in the list. -/
def loadedBase (moduleName : PyStr) : Option Nat :=
  (w.modules.find? fun entry => w.casefold entry.szModule = w.casefold moduleName).map
    LoadedModule.modBaseAddr

variable {w allowedRoot} {handle : Handle} {root : ResolvedPath} {pid : Int} {α : Type}
  {held : List Handle} {snapshot : Handle} {moduleName : PyStr}

theorem orLastError_eq_ok {action : String} {answer : Option α} {a : α} :
    orLastError action answer = .ok a ↔ answer = some a := by
  cases answer with
  | some b => simp only [orLastError, Except.ok.injEq, Option.some.injEq]
  | none => simp only [orLastError, reduceCtorEq]

theorem result_checkExecutable {done : Unit} :
    (w.checkExecutable root handle).result = .ok done ↔
      ∃ executable, w.executable = some (.ok executable) ∧
        w.isRelativeTo executable root = true := by
  simp only [checkExecutable, result_bind_eq_ok, result_ask_eq_ok, result_ofExcept_eq_ok, orLastError_eq_ok,
    result_raiseIf_eq_ok, Bool.not_eq_false]
  constructor
  · rintro ⟨name, hname, executable, rfl, hinside⟩
    exact ⟨executable, hname, hinside⟩
  · rintro ⟨executable, hname, hinside⟩
    exact ⟨_, hname, executable, rfl, hinside⟩

theorem result_processReader :
    (w.processReader pid allowedRoot).result = .ok handle ↔
      w.process = some handle ∧ w.Accepts allowedRoot := by
  simp only [processReader, result_bind_eq_ok, result_ofExcept_eq_ok, result_raiseIf_eq_ok, openProcess, result_ask_eq_ok,
    orLastError_eq_ok, result_onError, result_checkExecutable, result_pure_eq_ok, Bool.not_eq_false]
  constructor
  · rintro ⟨root, hroot, _, hnt, opened, hopened, _, ⟨executable, hname, hinside⟩, rfl⟩
    exact ⟨hopened, hnt, ⟨_, hopened⟩, root, executable, hroot, hname, hinside⟩
  · rintro ⟨hopened, hnt, _, root, executable, hroot, hname, hinside⟩
    exact ⟨root, hroot, (), hnt, handle, hopened, (), ⟨executable, hname, hinside⟩, rfl⟩

/-! The handles. -/

theorem acquires_openProcess : Acquires event [] (w.openProcess pid) := by
  refine ⟨fun handle hresult => ⟨List.not_mem_nil, ?_⟩, fun e hresult => ?_⟩
  · have hprocess := orLastError_eq_ok.mp hresult
    simp only [openProcess, ask, hprocess]
    rfl
  · cases hprocess : w.process with
    | some handle => simp only [openProcess, ask, orLastError, hprocess, reduceCtorEq] at hresult
    | none =>
      simp only [openProcess, ask, hprocess]
      rfl

theorem keeps_checkExecutable (h : handle ∈ held) :
    Keeps event held (w.checkExecutable root handle) := by
  refine keeps_bind (keeps_ask (if_pos h)) fun name _ => ?_
  exact keeps_bind .nil fun executable _ => keeps_raiseIf

theorem acquires_processReader : Acquires event [] (w.processReader pid allowedRoot) := by
  refine .after .nil fun root _ => .after keeps_raiseIf fun _ _ => ?_
  exact acquires_openProcess.checked (fun _ => rfl) fun handle _ =>
    keeps_checkExecutable List.mem_cons_self

theorem keeps_searchModules (h : snapshot ∈ held) (entries : List LoadedModule) :
    Keeps event held (w.searchModules snapshot moduleName entries) := by
  induction entries with
  | nil => exact keeps_pure
  | cons entry entries ih =>
    unfold searchModules
    split
    · exact keeps_bind keeps_raiseIf fun _ _ => keeps_pure
    · exact keeps_bind (keeps_ask (if_pos h)) fun _ _ => ih

theorem acquires_createSnapshot (hprocess : w.process = some handle) :
    Acquires event [handle] (ask (.createSnapshot snapshotFlags pid w.snapshot)
      (orLastError "CreateToolhelp32Snapshot" w.snapshot) : Session Handle) := by
  cases hsnapshot : w.snapshot with
  | some snapshot =>
    refine ⟨fun given hresult => ?_, fun e hresult => ?_⟩
    · obtain rfl : snapshot = given := Except.ok.inj hresult
      have hne : snapshot ∉ [handle] := by
        rw [List.mem_singleton]
        rintro rfl
        exact w.fresh snapshot hprocess hsnapshot
      exact ⟨hne, moves_cons.mpr ⟨_, if_neg hne, .nil⟩⟩
    · cases hresult
  | none =>
    refine ⟨fun given hresult => ?_, fun e _ => rfl⟩
    cases hresult

theorem keeps_moduleBase (hprocess : w.process = some handle) :
    Keeps event [handle] (w.moduleBase pid moduleName) := by
  refine keeps_bind ?_ fun found _ => ?_
  · refine keeps_session (acquires_createSnapshot hprocess) (fun _ => rfl) fun snapshot _ => ?_
    refine keeps_bind (keeps_ask (if_pos List.mem_cons_self)) fun _ _ => ?_
    exact keeps_searchModules List.mem_cons_self w.modules
  · cases found with
    | some base => exact keeps_pure
    | none => exact keeps_raise

theorem keeps_throughHandle {x : Reading α} (h : handle ∈ held) :
    Keeps event held (throughHandle handle x) :=
  .of_every (every_within.mpr fun _ _ => if_pos h)

theorem keeps_printLines {lines : List PyStr} : Keeps event held (printLines lines) := by
  refine .of_every fun call hcall => ?_
  obtain ⟨line, _, rfl⟩ := List.mem_map.mp hcall
  rfl

theorem keeps_withProcessReader {body : Handle → Session α}
    (hbody : ∀ handle, w.process = some handle → Keeps event [handle] (body handle)) :
    Keeps event [] (w.withProcessReader pid allowedRoot body) :=
  keeps_session acquires_processReader (fun _ => rfl) fun handle hresult =>
    hbody handle ((result_processReader.mp hresult).1)

/-! What is asked, and of which process. -/

theorem every_processReader : Every (w.Allows allowedRoot) (w.processReader pid allowedRoot) := by
  refine every_bind.mpr ⟨every_ofExcept, fun root _ => every_bind.mpr ⟨every_raiseIf, fun _ _ => ?_⟩⟩
  refine every_bind.mpr ⟨every_ask.mpr ⟨rfl, rfl⟩, fun handle hresult => ?_⟩
  have hprocess : w.process = some handle := orLastError_eq_ok.mp hresult
  refine every_bind.mpr ⟨every_onError ?_ (.inl hprocess), fun _ _ => every_pure⟩
  refine every_bind.mpr ⟨every_ask.mpr hprocess, fun _ _ => ?_⟩
  exact every_bind.mpr ⟨every_ofExcept, fun _ _ => every_raiseIf⟩

theorem every_searchModules (h : w.Accepts allowedRoot) (entries : List LoadedModule) :
    Every (w.Allows allowedRoot) (w.searchModules snapshot moduleName entries) := by
  induction entries with
  | nil => exact every_pure
  | cons entry entries ih =>
    refine every_ite (fun _ => ?_) fun _ => ?_
    · exact every_bind.mpr ⟨every_raiseIf, fun _ _ => every_pure⟩
    · exact every_bind.mpr ⟨every_ask.mpr h, fun _ _ => ih⟩

theorem every_moduleBase (h : w.Accepts allowedRoot) :
    Every (w.Allows allowedRoot) (w.moduleBase pid moduleName) := by
  refine every_bind.mpr ⟨?_, fun found _ => ?_⟩
  · refine every_bind.mpr ⟨every_ask.mpr h, fun snapshot hresult => ?_⟩
    have hsnapshot : w.snapshot = some snapshot := orLastError_eq_ok.mp hresult
    refine every_andFinally.mpr ⟨every_bind.mpr ⟨every_ask.mpr h, fun _ _ => ?_⟩, .inr hsnapshot⟩
    exact every_searchModules h w.modules
  · cases found with
    | some base => exact every_pure
    | none => exact every_raise

theorem every_throughHandle {x : Reading α} (hprocess : w.process = some handle)
    (h : w.Accepts allowedRoot) : Every (w.Allows allowedRoot) (throughHandle handle x) :=
  every_within.mpr fun _ _ => ⟨hprocess, h⟩

theorem every_printLines {lines : List PyStr} (h : w.Accepts allowedRoot) :
    Every (w.Allows allowedRoot) (printLines lines) := by
  intro call hcall
  obtain ⟨line, _, rfl⟩ := List.mem_map.mp hcall
  exact h

theorem every_withProcessReader {body : Handle → Session α}
    (hbody : ∀ handle, w.process = some handle → w.Accepts allowedRoot →
      Every (w.Allows allowedRoot) (body handle)) :
    Every (w.Allows allowedRoot) (w.withProcessReader pid allowedRoot body) := by
  refine every_bind.mpr ⟨every_processReader, fun handle hresult => ?_⟩
  obtain ⟨hprocess, haccepts⟩ := result_processReader.mp hresult
  exact every_andFinally.mpr ⟨hbody handle hprocess haccepts, .inl hprocess⟩

/-! The answers. -/

theorem result_searchModules {entries : List LoadedModule} {found : Option Nat} :
    (w.searchModules snapshot moduleName entries).result = .ok found ↔
      (entries.find? fun entry => w.casefold entry.szModule = w.casefold moduleName).map
          LoadedModule.modBaseAddr = found ∧ found ≠ some 0 := by
  induction entries with
  | nil =>
    simp only [searchModules, result_pure_eq_ok, List.find?_nil, Option.map_none]
    constructor
    · rintro rfl
      exact ⟨rfl, fun hzero => by cases hzero⟩
    · exact fun h => h.1
  | cons entry entries ih =>
    unfold searchModules
    by_cases h : w.casefold entry.szModule = w.casefold moduleName
    · rw [if_pos h, List.find?_cons_of_pos (by simpa using h), Option.map_some]
      simp only [result_bind_eq_ok, result_raiseIf_eq_ok, result_pure_eq_ok]
      constructor
      · rintro ⟨_, hbase, rfl⟩
        exact ⟨rfl, fun hzero => hbase (Option.some.inj hzero)⟩
      · rintro ⟨rfl, hbase⟩
        exact ⟨(), fun hzero => hbase (congrArg some hzero), rfl⟩
    · rw [if_neg h, List.find?_cons_of_neg (by simpa using h), ← ih]
      simp only [result_bind_eq_ok, result_ask_eq_ok, true_and, exists_const]

theorem result_moduleBase {base : Nat} :
    (w.moduleBase pid moduleName).result = .ok base ↔
      (∃ snapshot, w.snapshot = some snapshot) ∧ w.loadedBase moduleName = some base ∧ base ≠ 0 := by
  have hfound : (w.searchSnapshot pid moduleName).result = .ok (some base) ↔
      (∃ snapshot, w.snapshot = some snapshot) ∧ (∃ first, w.modules.head? = some first) ∧
        w.loadedBase moduleName = some base ∧ base ≠ 0 := by
    simp only [searchSnapshot, andFinally, result_bind_eq_ok, result_ask_eq_ok, orLastError_eq_ok,
      result_searchModules, loadedBase, ne_eq, Option.some.injEq]
    constructor
    · rintro ⟨snapshot, hsnapshot, first, hfirst, hloaded⟩
      exact ⟨⟨snapshot, hsnapshot⟩, ⟨first, hfirst⟩, hloaded⟩
    · rintro ⟨⟨snapshot, hsnapshot⟩, ⟨first, hfirst⟩, hloaded⟩
      exact ⟨snapshot, hsnapshot, first, hfirst, hloaded⟩
  have hfirst (hloaded : w.loadedBase moduleName = some base) :
      ∃ first, w.modules.head? = some first := by
    cases hmodules : w.modules with
    | nil => simp [loadedBase, hmodules] at hloaded
    | cons first rest => exact ⟨first, rfl⟩
  rw [moduleBase, result_bind_eq_ok]
  constructor
  · rintro ⟨found, hresult, hmatch⟩
    cases found with
    | none => cases hmatch
    | some given =>
      obtain rfl : given = base := result_pure_eq_ok.mp hmatch
      obtain ⟨hsnapshot, _, hloaded⟩ := hfound.mp hresult
      exact ⟨hsnapshot, hloaded⟩
  · rintro ⟨hsnapshot, hloaded⟩
    exact ⟨some base, hfound.mpr ⟨hsnapshot, hfirst hloaded.1, hloaded⟩, result_pure_eq_ok.mpr rfl⟩

theorem result_withProcessReader {body : Handle → Session α} {a : α} :
    (w.withProcessReader pid allowedRoot body).result = .ok a ↔
      w.Accepts allowedRoot ∧ ∃ handle, w.process = some handle ∧ (body handle).result = .ok a := by
  simp only [withProcessReader, result_bind_eq_ok, result_processReader, andFinally]
  constructor
  · rintro ⟨handle, ⟨hprocess, haccepts⟩, hbody⟩
    exact ⟨haccepts, handle, hprocess, hbody⟩
  · rintro ⟨haccepts, handle, hprocess, hbody⟩
    exact ⟨handle, ⟨hprocess, haccepts⟩, hbody⟩

end Windows

open Windows

section

variable {w : Windows} {allowedRoot : Except SessionError ResolvedPath} {handle : Handle}
  {args : VtableArgs} {image : Image} {pid : Int}

theorem result_gameAssemblyBase {loaded : Option Nat} {base : Nat} :
    (gameAssemblyBase loaded).result = .ok base ↔ loaded = some base ∧ base ≠ 0 := by
  cases loaded with
  | none => simp [gameAssemblyBase, Traced.raise]
  | some given =>
    simp only [gameAssemblyBase, result_bind_eq_ok, result_raiseIf_eq_ok, result_pure_eq_ok,
      Option.some.injEq]
    constructor
    · rintro ⟨_, hbase, rfl⟩
      exact ⟨rfl, hbase⟩
    · rintro ⟨rfl, hbase⟩
      exact ⟨(), hbase, rfl⟩

theorem result_inspectProcess {report : PyValue} :
    (inspectProcess w pid allowedRoot).result = .ok report ↔
      w.Accepts allowedRoot ∧ (∃ snapshot, w.snapshot = some snapshot) ∧
        (inspect w.image pid (w.loadedBase gameAssembly)).result = .ok report := by
  simp only [inspectProcess, result_withProcessReader, result_bind_eq_ok, result_moduleBase,
    throughHandle, result_within_eq_ok, inspect, result_gameAssemblyBase]
  constructor
  · rintro ⟨haccepts, handle, _, base, ⟨hsnapshot, hloaded⟩, s, hs, hreport⟩
    exact ⟨haccepts, hsnapshot, base, hloaded, s, hs, hreport⟩
  · rintro ⟨haccepts, hsnapshot, base, hloaded, s, hs, hreport⟩
    obtain ⟨handle, hprocess⟩ := haccepts.opened
    exact ⟨haccepts, handle, hprocess, base, ⟨hsnapshot, hloaded⟩, s, hs, hreport⟩

theorem keeps_printString : Keeps event [handle] (printString image args handle) := by
  unfold printString
  split
  · exact keeps_bind (keeps_throughHandle List.mem_cons_self) fun _ _ => keeps_printLines
  · exact keeps_pure

theorem keeps_printDump : Keeps event [handle] (printDump image args handle) := by
  unfold printDump
  split
  · exact keeps_pure
  · refine keeps_bind keeps_raiseIf fun _ _ => ?_
    exact keeps_bind (keeps_throughHandle List.mem_cons_self) fun _ _ => keeps_printLines

theorem every_printString (hprocess : w.process = some handle) (h : w.Accepts allowedRoot) :
    Every (w.Allows allowedRoot) (printString image args handle) :=
  every_ite (fun _ => every_bind.mpr
    ⟨every_throughHandle hprocess h, fun _ _ => every_printLines h⟩) fun _ => every_pure

theorem every_printDump (hprocess : w.process = some handle) (h : w.Accepts allowedRoot) :
    Every (w.Allows allowedRoot) (printDump image args handle) := by
  refine every_ite (fun _ => every_pure) fun _ => every_bind.mpr ⟨every_raiseIf, fun _ _ => ?_⟩
  exact every_bind.mpr ⟨every_throughHandle hprocess h, fun _ _ => every_printLines h⟩

end
end Army3
