import Army3.Tools.RedirectClient

/-! Creating a redirected copy, with exceptions that may come from outside at every step. -/

namespace Army3

open Files

/-- The file system, and the flag that the exception handler of `create_patched_copy` looks at. -/
structure CopyState where
  disk : Disk
  published : Bool

abbrev Copying (α : Type) := Raising CopyState ToolError α

/-- What a step that failed has left of the temporary directory. -/
structure Residue where
  branch : Branch FileName Bytes
  kind : branch.node? [] = none ∨ branch.node? [] = some .directory

/-- The steps that an outside exception interrupts, with the effect they have had until then. -/
structure Faults where
  loadManifest : Option ToolError
  verifySource : Option ToolError
  makeRoot : Option (Nat × ToolError)
  copytree : Option (Residue × ToolError)
  patchMetadata : Option (Residue × ToolError)
  markerPayload : Option ToolError
  writeMarker : Option (Residue × ToolError)
  verifyTemporary : Option ToolError
  rename : Option ToolError
  verifyOutput : Option ToolError
  verifySourceAgain : Option ToolError

/-- No step is interrupted. -/
def Faults.none : Faults :=
  ⟨.none, .none, .none, .none, .none, .none, .none, .none, .none, .none, .none⟩

namespace Disk

variable (disk : Disk)

/-- `path.mkdir()` of a path without links on it, where a directory that exists is fine. -/
def makeDir (path : List FileName) : Except ToolError Disk :=
  match disk.node? path with
  | some .directory => .ok disk
  | some _ => .error .osError
  | none =>
    if disk.Hosts path then .ok (disk.replace path (.single .directory)) else .error .osError

/-- Where `open` writes: the file that a path leads to, or the place of a new one. -/
def place? (names : List FileName) : Option (List FileName) :=
  match disk.walk maxLinks [] (down names), names.getLast? with
  | some place, _ => some place
  | none, some name =>
    if disk.lstat names = none then
      (disk.walk maxLinks [] (down names.dropLast)).map fun dir => dir ++ [name]
    else none
  | none, none => none

def writeBytes (names : List FileName) (data : Bytes) : Except ToolError Disk :=
  match disk.place? names with
  | some place =>
    if disk.node? place ≠ some .directory ∧ disk.Hosts place then
      .ok (disk.replace place (.single (.file data)))
    else .error .osError
  | none => .error .osError

/-- What `copytree` copies. It follows links; a source with links has been refused before. -/
def treeToCopy (source : List FileName) : Except ToolError (Branch FileName Bytes) :=
  if disk.node? source = some .directory ∧ (disk.below source).LinkFree then
    .ok (disk.below source)
  else .error .osError

/-- `src.rename(dst)` of two paths without links on them; a destination that exists is refused. -/
def rename (src dst : List FileName) : Except ToolError Disk :=
  if disk.node? src = none ∨ src <+: dst ∨ disk.node? dst ≠ none ∨ ¬ disk.Hosts dst then
    .error .osError
  else .ok ((disk.replace src .empty).replace dst (disk.below src))

def rmtree (path : List FileName) : Disk := disk.replace path .empty

/-- `if path.exists(): shutil.rmtree(path)`. -/
def removeIfExists (path : List FileName) : Disk :=
  if disk.exists? path then disk.rmtree path else disk

section

variable {disk} {source path : List FileName} {after : Disk}

theorem makeDir_eq_ok : disk.makeDir path = .ok after ↔
    (disk.node? path = some .directory ∧ after = disk) ∨
    (disk.node? path = none ∧ disk.Hosts path ∧
      after = disk.replace path (.single .directory)) := by
  unfold makeDir
  cases disk.node? path with
  | none =>
    by_cases hhosts : disk.Hosts path
    · simp [hhosts, eq_comm]
    · simp [hhosts]
  | some node => cases node <;> simp [eq_comm]

theorem writeBytes_eq_ok {data : Bytes} : disk.writeBytes path data = .ok after ↔
    ∃ place, disk.place? path = some place ∧ disk.node? place ≠ some .directory ∧
      disk.Hosts place ∧ after = disk.replace place (.single (.file data)) := by
  unfold writeBytes
  cases disk.place? path with
  | none => simp
  | some place =>
    by_cases hopen : disk.node? place ≠ some .directory ∧ disk.Hosts place
    · simp [hopen, eq_comm]
    · simp only [if_neg hopen, reduceCtorEq, Option.some.injEq, false_iff]
      intro hall
      obtain ⟨_, rfl, hkind, hhosts, -⟩ := hall
      exact hopen ⟨hkind, hhosts⟩

/-- A directory without links is copied as it is. -/
theorem treeToCopy_eq_ok {branch : Branch FileName Bytes} :
    disk.treeToCopy source = .ok branch ↔
      disk.node? source = some .directory ∧ (disk.below source).LinkFree ∧
        branch = disk.below source := by
  unfold treeToCopy
  by_cases hcopy : disk.node? source = some .directory ∧ (disk.below source).LinkFree
  · simp [hcopy, eq_comm]
  · simp only [if_neg hcopy, reduceCtorEq, false_iff]
    intro hall
    exact hcopy ⟨hall.1, hall.2.1⟩

theorem rename_eq_ok {src dst : List FileName} : disk.rename src dst = .ok after ↔
    disk.node? src ≠ none ∧ ¬ src <+: dst ∧ disk.node? dst = none ∧ disk.Hosts dst ∧
      after = (disk.replace src .empty).replace dst (disk.below src) := by
  unfold rename
  by_cases hbad : disk.node? src = none ∨ src <+: dst ∨ disk.node? dst ≠ none ∨ ¬ disk.Hosts dst
  · simp only [if_pos hbad, reduceCtorEq, false_iff]
    tauto
  · simp only [if_neg hbad, Except.ok.injEq]
    push Not at hbad
    obtain ⟨hexists, hapart, hfree, hhosts⟩ := hbad
    simp [hexists, hapart, hfree, hhosts, eq_comm]

end

end Disk

/-- A step that an exception may come before, and that has no effect if it fails. -/
def atomic {α : Type} (fault : Option ToolError) (step : Copying α) : Copying α :=
  match fault with
  | none => step
  | some error => throw error

/-- A step that only reads. -/
def reading {α : Type} (fault : Option ToolError) (read : Disk → Except ToolError α) :
    Copying α :=
  atomic fault do
    let state ← get
    liftM (read state.disk)

/-- A step that writes. -/
def writing (update : Disk → Except ToolError Disk) : Copying Unit := do
  let state ← get
  let disk ← liftM (update state.disk)
  set { state with disk := disk }

/-- A step that an exception may interrupt, after any effect on the temporary directory. -/
def interrupted (fault : Option (Residue × ToolError)) (temporary : List FileName)
    (step : Copying Unit) : Copying Unit :=
  match fault with
  | none => step
  | some (residue, error) => do
    modify fun state => { state with disk := state.disk.replace temporary residue.branch }
    throw error

/-- `allowed_output_root.mkdir(parents=True, exist_ok=True)`. -/
def makeRoot (fault : Option (Nat × ToolError)) (root : List FileName) : Copying Unit :=
  match fault with
  | none => root.inits.forM fun path => writing (·.makeDir path)
  | some (made, error) => do
    (root.inits.take made).forM fun path => writing (·.makeDir path)
    throw error

/-- `path.name` -/
def lastName (path : List FileName) : PyStr :=
  match path.getLast? with
  | some name => name.text
  | none => []

theorem slash_not_mem_lastName (path : List FileName) : slash ∉ lastName path := by
  unfold lastName
  cases path.getLast? with
  | none => simp
  | some name => exact name.valid.2.1

/-- `f".{output.name}.tmp-{uuid4().hex}"` -/
def temporaryName (output : List FileName) (hex : FileName) : FileName where
  text := dot :: (lastName output ++ (PyStr.ofChars ['.', 't', 'm', 'p', '-'] ++ hex.text))
  valid := by
    refine ⟨by simp, ?_, ?_, ?_⟩
    · have hmark : slash ∉ PyStr.ofChars ['.', 't', 'm', 'p', '-'] := by decide
      have hdot : slash ≠ dot := by decide
      simp [hmark, hdot, slash_not_mem_lastName, hex.valid.2.1]
    · intro h
      have hlength := congrArg List.length h
      simp [PyStr.ofChars] at hlength
    · intro h
      have hlength := congrArg List.length h
      simp [PyStr.ofChars] at hlength
      omega

/-- The directory where the copy is built. -/
def temporaryPath (root output : List FileName) (hex : FileName) : List FileName :=
  root ++ [temporaryName output hex]

def copytree (fault : Option (Residue × ToolError)) (source temporary : List FileName) :
    Copying Unit := do
  let state ← get
  if state.disk.node? temporary ≠ none ∨ ¬ state.disk.Hosts temporary then throw .osError
  else interrupted fault temporary (writing fun disk => do
    let branch ← disk.treeToCopy source
    .ok (disk.replace temporary branch))

def patchMetadata (host : Host) (path : List FileName) (plan : PatchPlan) : Copying Unit := do
  reading none fun disk => verifyMetadataBytes host disk path plan plan.expectedOriginalSha256 1 0
  writing fun disk => do
    let data ← disk.readBytes (down path)
    let current := (data.drop plan.expectedOffset).take plan.sourceEndpoint.length
    refuseIf (current ≠ plan.sourceEndpoint) (PyStr.lit "metadata changed before patch write")
    disk.writeBytes path (data.take plan.expectedOffset ++ plan.targetEndpoint ++
      data.drop (plan.expectedOffset + plan.targetEndpoint.length))
  reading none fun disk => verifyMetadataBytes host disk path plan plan.expectedPatchedSha256 0 1

/-- `path.write_text(json.dumps(marker, indent=2, sort_keys=True) + "\\n", encoding="utf-8")`. -/
def writeMarker (host : Host) (path : List FileName) (marker : MarkerPayload) : Copying Unit :=
  writing fun disk =>
    match PyStr.encodeUtf8 (host.dumps marker ++ [PyStr.lineFeed]) with
    | .ok raw => disk.writeBytes path raw
    | .error _ => .error .unicodeEncodeError

/-- `except Exception: ...; raise`. -/
def cleanUp (temporary output : List FileName) (error : ToolError) : Copying Unit := do
  modify fun state => { state with disk := state.disk.removeIfExists temporary }
  modify fun state =>
    if state.published then { state with disk := state.disk.removeIfExists output } else state
  throw error

/-- The `try` block of `create_patched_copy`. -/
def publishCopy (host : Host) (faults : Faults) (source temporary output root : List FileName)
    (manifestPath : PurePosixPath) (manifest : Manifest) (plan : PatchPlan) : Copying Unit := do
  copytree faults.copytree source temporary
  interrupted faults.patchMetadata temporary
    (patchMetadata host (nativePath temporary plan.metadataPath) plan)
  let marker ← reading faults.markerPayload (markerPayload host · manifestPath plan)
  interrupted faults.writeMarker temporary
    (writeMarker host (nativePath temporary [markerName]) marker)
  reading faults.verifyTemporary
    (verifyPatchedCopy host · (.absolute temporary) manifestPath plan (.absolute root))
  atomic faults.rename (writing (·.rename temporary output))
  modify fun state => { state with published := true }
  reading faults.verifyOutput
    (verifyPatchedCopy host · (.absolute output) manifestPath plan (.absolute root))
  reading faults.verifySourceAgain (verifyOriginalClient host · (.absolute source) manifest plan)

def createPatchedCopy (host : Host) (faults : Faults) (hex : FileName)
    (source output manifestPath : PurePosixPath) (plan : PatchPlan)
    (allowedOutputRoot : PurePosixPath) : Copying Unit := do
  let source ← reading none (·.resolve host.cwd source)
  let (output, root) ← reading none (ensureOutputIsSafe host · output allowedOutputRoot)
  let manifestFile ← reading none (·.resolve host.cwd manifestPath)
  reading none fun disk => do
    refuseIf (source = output ∨ source ∈ parents output)
      (PyStr.lit "output must not be inside the original client directory")
    refuseIf (disk.exists? output) (PyStr.lit "output already exists; refusing to overwrite: " ++
      (PurePosixPath.absolute output).str)
  let manifest ← reading faults.loadManifest (loadManifest · host.cwd (.absolute manifestFile))
  reading faults.verifySource (verifyOriginalClient host · (.absolute source) manifest plan)
  makeRoot faults.makeRoot root
  let temporary := temporaryPath root output hex
  reading none fun disk =>
    refuseIf (disk.exists? temporary) (PyStr.lit "temporary output unexpectedly exists: " ++
      (PurePosixPath.absolute temporary).str)
  modify fun state => { state with published := false }
  tryCatch
    (publishCopy host faults source temporary output root (.absolute manifestFile) manifest plan)
    (cleanUp temporary output)

end Army3
