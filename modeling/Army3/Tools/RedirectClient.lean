import Mathlib.Data.List.Dedup
import Mathlib.Data.List.Sort
import Army3.Framework.Raising
import Army3.Tools.Manifest

/-! Verifying client trees and the copies redirected to loopback. -/

namespace Army3

open Files

/-- `raise RedirectError(text)` on a condition. -/
def refuseIf (condition : Prop) [Decidable condition] (text : PyStr) :
    Except ToolError Unit :=
  if condition then .error (.redirectError text) else .ok ()

theorem refuseIf_eq_ok {condition : Prop} [Decidable condition] {text : PyStr} {done : Unit} :
    refuseIf condition text = .ok done ↔ ¬ condition := by
  unfold refuseIf
  by_cases h : condition <;> simp [h]

/-- A patch of the client's metadata that has passed `__post_init__`. -/
structure PatchPlan where
  metadataPath : List FileName
  sourceEndpoint : Bytes
  targetEndpoint : Bytes
  expectedOffset : Nat
  expectedOriginalSha256 : PyStr
  expectedPatchedSha256 : PyStr
  equalLength : sourceEndpoint.length = targetEndpoint.length
  nonempty : sourceEndpoint ≠ []
  original : IsSha256 expectedOriginalSha256
  patched : IsSha256 expectedPatchedSha256

namespace PatchPlan

/-- `PatchPlan(...)`, with the checks of `__post_init__`. -/
def postInit (metadataPath : PurePosixPath) (sourceEndpoint targetEndpoint : Bytes)
    (expectedOffset : Int) (expectedOriginalSha256 expectedPatchedSha256 : PyStr) :
    Except ToolError PatchPlan :=
  match metadataPath.safeNames? with
  | none => .error (.valueError (PyStr.lit "metadata_path must be a safe relative path"))
  | some names =>
    if hlength : sourceEndpoint.length = targetEndpoint.length then
      if hnonempty : sourceEndpoint ≠ [] then
        if expectedOffset < 0 then
          .error (.valueError (PyStr.lit "expected_offset must be non-negative"))
        else if horiginal : IsSha256 expectedOriginalSha256 then
          if hpatched : IsSha256 expectedPatchedSha256 then
            .ok ⟨names, sourceEndpoint, targetEndpoint, expectedOffset.toNat,
              expectedOriginalSha256, expectedPatchedSha256, hlength, hnonempty, horiginal,
              hpatched⟩
          else .error (.valueError
            (PyStr.lit "expected_patched_sha256 must be a lowercase SHA-256 value"))
        else .error (.valueError
          (PyStr.lit "expected_original_sha256 must be a lowercase SHA-256 value"))
      else .error (.valueError (PyStr.lit "endpoint bytes must not be empty"))
    else .error (.valueError
      (PyStr.lit "source and target endpoints must have equal byte length"))

/-- `DEFAULT_PATCH` -/
def defaultPatch : Except ToolError PatchPlan :=
  postInit
    (PurePosixPath.parse
      (PyStr.lit "Mobi Army 3 HA_Data/il2cpp_data/Metadata/global-metadata.dat"))
    ((PyStr.lit "14.225.206.44").map fun c => UInt8.ofNat c.val)
    ((PyStr.lit "127.000.000.1").map fun c => UInt8.ofNat c.val) 6469992
    (PyStr.lit "0debeea2cb8aa5013709f7845d1bba21800d6974b1461be8482d3558d43775c9")
    (PyStr.lit "b4890d59779968d8a544f3dfb3a75778da948e61d590ae9d1631b7a132b85cf4")

theorem defaultPatch_isOk : defaultPatch.isOk := by decide +kernel

end PatchPlan

/-- The dictionary in the marker file. -/
structure MarkerPayload where
  schema : Nat
  manifestSha256 : PyStr
  metadataPath : PyStr
  offset : Nat
  sourceEndpoint : PyStr
  targetEndpoint : PyStr
  originalMetadataSha256 : PyStr
  patchedMetadataSha256 : PyStr
  serverPort : Nat
  deriving DecidableEq, Repr

/-- What the tool uses of its process and of Python: the working directory, the hexadecimal digest
of `hashlib.sha256`, and `json`. `loads` gives the marker dictionary that the parsed value equals,
if there is one. -/
structure Host where
  cwd : List FileName
  sha256 : Bytes → PyStr
  dumps : MarkerPayload → PyStr
  loads : PyStr → Except ToolError (Option MarkerPayload)

/-- `data.count(sub)` of a non-empty `sub`: occurrences from left to right that do not overlap.
`skip` bytes belong to the occurrence found last. -/
def countFrom (sub : Bytes) : Nat → Bytes → Nat
  | _, [] => 0
  | skip + 1, _ :: rest => countFrom sub skip rest
  | 0, byte :: rest =>
    if sub <+: byte :: rest then 1 + countFrom sub (sub.length - 1) rest else countFrom sub 0 rest

def byteCount (data sub : Bytes) : Nat := countFrom sub 0 data

/-- `.army3-local-copy.json` -/
def markerName : FileName where
  text := PyStr.ofChars ['.', 'a', 'r', 'm', 'y', '3', '-', 'l', 'o', 'c', 'a', 'l', '-', 'c', 'o',
    'p', 'y', '.', 'j', 's', 'o', 'n']
  valid := by decide

/-- `names.parents`. -/
def parents (names : List FileName) : List (List FileName) := names.inits.filter (· ≠ names)

def joined (separator : String) (texts : List PyStr) : PyStr :=
  (PyStr.lit separator).intercalate texts

def nativePath (root relative : List FileName) : List FileName := root ++ relative

section

variable (host : Host) (disk : Disk)

def sha256File (path : List (Step FileName)) : Except ToolError PyStr := do
  let data ← disk.readBytes path
  .ok (host.sha256 data)

/-- `sorted(actual - expected, key=str)` over the files and links below `root`. -/
def findUnexpectedFiles (root : List FileName) (manifest : Manifest)
    (allowedExtra : List (List FileName)) : List (List FileName) :=
  let expected := manifest.keys ++ allowedExtra
  let actual := ((disk.rglob root).filter fun path => disk.isFile path || disk.isSymlink path).map
    fun path => path.drop root.length
  (actual.dedup.filter (· ∉ expected)).insertionSort fun a b =>
    PyStr.le (PurePosixPath.relative a).str (PurePosixPath.relative b).str

/-- What a turn of the loop over the manifest finds wrong with a file. -/
def checkFile (root relative : List FileName) (expectedHash : PyStr) : Option PyStr :=
  let path := nativePath root relative
  let name := (PurePosixPath.relative relative).str
  if disk.isSymlink path then some (PyStr.lit "symlink is not allowed: " ++ name)
  else if ¬ disk.isFile path then some (PyStr.lit "missing file: " ++ name)
  else match sha256File host disk (down path) with
    | .ok actualHash =>
      if actualHash ≠ expectedHash then some (PyStr.lit "hash mismatch: " ++ name) else none
    | .error _ => some (PyStr.lit "missing file: " ++ name)

end

/-- The loop over the manifest, left after ten failures. -/
def collectFailures (check : List FileName → PyStr → Option PyStr) :
    List (List FileName × PyStr) → List PyStr → List PyStr
  | [], failures => failures
  | (relative, hash) :: rest, failures =>
    let failures := failures ++ (check relative hash).toList
    if failures.length ≥ 10 then failures else collectFailures check rest failures

def firstTen (paths : List (List FileName)) : PyStr :=
  joined ", " ((paths.take 10).map fun names => (PurePosixPath.relative names).str)

section

variable (host : Host) (disk : Disk)

def verifyMetadataBytes (path : List FileName) (plan : PatchPlan) (expectedHash : PyStr)
    (sourceCount targetCount : Nat) : Except ToolError Unit := do
  let data ← disk.readBytes (down path)
  refuseIf (host.sha256 data ≠ expectedHash)
    (PyStr.lit "metadata hash mismatch: " ++ (PurePosixPath.absolute path).str)
  refuseIf (byteCount data plan.sourceEndpoint ≠ sourceCount)
    (PyStr.lit "unexpected source endpoint occurrence count")
  refuseIf (byteCount data plan.targetEndpoint ≠ targetCount)
    (PyStr.lit "unexpected target endpoint occurrence count")
  let expectedBytes := if sourceCount = 1 then plan.sourceEndpoint else plan.targetEndpoint
  refuseIf ((data.drop plan.expectedOffset).take expectedBytes.length ≠ expectedBytes)
    (PyStr.lit "endpoint does not occur at the expected metadata offset")

def verifyOriginalClient (source : PurePosixPath) (manifest : Manifest) (plan : PatchPlan) :
    Except ToolError Unit := do
  let source ← disk.resolve host.cwd source
  refuseIf (¬ disk.isDir source)
    (PyStr.lit "client source directory does not exist: " ++ (PurePosixPath.absolute source).str)
  refuseIf (plan.metadataPath ∉ manifest.keys)
    (PyStr.lit "metadata file is missing from the manifest")
  refuseIf (manifest.hash? plan.metadataPath ≠ some plan.expectedOriginalSha256)
    (PyStr.lit "manifest metadata hash does not match the patch plan")
  let failures := collectFailures (checkFile host disk source) manifest.entries []
  refuseIf (failures ≠ []) (PyStr.lit "client verification failed: " ++ joined "; " failures)
  let unexpected := findUnexpectedFiles disk source manifest []
  refuseIf (unexpected ≠ [])
    (PyStr.lit "client contains files outside the manifest: " ++ firstTen unexpected)
  verifyMetadataBytes host disk (nativePath source plan.metadataPath) plan
    plan.expectedOriginalSha256 1 0

def ensureOutputIsSafe (output allowedOutputRoot : PurePosixPath) :
    Except ToolError (List FileName × List FileName) := do
  let output ← disk.resolve host.cwd output
  let allowedOutputRoot ← disk.resolve host.cwd allowedOutputRoot
  refuseIf (output = allowedOutputRoot ∨ allowedOutputRoot ∉ parents output)
    (PyStr.lit "output must be a child of " ++ (PurePosixPath.absolute allowedOutputRoot).str)
  .ok (output, allowedOutputRoot)

/-- `endpoint.decode("ascii")`. -/
def decodeAscii (endpoint : Bytes) : Except ToolError PyStr :=
  if endpoint.all (· < 128) then .ok (PyStr.ofChars (endpoint.map fun b => Char.ofNat b.toNat))
  else .error .unicodeDecodeError

def markerPayload (manifestPath : PurePosixPath) (plan : PatchPlan) :
    Except ToolError MarkerPayload := do
  let manifestSha256 ← sha256File host disk (Disk.stepsFrom host.cwd manifestPath)
  let sourceEndpoint ← decodeAscii plan.sourceEndpoint
  let targetEndpoint ← decodeAscii plan.targetEndpoint
  .ok {
    schema := 1
    manifestSha256 := manifestSha256
    metadataPath := (PurePosixPath.relative plan.metadataPath).str
    offset := plan.expectedOffset
    sourceEndpoint := sourceEndpoint
    targetEndpoint := targetEndpoint
    originalMetadataSha256 := plan.expectedOriginalSha256
    patchedMetadataSha256 := plan.expectedPatchedSha256
    serverPort := 19150 }

/-- `json.loads(marker_path.read_text(...))`, with the exceptions that `verify_patched_copy`
catches. -/
def readMarker (markerPath : List FileName) : Except ToolError (Option MarkerPayload) :=
  match disk.readText (down markerPath) >>= host.loads with
  | .error .osError | .error .jsonDecodeError =>
    .error (.redirectError
      (PyStr.lit "invalid or missing marker: " ++ (PurePosixPath.absolute markerPath).str))
  | read => read

def verifyPatchedCopy (output manifestPath : PurePosixPath) (plan : PatchPlan)
    (allowedOutputRoot : PurePosixPath) : Except ToolError Unit := do
  let (output, _) ← ensureOutputIsSafe host disk output allowedOutputRoot
  refuseIf (¬ disk.isDir output)
    (PyStr.lit "patched client directory does not exist: " ++ (PurePosixPath.absolute output).str)
  let manifest ← loadManifest disk host.cwd manifestPath
  let marker ← readMarker host disk (nativePath output [markerName])
  let payload ← markerPayload host disk manifestPath plan
  refuseIf (marker ≠ some payload)
    (PyStr.lit "patched-copy marker does not match this tool and manifest")
  let failures := collectFailures
    (fun relative originalHash => checkFile host disk output relative
      (if relative = plan.metadataPath then plan.expectedPatchedSha256 else originalHash))
    manifest.entries []
  refuseIf (failures ≠ [])
    (PyStr.lit "patched-copy verification failed: " ++ joined "; " failures)
  let unexpected := findUnexpectedFiles disk output manifest [[markerName]]
  refuseIf (unexpected ≠ [])
    (PyStr.lit "patched copy contains files outside the manifest: " ++ firstTen unexpected)
  verifyMetadataBytes host disk (nativePath output plan.metadataPath) plan
    plan.expectedPatchedSha256 0 1

end

end Army3
