import Army3.Tools.Disk

namespace Army3

open Files

/-- What `load_manifest` has read so far: no path twice, and only lowercase SHA-256 values. -/
structure ManifestLines where
  entries : List (List FileName × PyStr)
  nodup : (entries.map Prod.fst).Nodup
  digests : ∀ entry ∈ entries, IsSha256 entry.2

/-- A manifest lists at least one file. -/
structure Manifest extends ManifestLines where
  nonempty : entries ≠ []

namespace ManifestLines

def none : ManifestLines := ⟨[], List.nodup_nil, by simp⟩

/-- `entries[relative] = digest`. -/
def insert (lines : ManifestLines) (relative : List FileName) (digest : PyStr)
    (hnew : relative ∉ lines.entries.map Prod.fst) (hdigest : IsSha256 digest) : ManifestLines where
  entries := lines.entries ++ [(relative, digest)]
  nodup := by
    rw [List.map_append, List.map_singleton, List.nodup_append]
    refine ⟨lines.nodup, by simp, ?_⟩
    intro old hold added hadded heq
    have hrelative : added = relative := List.mem_singleton.mp hadded
    exact hnew (by rw [← hrelative, ← heq]; exact hold)
  digests := by
    intro entry hentry
    rcases List.mem_append.mp hentry with hold | hlast
    · exact lines.digests entry hold
    · rw [List.mem_singleton.mp hlast]
      exact hdigest

/-- One turn of the loop over the lines of the manifest. -/
def readLine (lines : ManifestLines) (numbered : PyStr × Nat) : Except ToolError ManifestLines :=
  let (line, lineNumber) := numbered
  if line.all PyStr.isSpace then .ok lines
  else match PyStr.splitOnce line with
  | Option.none =>
    .error (.redirectError (PyStr.lit "invalid manifest line " ++ PyStr.ofNat lineNumber))
  | some (digest, rawRelative) =>
    let path := PurePosixPath.parse
      (if rawRelative.head? = some star then rawRelative.drop 1 else rawRelative)
    match path.safeNames? with
    | Option.none =>
      .error (.redirectError (PyStr.lit "unsafe manifest path at line " ++ PyStr.ofNat lineNumber))
    | some relative =>
      if hdigest : IsSha256 (PyStr.lower digest) then
        if hnew : relative ∉ lines.entries.map Prod.fst then
          .ok (lines.insert relative (PyStr.lower digest) hnew hdigest)
        else .error (.redirectError (PyStr.lit "duplicate manifest path: " ++ path.str))
      else
        .error (.redirectError
          (PyStr.lit "invalid SHA-256 at manifest line " ++ PyStr.ofNat lineNumber))

end ManifestLines

namespace Manifest

/-- The paths of the manifest. -/
def keys (manifest : Manifest) : List (List FileName) := manifest.entries.map Prod.fst

/-- `manifest.get(relative)`. -/
def hash? (manifest : Manifest) (relative : List FileName) : Option PyStr :=
  manifest.entries.lookup relative

/-- The entries of a manifest's text. -/
def parse (text : PyStr) : Except ToolError Manifest := do
  let lines ← ((PyStr.splitLines text).zipIdx 1).foldlM ManifestLines.readLine ManifestLines.none
  if h : lines.entries ≠ [] then .ok ⟨lines, h⟩
  else .error (.redirectError (PyStr.lit "manifest is empty"))

end Manifest

/-- `load_manifest`. A text that is not UTF-8 is not caught here. -/
def loadManifest (disk : Disk) (cwd : List FileName) (path : PurePosixPath) :
    Except ToolError Manifest :=
  match disk.readText (Disk.stepsFrom cwd path) with
  | .error .osError => .error (.redirectError (PyStr.lit "cannot read manifest: " ++ path.str))
  | .error e => .error e
  | .ok text => Manifest.parse text

namespace Manifest

variable {manifest : Manifest} {relative : List FileName} {digest : PyStr}

theorem hash?_eq_some : manifest.hash? relative = some digest ↔
    (relative, digest) ∈ manifest.entries := by
  constructor
  · intro h
    obtain ⟨before, after, heq, -⟩ := List.lookup_eq_some_iff.mp h
    rw [heq]
    simp
  · exact lookup_of_mem manifest.nodup

theorem mem_keys : relative ∈ manifest.keys ↔ ∃ digest, (relative, digest) ∈ manifest.entries := by
  simp [keys]

end Manifest

end Army3
