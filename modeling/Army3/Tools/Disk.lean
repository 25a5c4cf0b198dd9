import Army3.Tools.PathNames

namespace Army3

open Files

/-- The exceptions of the client tools. `symlinkLoop` is the `RuntimeError` of `Path.resolve`. -/
inductive ToolError where
  | redirectError (text : PyStr)
  | valueError (text : PyStr)
  | symlinkLoop
  | osError
  | unicodeDecodeError
  | unicodeEncodeError
  | jsonDecodeError
  | other (name : PyStr)
  deriving DecidableEq, Repr

/-- A file system of regular files, directories and symbolic links. -/
abbrev Disk := Tree FileName Bytes

namespace Disk

/-- The number of links after which the system gives up with `ELOOP`. -/
def maxLinks : Nat := 40

section

variable (disk : Disk)

def stat (path : List (Step FileName)) : Option (Node FileName Bytes) :=
  (disk.walk maxLinks [] path).bind disk.node?

/-- As `stat`, but a link at the end of the path is not followed. -/
def lstat (names : List FileName) : Option (Node FileName Bytes) :=
  match names.getLast? with
  | none => disk.node? []
  | some name =>
    (disk.walk maxLinks [] (down names.dropLast)).bind fun dir => disk.node? (dir ++ [name])

/-- `path.exists()`; the `OSError` of a path that leads nowhere counts as `False`. -/
def exists? (names : List FileName) : Bool := (disk.stat (down names)).isSome

def isDir (names : List FileName) : Bool :=
  match disk.stat (down names) with
  | some .directory => true
  | _ => false

def isFile (names : List FileName) : Bool :=
  match disk.stat (down names) with
  | some (.file _) => true
  | _ => false

def isSymlink (names : List FileName) : Bool :=
  match disk.lstat names with
  | some (.link _ _) => true
  | _ => false

def readBytes (path : List (Step FileName)) : Except ToolError Bytes :=
  match disk.stat path with
  | some (.file data) => .ok data
  | _ => .error .osError

/-- `path.read_text(encoding="utf-8")`. -/
def readText (path : List (Step FileName)) : Except ToolError PyStr := do
  let raw ← disk.readBytes path
  match PyStr.decodeUtf8 raw with
  | some text => .ok (PyStr.universalNewlines text)
  | none => .error .unicodeDecodeError

/-- `root.rglob("*")`: everything below a directory; links are listed and not followed. -/
def rglob (root : List FileName) : List (List FileName) :=
  (((disk.below root).entries.map Prod.fst).filter (· ≠ [])).map (root ++ ·)

/-- The steps from the root that a path means in a working directory. -/
def stepsFrom (cwd : List FileName) (path : PurePosixPath) : List (Step FileName) :=
  if path.root = [] then down cwd ++ path.parts else path.parts

/-- `path.resolve()`. -/
def resolve (cwd : List FileName) (path : PurePosixPath) : Except ToolError (List FileName) :=
  match disk.realpath (stepsFrom cwd path) with
  | some names => .ok names
  | none => .error .symlinkLoop

end

variable {disk : Disk} {names : List FileName}

theorem stat_of_direct (h : disk.Direct names) : disk.stat (down names) = disk.node? names := by
  unfold stat
  rw [Tree.walk_of_direct h]
  cases hnode : disk.node? names <;> simp [hnode]

theorem lstat_of_direct (h : disk.Direct names.dropLast) : disk.lstat names = disk.node? names := by
  unfold lstat
  cases hlast : names.getLast? with
  | none => rw [List.getLast?_eq_none_iff.mp hlast]
  | some name =>
    obtain ⟨front, rfl⟩ := List.getLast?_eq_some_iff.mp hlast
    rw [List.dropLast_concat] at h ⊢
    simp only [Tree.walk_of_direct h]
    by_cases hfront : (disk.node? front).isSome
    · rw [if_pos hfront]
      rfl
    · rw [if_neg hfront]
      have hfront : disk.node? front = none := by simpa using hfront
      have hnone : disk.node? (front ++ [name]) = none := Branch.node?_append_of_none hfront
      exact hnone.symm

theorem resolve_eq_ok {cwd : List FileName} {path : PurePosixPath} :
    disk.resolve cwd path = .ok names ↔ disk.realpath (stepsFrom cwd path) = some names := by
  unfold resolve
  cases disk.realpath (stepsFrom cwd path) <;> simp

theorem direct_of_resolve {cwd : List FileName} {path : PurePosixPath}
    (h : disk.resolve cwd path = .ok names) : disk.Direct names :=
  Tree.realpath_direct (resolve_eq_ok.mp h)

/-- An absolute path without links is its own resolution. -/
theorem resolve_absolute {cwd : List FileName} (h : disk.Direct names) :
    disk.resolve cwd (.absolute names) = .ok names := by
  have hroot : stepsFrom cwd (.absolute names) = down names := rfl
  rw [resolve_eq_ok, hroot]
  exact Tree.realpath_down h

end Disk

end Army3
