import Army3.Framework.LexicalPath
import Army3.Tools.PatchedCopy

/-! Where the manifest's paths lead on Windows: `_native_path` with `ntpath` and `WindowsPath`. -/

namespace Army3

open Files

def isSep (c : CodePoint) : Bool := c == backslash || c == slash

/-- The drive, the separator behind it and the rest of a path. -/
structure RootSplit where
  drive : PyStr
  root : PyStr
  tail : PyStr
  deriving DecidableEq, Repr

/-- The share `\\server\share`, or `\\?\UNC\server\share`, at the beginning of a path. -/
def splitShare (start : Nat) (path : PyStr) : RootSplit :=
  let index := start + ((path.drop start).takeWhile (!isSep ·)).length
  let index2 := index + 1 + ((path.drop (index + 1)).takeWhile (!isSep ·)).length
  if path.length ≤ index ∨ path.length ≤ index2 then ⟨path, [], []⟩
  else ⟨path.take index2, (path.drop index2).take 1, path.drop (index2 + 1)⟩

/-- `\\?\UNC\`, in lower case. -/
def uncPrefix : PyStr := PyStr.ofChars ['\\', '\\', '?', '\\', 'u', 'n', 'c', '\\']

/-- `ntpath.splitroot(path)` -/
def splitRoot (path : PyStr) : RootSplit :=
  match path with
  | [] => ⟨[], [], []⟩
  | [first] => if isSep first then ⟨[], [first], []⟩ else ⟨[], [], [first]⟩
  | first :: second :: rest =>
    if isSep first then
      if isSep second then
        let normal := path.map fun c => if isSep c then backslash else c
        splitShare (if PyStr.lower (normal.take 8) = uncPrefix then 8 else 2) path
      else ⟨[], [first], second :: rest⟩
    else if second = colon then
      if (rest.take 1).any isSep then ⟨[first, second], rest.take 1, rest.drop 1⟩
      else ⟨[first, second], [], rest⟩
    else ⟨[], [], path⟩

/-- The path so far, with a separator behind it. -/
def separated (tail : PyStr) : PyStr :=
  if tail.getLast?.all isSep then tail else tail ++ [backslash]

/-- One turn of the loop of `ntpath.join`: a part that is rooted or on another drive replaces what
precedes it. -/
def joinPart (path : RootSplit) (part : PyStr) : RootSplit :=
  let p := splitRoot part
  if p.root ≠ [] then
    ⟨if p.drive ≠ [] ∨ path.drive = [] then p.drive else path.drive, p.root, p.tail⟩
  else if p.drive ≠ [] ∧ PyStr.lower p.drive ≠ PyStr.lower path.drive then p
  else ⟨if p.drive ≠ [] then p.drive else path.drive, path.root, separated path.tail ++ p.tail⟩

/-- The end of `ntpath.join`: a share is set apart from what follows it. -/
def joinedText (path : RootSplit) : PyStr :=
  let apart := path.drive.getLast?.any fun c => !isSep c && c != colon
  if path.tail ≠ [] ∧ path.root = [] ∧ apart then
    path.drive ++ backslash :: path.tail
  else path.drive ++ (path.root ++ path.tail)

/-- `ntpath.join(path, *parts)` -/
def ntJoin (path : PyStr) (parts : List PyStr) : PyStr :=
  joinedText (parts.foldl joinPart (splitRoot path))

/-- A component between two separators, as the system takes it. -/
def windowsStep? (piece : PyStr) : Option (Step PyStr) :=
  if piece = [] ∨ piece = [dot] then none
  else if piece = [dot, dot] then some .up
  else some (.down piece)

def windowsSteps (text : PyStr) : List (Step PyStr) := (text.splitOnP isSep).filterMap windowsStep?

/-- A `WindowsPath`. -/
structure WindowsPath where
  drive : PyStr
  root : PyStr
  steps : List (Step PyStr)
  deriving DecidableEq, Repr

/-- `WindowsPath(text)` -/
def WindowsPath.parse (text : PyStr) : WindowsPath :=
  let split := splitRoot text
  ⟨split.drive, split.root, windowsSteps split.tail⟩

/-- A resolved directory: a drive, which stays one whatever follows its separator, and names. -/
structure WindowsDir where
  drive : PyStr
  names : List PyStr
  isDrive : ∀ tail, splitRoot (drive ++ backslash :: tail) = ⟨drive, [backslash], tail⟩
  isNames : ∀ name ∈ names, (∀ c ∈ name, isSep c = false) ∧ windowsStep? name = some (.down name)

/-- `str(root)` -/
def WindowsDir.str (root : WindowsDir) : PyStr :=
  root.drive ++ backslash :: [backslash].intercalate root.names

/-- `_native_path(root, relative)` -/
def windowsNativePath (root : WindowsDir) (relative : List FileName) : WindowsPath :=
  WindowsPath.parse (ntJoin root.str (relative.map FileName.text))

/-- The path, with its `..` gone up, is the directory or below it; case does not matter. -/
def WindowsDir.Contains (root : WindowsDir) (path : WindowsPath) : Prop :=
  PyStr.lower path.drive = PyStr.lower root.drive ∧ path.root ≠ [] ∧
    root.names.map PyStr.lower <+: (lexical [] path.steps).map PyStr.lower

/-- The part has a drive or a leading separator. -/
def Anchored (part : PyStr) : Prop := part.head? = some backslash ∨ part[1]? = some colon

/-- No part starts anew, and with backslashes as separators no `..` leads out. -/
def StaysInside (relative : List FileName) : Prop :=
  (∀ name ∈ relative, ¬ Anchored name.text) ∧
    StaysBelow (relative.flatMap fun name => windowsSteps name.text)

section

variable {front text tail part : PyStr} {sep : CodePoint} {name : PyStr} {names : List PyStr}

theorem windowsSteps_append (hsep : isSep sep) :
    windowsSteps (front ++ sep :: text) = windowsSteps front ++ windowsSteps text := by
  unfold windowsSteps
  rw [List.splitOnP_append_cons front text hsep, List.filterMap_append]

theorem windowsSteps_nil : windowsSteps [] = [] := rfl

theorem windowsSteps_separated :
    windowsSteps (separated tail ++ text) = windowsSteps tail ++ windowsSteps text := by
  unfold separated
  cases hlast : tail.getLast? with
  | none =>
    rw [List.getLast?_eq_none_iff] at hlast
    simp [hlast, windowsSteps_nil]
  | some last =>
    by_cases hsep : isSep last
    · obtain ⟨front, rfl⟩ := List.getLast?_eq_some_iff.mp hlast
      have hboth := @windowsSteps_append front text last hsep
      have hend := @windowsSteps_append front [] last hsep
      rw [if_pos (by simpa using hsep), List.append_assoc, hend, windowsSteps_nil, List.append_nil]
      exact hboth
    · rw [if_neg (by simpa using hsep), List.append_assoc]
      exact windowsSteps_append (by decide)

theorem length_le_of_mem_splitOnP {piece : PyStr} (h : piece ∈ text.splitOnP isSep) :
    piece.length ≤ text.length := by
  induction text generalizing piece with
  | nil => simpa using h
  | cons c text ih =>
    rw [List.splitOnP_cons_eq_if_modifyHead] at h
    by_cases hsep : isSep c
    · rw [if_pos hsep] at h
      rcases List.mem_cons.mp h with rfl | hrest
      · simp
      · have hlength := ih hrest
        rw [List.length_cons]
        omega
    · rw [if_neg hsep] at h
      cases hpieces : text.splitOnP isSep with
      | nil => simp [hpieces] at h
      | cons first pieces =>
        rw [hpieces, List.modifyHead_cons] at h
        rw [hpieces] at ih
        rcases List.mem_cons.mp h with rfl | hrest
        · have hlength := ih (List.mem_cons_self : first ∈ first :: pieces)
          simpa using hlength
        · have hlength := ih (List.mem_cons_of_mem first hrest)
          rw [List.length_cons]
          omega

/-- No component is longer than the text. -/
theorem length_le_of_mem_windowsSteps (h : .down name ∈ windowsSteps text) :
    name.length ≤ text.length := by
  obtain ⟨piece, hpiece, hstep⟩ := List.mem_filterMap.mp h
  have hname : piece = name := by
    unfold windowsStep? at hstep
    split at hstep
    · cases hstep
    · split at hstep
      · cases hstep
      · exact Step.down.inj (Option.some.inj hstep)
  exact hname ▸ length_le_of_mem_splitOnP hpiece

/-- The names of a directory are its components. -/
theorem windowsSteps_names (h : ∀ name ∈ names, (∀ c ∈ name, isSep c = false) ∧
    windowsStep? name = some (.down name)) :
    windowsSteps ([backslash].intercalate names) = down names := by
  induction names with
  | nil => rfl
  | cons name names ih =>
    obtain ⟨hchars, hstep⟩ := h name List.mem_cons_self
    have hfirst : windowsSteps name = [.down name] := by
      unfold windowsSteps
      rw [List.splitOnP_eq_singleton hchars]
      simp [hstep]
    have hrest := ih fun other hother => h other (List.mem_cons_of_mem name hother)
    cases names with
    | nil => simpa [List.intercalate, down] using hfirst
    | cons second names =>
      have hsplit : [backslash].intercalate (name :: second :: names) =
          name ++ backslash :: [backslash].intercalate (second :: names) := by
        simp [List.intercalate]
      rw [hsplit, windowsSteps_append (by decide), hfirst, hrest]
      rfl

/-- A part without a slash that is not anchored only goes on. -/
theorem splitRoot_of_not_anchored (h : ¬ Anchored part) (hslash : slash ∉ part) :
    splitRoot part = ⟨[], [], part⟩ := by
  unfold Anchored at h
  have hfirst : ∀ first rest, part = first :: rest → isSep first = false := by
    intro first rest hpart
    have hback : first ≠ backslash := by
      intro heq
      exact h (.inl (by rw [hpart, heq]; rfl))
    have hforward : first ≠ slash := by
      intro heq
      exact hslash (by rw [hpart, heq]; exact List.mem_cons_self)
    simp [isSep, hback, hforward]
  match part with
  | [] => rfl
  | [first] => simp [splitRoot, hfirst first [] rfl]
  | first :: second :: rest =>
    have hcolon : second ≠ colon := by
      intro heq
      exact h (.inr (by rw [heq]; rfl))
    simp [splitRoot, hfirst first _ rfl, hcolon]

theorem head?_splitShare {first : CodePoint} {rest : PyStr} (start : Nat) :
    (splitShare start (first :: rest)).drive.head? = some first := by
  unfold splitShare
  simp only
  split
  · rfl
  · rw [Nat.add_right_comm, List.take_succ_cons]
    rfl

/-- What can stand for the drive: nothing, a letter with a colon, or a share. -/
theorem splitRoot_drive (part : PyStr) :
    (splitRoot part).drive = [] ∨ (∃ c, isSep c = false ∧ (splitRoot part).drive = [c, colon]) ∨
      ∃ c, isSep c ∧ (splitRoot part).drive.head? = some c := by
  match part with
  | [] => exact .inl rfl
  | [first] => by_cases hsep : isSep first <;> simp [splitRoot, hsep]
  | first :: second :: rest =>
    by_cases hfirst : isSep first
    · by_cases hsecond : isSep second
      · refine .inr (.inr ⟨first, hfirst, ?_⟩)
        simp [splitRoot, hfirst, hsecond, head?_splitShare]
      · simp [splitRoot, hfirst, hsecond]
    · by_cases hcolon : second = colon
      · refine .inr (.inl ⟨first, by simpa using hfirst, ?_⟩)
        by_cases hroot : (rest.take 1).any isSep <;> simp [splitRoot, hfirst, hcolon, hroot]
      · simp [splitRoot, hfirst, hcolon]

theorem splitRoot_begins : (splitRoot part).drive <+: part := by
  match part with
  | [] => simp [splitRoot]
  | [first] => by_cases hfirst : isSep first <;> simp [splitRoot, hfirst]
  | first :: second :: rest =>
    have hshare : ∀ start, (splitShare start (first :: second :: rest)).drive <+:
        first :: second :: rest := by
      intro start
      unfold splitShare
      simp only
      split
      · exact List.prefix_refl _
      · exact List.take_prefix _ _
    by_cases hfirst : isSep first
    · by_cases hsecond : isSep second
      · simpa [splitRoot, hfirst, hsecond] using hshare _
      · simp [splitRoot, hfirst, hsecond]
    · by_cases hcolon : second = colon
      · by_cases hroot : (rest.take 1).any isSep <;> simp [splitRoot, hfirst, hcolon, hroot]
      · simp [splitRoot, hfirst, hcolon]

theorem anchored_iff_splitRoot (hslash : slash ∉ part) :
    Anchored part ↔ (splitRoot part).drive ≠ [] ∨ (splitRoot part).root ≠ [] := by
  constructor
  · intro h
    match part with
    | [] => rcases h with h | h <;> cases h
    | [first] =>
      have hfirst : first = backslash := by simpa [Anchored] using h
      have hsep : isSep backslash := by decide
      simp [splitRoot, hfirst, hsep]
    | first :: second :: rest =>
      by_cases hfirst : isSep first
      · by_cases hsecond : isSep second
        · left
          intro hnil
          have hhead : (splitRoot (first :: second :: rest)).drive.head? = some first := by
            simp [splitRoot, hfirst, hsecond, head?_splitShare]
          simp [hnil] at hhead
        · right
          simp [splitRoot, hfirst, hsecond]
      · have hcolon : second = colon := by
          rcases h with h | h
          · have hback : first = backslash := by simpa using h
            rw [hback] at hfirst
            exact absurd (by decide) hfirst
          · simpa using h
        left
        by_cases hroot : (rest.take 1).any isSep <;> simp [splitRoot, hfirst, hcolon, hroot]
  · intro h
    by_contra hplain
    rw [splitRoot_of_not_anchored hplain hslash] at h
    simp at h

theorem length_splitRoot_tail_le : (splitRoot part).tail.length ≤ part.length := by
  match part with
  | [] => simp [splitRoot]
  | [first] => by_cases hfirst : isSep first <;> simp [splitRoot, hfirst]
  | first :: second :: rest =>
    have hshare : ∀ start, (splitShare start (first :: second :: rest)).tail.length ≤
        (first :: second :: rest).length := by
      intro start
      unfold splitShare
      simp only
      split
      · simp
      · rw [List.length_drop]
        omega
    by_cases hfirst : isSep first
    · by_cases hsecond : isSep second
      · simpa [splitRoot, hfirst, hsecond] using hshare _
      · simp [splitRoot, hfirst, hsecond]
    · by_cases hcolon : second = colon
      · by_cases hroot : (rest.take 1).any isSep
        · simp [splitRoot, hfirst, hcolon, hroot]
          omega
        · simp [splitRoot, hfirst, hcolon, hroot]
          omega
      · simp [splitRoot, hfirst, hcolon]

theorem splitRoot_letter {letter : CodePoint} {rest : PyStr} (hletter : isSep letter = false) :
    (splitRoot (letter :: colon :: rest)).drive = [letter, colon] := by
  by_cases hroot : (rest.take 1).any isSep <;> simp [splitRoot, hletter, hroot]

/-- A root without a drive is the separator that the part begins with. -/
theorem splitRoot_root (hslash : slash ∉ part) (hdrive : (splitRoot part).drive = [])
    (hroot : (splitRoot part).root ≠ []) : (splitRoot part).root = [backslash] := by
  have hseparator : ∀ first rest, part = first :: rest → isSep first → first = backslash := by
    intro first rest hpart hsep
    have hforward : first ≠ slash := by
      intro heq
      exact hslash (by rw [hpart, heq]; exact List.mem_cons_self)
    simpa [isSep, hforward] using hsep
  match part with
  | [] => exact absurd rfl hroot
  | [first] =>
    by_cases hfirst : isSep first
    · simp [splitRoot, hseparator first [] rfl hfirst, isSep]
    · simp [splitRoot, hfirst] at hroot
  | first :: second :: rest =>
    by_cases hfirst : isSep first
    · by_cases hsecond : isSep second
      · have hhead : (splitRoot (first :: second :: rest)).drive.head? = some first := by
          simp [splitRoot, hfirst, hsecond, head?_splitShare]
        simp [hdrive] at hhead
      · obtain rfl := hseparator first _ rfl hfirst
        simp [splitRoot, hfirst, hsecond]
    · by_cases hcolon : second = colon
      · rw [hcolon, splitRoot_letter (by simpa using hfirst)] at hdrive
        cases hdrive
      · simp [splitRoot, hfirst, hcolon] at hroot

variable {path : RootSplit} {parts : List PyStr}

theorem joinPart_of_not_anchored (h : ¬ Anchored part) (hslash : slash ∉ part) :
    joinPart path part = ⟨path.drive, path.root, separated path.tail ++ part⟩ := by
  simp [joinPart, splitRoot_of_not_anchored h hslash]

theorem joinPart_of_no_drive (hdrive : (splitRoot part).drive = [])
    (hroot : (splitRoot part).root ≠ []) :
    joinPart path part = ⟨path.drive, (splitRoot part).root, (splitRoot part).tail⟩ := by
  by_cases hpath : path.drive = [] <;> simp [joinPart, hdrive, hroot, hpath]

/-- A part that has a drive decides on which drive the path is. -/
theorem joinPart_drive : (joinPart path part).drive =
    if (splitRoot part).drive = [] then path.drive else (splitRoot part).drive := by
  unfold joinPart
  by_cases hdrive : (splitRoot part).drive = []
  · by_cases hroot : (splitRoot part).root = []
    · simp [hdrive, hroot]
    · by_cases hpath : path.drive = [] <;> simp [hdrive, hroot, hpath]
  · by_cases hroot : (splitRoot part).root = []
    · by_cases hother : PyStr.lower (splitRoot part).drive = PyStr.lower path.drive <;>
        simp [hdrive, hroot, hother]
    · simp [hdrive, hroot]

/-- Parts that only go on leave the drive and the root, and add their steps. -/
theorem foldl_joinPart_plain (path : RootSplit)
    (h : ∀ part ∈ parts, ¬ Anchored part ∧ slash ∉ part) :
    (parts.foldl joinPart path).drive = path.drive ∧
      (parts.foldl joinPart path).root = path.root ∧
      windowsSteps (parts.foldl joinPart path).tail =
        windowsSteps path.tail ++ parts.flatMap windowsSteps := by
  induction parts generalizing path with
  | nil => simp
  | cons part parts ih =>
    obtain ⟨hplain, hslash⟩ := h part List.mem_cons_self
    have hrest := ih (joinPart path part) fun other hother =>
      h other (List.mem_cons_of_mem part hother)
    rw [joinPart_of_not_anchored hplain hslash] at hrest
    rw [List.foldl_cons, joinPart_of_not_anchored hplain hslash]
    obtain ⟨hdrive, hroot, hsteps⟩ := hrest
    refine ⟨hdrive, hroot, ?_⟩
    rw [hsteps, windowsSteps_separated, List.flatMap_cons, List.append_assoc]

/-- Either no part has a drive, or the last one that has decides. -/
theorem foldl_joinPart_drive (parts : List PyStr) :
    (∀ part ∈ parts, (splitRoot part).drive = []) ∨
      ∃ part ∈ parts, (splitRoot part).drive ≠ [] ∧
        ∀ path, (parts.foldl joinPart path).drive = (splitRoot part).drive := by
  induction parts using List.reverseRecOn with
  | nil => exact .inl (by simp)
  | append_singleton parts last ih =>
    by_cases hlast : (splitRoot last).drive = []
    · rcases ih with hnone | ⟨part, hpart, hdrive, hdecides⟩
      · left
        intro part hpart
        rcases List.mem_append.mp hpart with hold | hnew
        · exact hnone part hold
        · exact List.mem_singleton.mp hnew ▸ hlast
      · refine .inr ⟨part, List.mem_append_left _ hpart, hdrive, fun path => ?_⟩
        rw [List.foldl_concat, joinPart_drive, if_pos hlast, hdecides]
    · refine .inr ⟨last, by simp, hlast, fun path => ?_⟩
      rw [List.foldl_concat, joinPart_drive, if_neg hlast]

/-- Behind a rooted part only names of the parts are left. -/
theorem foldl_joinPart_short {bound : Nat} (path : RootSplit)
    (hdrives : ∀ part ∈ parts, (splitRoot part).drive = [])
    (hshort : ∀ part ∈ parts, slash ∉ part ∧ part.length < bound) (hroot : path.root = [backslash])
    (h : (∀ name, .down name ∈ windowsSteps path.tail → name.length < bound) ∨
      ∃ part ∈ parts, Anchored part) :
    (parts.foldl joinPart path).drive = path.drive ∧
      (parts.foldl joinPart path).root = [backslash] ∧
      ∀ name, .down name ∈ windowsSteps (parts.foldl joinPart path).tail →
        name.length < bound := by
  induction parts generalizing path with
  | nil =>
    refine ⟨rfl, hroot, h.resolve_right ?_⟩
    simp
  | cons part parts ih =>
    have hdrive := hdrives part List.mem_cons_self
    obtain ⟨hslash, hlength⟩ := hshort part List.mem_cons_self
    have hstep : ∀ next : RootSplit, joinPart path part = next → next.drive = path.drive →
        next.root = [backslash] →
        ((∀ name, .down name ∈ windowsSteps next.tail → name.length < bound) ∨
          ∃ part ∈ parts, Anchored part) →
        ((part :: parts).foldl joinPart path).drive = path.drive ∧
          ((part :: parts).foldl joinPart path).root = [backslash] ∧
          ∀ name, .down name ∈ windowsSteps ((part :: parts).foldl joinPart path).tail →
            name.length < bound := by
      intro next hnext hsame hnextroot hrest
      rw [List.foldl_cons, hnext, ← hsame]
      exact ih next (fun other hother => hdrives other (List.mem_cons_of_mem part hother))
        (fun other hother => hshort other (List.mem_cons_of_mem part hother)) hnextroot hrest
    by_cases hanchored : Anchored part
    · have hpartroot : (splitRoot part).root ≠ [] :=
        ((anchored_iff_splitRoot hslash).mp hanchored).resolve_left (not_not.mpr hdrive)
      have hsep := splitRoot_root hslash hdrive hpartroot
      apply hstep _ (joinPart_of_no_drive hdrive hpartroot) rfl hsep
      left
      intro name hname
      have hle := length_le_of_mem_windowsSteps hname
      have htail := @length_splitRoot_tail_le part
      simp only at hle
      omega
    · apply hstep _ (joinPart_of_not_anchored hanchored hslash) rfl hroot
      rcases h with hshortTail | ⟨other, hother, hlater⟩
      · left
        intro name hname
        simp only at hname
        rw [windowsSteps_separated, List.mem_append] at hname
        rcases hname with hold | hnew
        · exact hshortTail name hold
        · have hle := length_le_of_mem_windowsSteps hnew
          omega
      · right
        rcases List.mem_cons.mp hother with rfl | hrest
        · exact absurd hlater hanchored
        · exact ⟨other, hrest, hlater⟩

theorem joinedText_eq : ∃ rest, joinedText path = path.drive ++ rest := by
  unfold joinedText
  simp only
  split
  · exact ⟨_, rfl⟩
  · exact ⟨_, rfl⟩

end

/-- The directory of these names on a drive with a letter. -/
def WindowsDir.ofLetter (letter : CodePoint) (names : List PyStr) (hletter : isSep letter = false)
    (hnames : ∀ name ∈ names, (∀ c ∈ name, isSep c = false) ∧
      windowsStep? name = some (.down name)) : WindowsDir where
  drive := [letter, colon]
  names := names
  isDrive := by
    intro tail
    have hback : isSep backslash := by decide
    simp [splitRoot, hletter, hback]
  isNames := hnames

section

variable {root : WindowsDir} {relative : List FileName} {path : RootSplit} {letter : CodePoint}

theorem splitRoot_str : splitRoot root.str =
    ⟨root.drive, [backslash], [backslash].intercalate root.names⟩ :=
  root.isDrive _

theorem parse_joinedText (hdrive : path.drive = root.drive) (hroot : path.root = [backslash]) :
    WindowsPath.parse (joinedText path) = ⟨root.drive, [backslash], windowsSteps path.tail⟩ := by
  unfold joinedText WindowsPath.parse
  rw [if_neg (by simp [hroot]), hdrive, hroot]
  simp only [List.singleton_append, root.isDrive]

/-- Whatever follows it, the drive of a joined path is not another letter. -/
theorem parse_joinedText_drive {part : PyStr} (letter : CodePoint) (hletter : isSep letter = false)
    (hlower : PyStr.lower [letter, colon] = [letter, colon])
    (hpart : (splitRoot part).drive ≠ []) (hdrive : path.drive = (splitRoot part).drive)
    (hother : PyStr.lower (splitRoot part).drive ≠ PyStr.lower [letter, colon]) :
    PyStr.lower (WindowsPath.parse (joinedText path)).drive ≠ PyStr.lower [letter, colon] := by
  obtain ⟨rest, hrest⟩ := @joinedText_eq path
  rw [hdrive] at hrest
  change PyStr.lower (splitRoot (joinedText path)).drive ≠ _
  rcases splitRoot_drive part with hnil | ⟨c, hc, hcolon⟩ | ⟨c, hc, hhead⟩
  · exact absurd hnil hpart
  · rw [hcolon] at hrest hother
    have hsame : (splitRoot (joinedText path)).drive = [c, colon] := by
      rw [hrest]
      exact splitRoot_letter hc
    rwa [hsame]
  · have htext : (joinedText path).head? = some c := by
      rw [hrest, List.head?_append, hhead]
      rfl
    rw [hlower]
    intro heq
    have hprefix := @splitRoot_begins (joinedText path)
    generalize (splitRoot (joinedText path)).drive = drive at heq hprefix
    cases drive with
    | nil => cases heq
    | cons first drive =>
      obtain ⟨low, hlow⟩ := hprefix
      rw [← hlow] at htext
      obtain rfl : first = c := Option.some.inj htext
      rw [PyStr.lower, List.map_cons] at heq
      have hfirst := (List.cons.inj heq).1
      simp only [isSep, Bool.or_eq_true, beq_iff_eq] at hc
      rcases hc with rfl | rfl
      · exact absurd hletter (hfirst ▸ by decide)
      · exact absurd hletter (hfirst ▸ by decide)

theorem windowsSteps_root : windowsSteps (splitRoot root.str).tail = down root.names := by
  rw [splitRoot_str]
  exact windowsSteps_names root.isNames

theorem contains_of_staysInside (h : StaysInside relative) :
    root.Contains (windowsNativePath root relative) := by
  obtain ⟨hplain, hbelow⟩ := h
  have hparts : ∀ part ∈ relative.map FileName.text, ¬ Anchored part ∧ slash ∉ part := by
    intro part hpart
    obtain ⟨name, hname, rfl⟩ := List.mem_map.mp hpart
    exact ⟨hplain name hname, name.valid.2.1⟩
  obtain ⟨hdrive, hroot, hsteps⟩ := foldl_joinPart_plain (splitRoot root.str) hparts
  rw [splitRoot_str] at hdrive hroot
  rw [windowsSteps_root, List.flatMap_map] at hsteps
  obtain ⟨low, -, hlow⟩ := lexical_of_staysBelow hbelow
  unfold windowsNativePath ntJoin
  rw [splitRoot_str] at hsteps ⊢
  rw [parse_joinedText hdrive hroot, hsteps]
  refine ⟨rfl, List.cons_ne_nil _ _, ?_⟩
  rw [lexical_append, lexical_down, List.nil_append, hlow, List.map_append]
  exact List.prefix_append _ _

/-- A name longer than every part. -/
def freshName (relative : List FileName) : PyStr :=
  List.replicate ((relative.map FileName.text).flatten.length + 3) (CodePoint.ofChar 'x')

theorem length_lt_freshName {name : FileName} (h : name ∈ relative) :
    name.text.length < (freshName relative).length := by
  have hle : name.text.length ≤ (relative.map FileName.text).flatten.length :=
    (List.sublist_flatten_of_mem (List.mem_map.mpr ⟨name, h, rfl⟩)).length_le
  rw [freshName, List.length_replicate]
  omega

theorem freshName_isName : ∀ name ∈ [freshName relative], (∀ c ∈ name, isSep c = false) ∧
    windowsStep? name = some (.down name) := by
  intro name hname
  rw [List.mem_singleton.mp hname]
  refine ⟨?_, ?_⟩
  · intro c hc
    rw [List.eq_of_mem_replicate hc]
    decide
  · have hlength : (freshName relative).length = _ := List.length_replicate ..
    have hnil : freshName relative ≠ [] := by
      intro heq
      simp [heq] at hlength
    have hdot : freshName relative ≠ [dot] := by
      intro heq
      simp [heq] at hlength
    have hdots : freshName relative ≠ [dot, dot] := by
      intro heq
      simp [heq] at hlength
    simp [windowsStep?, hnil, hdot, hdots]

def freshDir (relative : List FileName) : WindowsDir :=
  .ofLetter (.ofChar 'a') [freshName relative] (by decide) freshName_isName

/-- A path without a name as long as the fresh one is not below the fresh directory. -/
theorem not_contains_freshDir {path : WindowsPath}
    (h : ∀ name, name.length = (freshName relative).length → name ∉ lexical [] path.steps) :
    ¬ (freshDir relative).Contains path := by
  intro hall
  obtain ⟨-, -, hpre⟩ := hall
  have hmem : PyStr.lower (freshName relative) ∈ (lexical [] path.steps).map PyStr.lower :=
    hpre.subset (by simp [freshDir, WindowsDir.ofLetter])
  obtain ⟨name, hname, hlower⟩ := List.mem_map.mp hmem
  have hlength := congrArg List.length hlower
  simp only [PyStr.lower, List.length_map] at hlength
  exact h name hlength hname

theorem not_contains_of_anchored {name : FileName} (hname : name ∈ relative)
    (hanchored : Anchored name.text) :
    ∃ root : WindowsDir, ¬ root.Contains (windowsNativePath root relative) := by
  rcases foldl_joinPart_drive (relative.map FileName.text) with hnone | ⟨part, -, hpart, hdecides⟩
  · refine ⟨freshDir relative, not_contains_freshDir ?_⟩
    have hshort : ∀ part ∈ relative.map FileName.text, slash ∉ part ∧
        part.length < (freshName relative).length := by
      intro part hpart
      obtain ⟨other, hother, rfl⟩ := List.mem_map.mp hpart
      exact ⟨other.valid.2.1, length_lt_freshName hother⟩
    have hstart : (splitRoot (freshDir relative).str).drive = (freshDir relative).drive ∧
        (splitRoot (freshDir relative).str).root = [backslash] := by
      rw [splitRoot_str]
      exact ⟨rfl, rfl⟩
    obtain ⟨hdrive, hroot, hnames⟩ := foldl_joinPart_short (splitRoot (freshDir relative).str)
      hnone hshort hstart.2 (.inr ⟨_, List.mem_map.mpr ⟨name, hname, rfl⟩, hanchored⟩)
    intro long hlength
    unfold windowsNativePath ntJoin
    rw [parse_joinedText (hdrive.trans hstart.1) hroot]
    apply not_mem_lexical (List.not_mem_nil)
    intro hmem
    have hlt := hnames long hmem
    omega
  · by_cases hother : PyStr.lower (splitRoot part).drive = PyStr.lower [.ofChar 'a', colon]
    · refine ⟨.ofLetter (.ofChar 'b') [] (by decide) (by simp), fun hall => ?_⟩
      exact parse_joinedText_drive (.ofChar 'b') (by decide) (by decide) hpart (hdecides _)
        (by rw [hother]; decide) hall.1
    · refine ⟨.ofLetter (.ofChar 'a') [] (by decide) (by simp), fun hall => ?_⟩
      exact parse_joinedText_drive (.ofChar 'a') (by decide) (by decide) hpart (hdecides _)
        hother hall.1

theorem not_contains_of_above (hplain : ∀ name ∈ relative, ¬ Anchored name.text)
    (habove : ¬ StaysBelow (relative.flatMap fun name => windowsSteps name.text)) :
    ¬ (freshDir relative).Contains (windowsNativePath (freshDir relative) relative) := by
  have hparts : ∀ part ∈ relative.map FileName.text, ¬ Anchored part ∧ slash ∉ part := by
    intro part hpart
    obtain ⟨name, hname, rfl⟩ := List.mem_map.mp hpart
    exact ⟨hplain name hname, name.valid.2.1⟩
  have hshort : ∀ name, .down name ∈ relative.flatMap (fun name => windowsSteps name.text) →
      name.length < (freshName relative).length := by
    intro name hname
    obtain ⟨part, hpart, hstep⟩ := List.mem_flatMap.mp hname
    have hle := length_le_of_mem_windowsSteps hstep
    have hlt := length_lt_freshName hpart
    omega
  obtain ⟨hdrive, hroot, hsteps⟩ := foldl_joinPart_plain (splitRoot (freshDir relative).str) hparts
  rw [windowsSteps_root, List.flatMap_map] at hsteps
  rw [splitRoot_str] at hdrive hroot hsteps
  apply not_contains_freshDir
  intro long hlength
  unfold windowsNativePath ntJoin
  rw [splitRoot_str, parse_joinedText hdrive hroot, hsteps, lexical_append, lexical_down,
    List.nil_append]
  have hlong : ∀ name, name.length = (freshName relative).length →
      .down name ∉ relative.flatMap fun name => windowsSteps name.text := by
    intro name hname hmem
    have hlt := hshort name hmem
    omega
  change long ∉ lexical [freshName relative] _
  by_cases hsame : long = freshName relative
  · rw [hsame]
    exact not_mem_lexical_of_above habove (hlong _ rfl)
  · exact not_mem_lexical (by simpa using hsame) (hlong long hlength)

/-- The path stays inside every root exactly if none of its parts starts anew and, read with
backslashes as separators, it does not go up too far. -/
theorem contains_nativePath_iff :
    (∀ root : WindowsDir, root.Contains (windowsNativePath root relative)) ↔
      StaysInside relative := by
  constructor
  · intro hall
    by_contra hout
    rw [StaysInside, not_and_or] at hout
    by_cases hplain : ∀ name ∈ relative, ¬ Anchored name.text
    · have habove := hout.resolve_left (not_not.mpr hplain)
      exact not_contains_of_above hplain habove (hall (freshDir relative))
    · push Not at hplain
      obtain ⟨name, hname, hanchored⟩ := hplain
      obtain ⟨root, hroot⟩ := not_contains_of_anchored hname hanchored
      exact hroot (hall root)
  · exact fun h root => contains_of_staysInside h

end

/-- `load_manifest` looks at the parts that slashes separate. The paths of a manifest it accepts
stay inside every client root on Windows exactly if none has a part that begins with a drive or a
backslash, and none leads out through `..` between backslashes. -/
theorem loadManifest_windows_inside_iff (text : PyStr) :
    (∀ manifest, Manifest.parse text = .ok manifest → ∀ relative ∈ manifest.keys,
        ∀ root : WindowsDir, root.Contains (windowsNativePath root relative)) ↔
      ∀ manifest, Manifest.parse text = .ok manifest → ∀ relative ∈ manifest.keys,
        StaysInside relative := by
  constructor
  · intro hall manifest hparse relative hkey
    exact contains_nativePath_iff.mp (hall manifest hparse relative hkey)
  · intro hall manifest hparse relative hkey
    exact contains_nativePath_iff.mpr (hall manifest hparse relative hkey)

namespace Sample

/-- A line with the path `..\x`. -/
def upwardsManifest : PyStr := originalSha256 ++ PyStr.ofChars [' ', '.', '.', '\\', 'x']

/-- `..\x` -/
def upwards : FileName where
  text := PyStr.ofChars ['.', '.', '\\', 'x']
  valid := by decide

/-- `C:\r` -/
def clientDir : WindowsDir :=
  .ofLetter (.ofChar 'C') [PyStr.ofChars ['r']] (by decide) (by
    intro name hname
    rw [List.mem_singleton.mp hname]
    refine ⟨?_, by decide⟩
    intro c hc
    rw [List.mem_singleton.mp hc]
    decide)

end Sample

/-- The path `..\x` is accepted, and leads from `C:\r` to `C:\x`. -/
theorem loadManifest_accepts_upwards :
    ∃ manifest, Manifest.parse Sample.upwardsManifest = .ok manifest ∧
      [Sample.upwards] ∈ manifest.keys ∧
      ¬ Sample.clientDir.Contains (windowsNativePath Sample.clientDir [Sample.upwards]) := by
  have hentries : (Manifest.parse Sample.upwardsManifest).map (fun manifest => manifest.keys) =
      .ok [[Sample.upwards]] := by
    decide +kernel
  cases hparse : Manifest.parse Sample.upwardsManifest with
  | error e =>
    rw [hparse] at hentries
    cases hentries
  | ok manifest =>
    rw [hparse] at hentries
    have hkeys : manifest.keys = [[Sample.upwards]] := Except.ok.inj hentries
    refine ⟨manifest, rfl, by rw [hkeys]; exact List.mem_singleton_self _, ?_⟩
    have hpath : windowsNativePath Sample.clientDir [Sample.upwards] =
        ⟨[.ofChar 'C', colon], [backslash], [.down (PyStr.ofChars ['r']), .up,
          .down (PyStr.ofChars ['x'])]⟩ := by
      decide +kernel
    rw [hpath]
    intro hall
    have hnot : ¬ [PyStr.ofChars ['r']].map PyStr.lower <+:
        [PyStr.ofChars ['x']].map PyStr.lower := by decide +kernel
    exact hnot hall.2.2

end Army3
