import Mathlib.Algebra.GroupWithZero.Nat
import Army3.Tools.PatchedCopy

/-! `inventory-client.ps1`: the manifest of a client directory, and what the client tools make of
it. -/

namespace Army3

open Files Raising

namespace Inventory

/-- The text of a path below the client root. -/
def fullName (clientRoot : PyStr) (relative : List FileName) : PyStr :=
  clientRoot ++ backslash :: [backslash].intercalate (relative.map FileName.text)

/-- `$file.FullName.Substring($clientRoot.Length + 1).Replace('\', '/')` -/
def relativePath (clientRoot fullName : PyStr) : PyStr :=
  (fullName.drop (clientRoot.length + 1)).map fun c => if c = backslash then slash else c

section

variable (host : Host) (disk : Disk) (root : List FileName)

/-- `Get-ChildItem -Recurse -Force -File`, as paths below the root. -/
def files : List (List FileName) :=
  ((disk.rglob root).filter fun path => ¬ disk.isDir path).map fun path => path.drop root.length

/-- `$file.Length`; a link has none. -/
def fileLength (relative : List FileName) : Nat :=
  match disk.node? (root ++ relative) with
  | some (.file data) => data.length
  | _ => 0

/-- The line of a file. `Get-FileHash` prints capitals. -/
def line (clientRoot : PyStr) (relative : List FileName) : Except ToolError PyStr := do
  let digest ← sha256File host disk (down (root ++ relative))
  return PyStr.lower (PyStr.upper digest) ++ [space, star] ++
    relativePath clientRoot (fullName clientRoot relative)

def header (sorted : List (List FileName)) (clientRoot : PyStr) : List PyStr :=
  let totalBytes := if sorted.isEmpty then [] else PyStr.ofNat (sorted.map (fileLength disk root)).sum
  [PyStr.lit "Client root: " ++ clientRoot, PyStr.lit "Files: " ++ PyStr.ofNat sorted.length,
    PyStr.lit "Total bytes: " ++ totalBytes, [],
    PyStr.lit "SHA-256 manifest (hash *relative/path):"]

/-- The output of the script; how `Sort-Object` orders the files is left open. -/
def inventory (sort : List (List FileName) → List (List FileName)) (clientRoot : PyStr) :
    Except ToolError (List PyStr) := do
  let sorted := sort (files disk root)
  let manifest ← sorted.mapM (line host disk root clientRoot)
  return header disk root sorted clientRoot ++ manifest

end

/-- The lines as they are saved to a file, each with its line end. -/
def saved (newline : PyStr) (lines : List PyStr) : PyStr := lines.flatMap (· ++ newline)

/-- The hash of a regular file at a path. -/
def hashAt (host : Host) (disk : Disk) (path : List FileName) : Option PyStr :=
  match disk.node? path with
  | some (.file data) => some (host.sha256 data)
  | _ => none

/-- A name that Windows and a text of one line can hold. -/
def Plain (name : FileName) : Prop :=
  backslash ∉ name.text ∧ ∀ c ∈ name.text, PyStr.isLineBreak c = false

/-! ### A line of the manifest -/

variable {relative : List FileName} {digest : PyStr}

/-- The names of a path with `/` between them. -/
def pathText (relative : List FileName) : PyStr := [slash].intercalate (relative.map FileName.text)

def entryLine (entry : List FileName × PyStr) : PyStr := entry.2 ++ space :: star :: pathText entry.1

theorem map_intercalate_backslash {texts : List PyStr} (h : ∀ text ∈ texts, backslash ∉ text) :
    ([backslash].intercalate texts).map (fun c => if c = backslash then slash else c) =
      [slash].intercalate texts := by
  have hkept : ∀ text ∈ texts, text.map (fun c => if c = backslash then slash else c) = text := by
    intro text htext
    refine (List.map_congr_left fun c hc => if_neg ?_).trans (List.map_id text)
    rintro rfl
    exact h text htext hc
  clear h
  induction texts with
  | nil => rfl
  | cons text texts ih =>
    obtain ⟨hfirst, hlater⟩ := List.forall_mem_cons.mp hkept
    cases texts with
    | nil => simpa using hfirst
    | cons next texts =>
      rw [List.intercalate_cons_cons, List.map_append, List.map_append, hfirst, ih hlater,
        List.intercalate_cons_cons]
      rfl

theorem relativePath_fullName {clientRoot : PyStr}
    (h : ∀ name ∈ relative, backslash ∉ name.text) :
    relativePath clientRoot (fullName clientRoot relative) = pathText relative := by
  have hdrop : (fullName clientRoot relative).drop (clientRoot.length + 1) =
      [backslash].intercalate (relative.map FileName.text) := by
    rw [fullName, ← List.drop_drop, List.drop_left]
    rfl
  rw [relativePath, hdrop]
  refine map_intercalate_backslash fun text htext => ?_
  obtain ⟨name, hname, rfl⟩ := List.mem_map.mp htext
  exact h name hname

theorem mem_pathText {c : CodePoint} (h : c ∈ pathText relative) :
    c = slash ∨ ∃ name ∈ relative, c ∈ name.text := by
  unfold pathText at h
  induction relative with
  | nil => exact absurd h List.not_mem_nil
  | cons name names ih =>
    cases names with
    | nil =>
      rw [List.map_singleton, List.intercalate_singleton] at h
      exact .inr ⟨name, List.mem_cons_self, h⟩
    | cons next names =>
      rw [List.map_cons, List.map_cons, List.intercalate_cons_cons] at h
      rcases List.mem_append.mp h with h | h
      · rcases List.mem_append.mp h with h | h
        · exact .inr ⟨name, List.mem_cons_self, h⟩
        · exact .inl (List.mem_singleton.mp h)
      · refine (ih h).imp_right ?_
        rintro ⟨other, hother, hc⟩
        exact ⟨other, List.mem_cons_of_mem _ hother, hc⟩

theorem splitOnP_pathText (hne : relative ≠ []) :
    (pathText relative).splitOnP (· == slash) = relative.map FileName.text := by
  refine List.splitOn_intercalate slash ?_ (by simpa using hne)
  intro text htext
  obtain ⟨name, -, rfl⟩ := List.mem_map.mp htext
  exact name.valid.2.1

theorem part?_text (name : FileName) : PurePosixPath.part? name.text = some (.down name) := by
  have hvalid := name.valid
  unfold PurePosixPath.part?
  rw [if_neg hvalid.2.2.2, dif_pos hvalid]

/-- A relative path that is printed is read back. -/
theorem safeNames?_pathText (hne : relative ≠ []) :
    (PurePosixPath.parse (pathText relative)).safeNames? = some relative := by
  have hroot : (PurePosixPath.parse (pathText relative)).root = [] := by
    obtain ⟨name, names, rfl⟩ := List.exists_cons_of_ne_nil hne
    obtain ⟨c, text, hname⟩ := List.exists_cons_of_ne_nil name.valid.1
    have hslash : (c == slash) = false := by
      rw [beq_eq_false_iff_ne]
      rintro rfl
      exact name.valid.2.1 (hname ▸ List.mem_cons_self)
    have hfirst : ∃ rest, pathText (name :: names) = c :: rest := by
      cases names with
      | nil => exact ⟨text, by simp [pathText, hname]⟩
      | cons next names => exact ⟨_, by simp [pathText, hname, List.intercalate]; rfl⟩
    obtain ⟨rest, hfirst⟩ := hfirst
    rw [PurePosixPath.parse, hfirst, List.takeWhile_cons, hslash]
    rfl
  have hparts : (PurePosixPath.parse (pathText relative)).parts = down relative := by
    rw [PurePosixPath.parse, splitOnP_pathText hne, List.filterMap_map]
    simp only [Function.comp_def, part?_text, List.filterMap_eq_map']
    rfl
  rw [PurePosixPath.safeNames?, hroot, if_neg (not_not_intro rfl), hparts]
  clear hne hroot hparts
  induction relative with
  | nil => rfl
  | cons name names ih =>
    rw [down] at ih
    rw [down, List.map_cons, List.mapM_cons, ih]
    rfl

theorem not_isSpace_of_mem_hexDigits : ∀ c ∈ hexDigits, PyStr.isSpace c = false := by
  have hall : hexDigits.all (!PyStr.isSpace ·) = true := by decide
  simpa using hall

theorem not_isLineBreak_of_mem_hexDigits : ∀ c ∈ hexDigits, PyStr.isLineBreak c = false := by
  have hall : hexDigits.all (!PyStr.isLineBreak ·) = true := by decide
  simpa using hall

theorem lower_of_isSha256 (h : IsSha256 digest) : PyStr.lower digest = digest := by
  have hall : hexDigits.all (fun c => PyStr.lower [c] = [c]) = true := by decide
  have hfixed : ∀ c ∈ digest, (if 65 ≤ c.val ∧ c.val ≤ 90 then c + 32 else c) = c := by
    intro c hc
    have hone := List.all_eq_true.mp hall c (h.2 c hc)
    exact (List.cons.inj (of_decide_eq_true hone)).1
  exact (List.map_congr_left hfixed).trans (List.map_id digest)

theorem lower_upper (h : IsSha256 digest) : PyStr.lower (PyStr.upper digest) = digest := by
  have hall : hexDigits.all (fun c => PyStr.lower (PyStr.upper [c]) = [c]) = true := by decide
  rw [PyStr.lower, PyStr.upper, List.map_map]
  refine (List.map_congr_left fun c hc => ?_).trans (List.map_id digest)
  have hone := List.all_eq_true.mp hall c (h.2 c hc)
  exact (List.cons.inj (of_decide_eq_true hone)).1

theorem splitOnce_entryLine (h : IsSha256 digest) :
    PyStr.splitOnce (entryLine (relative, digest)) = some (digest, star :: pathText relative) := by
  have hspace : ∀ c ∈ digest, PyStr.isSpace c = false := fun c hc =>
    not_isSpace_of_mem_hexDigits c (h.2 c hc)
  have hne : digest ≠ [] := by
    rintro rfl
    exact absurd h.1 (by decide)
  have hblank : PyStr.isSpace space = true := by decide
  have hstar : PyStr.isSpace star = false := by decide
  have hfirst : (entryLine (relative, digest)).dropWhile PyStr.isSpace =
      digest ++ space :: star :: pathText relative := by
    obtain ⟨c, rest, rfl⟩ := List.exists_cons_of_ne_nil hne
    exact List.dropWhile_cons_of_neg (by simp [hspace c List.mem_cons_self])
  have hword : (digest ++ space :: star :: pathText relative).takeWhile (!PyStr.isSpace ·) =
      digest := by
    rw [List.takeWhile_append_of_pos (by simpa using hspace),
      List.takeWhile_cons_of_neg (by simp [hblank]), List.append_nil]
  have hrest : ((digest ++ space :: star :: pathText relative).dropWhile
      (!PyStr.isSpace ·)).dropWhile PyStr.isSpace = star :: pathText relative := by
    rw [List.dropWhile_append_of_pos (by simpa using hspace),
      List.dropWhile_cons_of_neg (by simp [hblank]), List.dropWhile_cons_of_pos hblank,
      List.dropWhile_cons_of_neg (by simp [hstar])]
  simp only [PyStr.splitOnce, hfirst, hword, hrest, hne, reduceCtorEq, or_self, if_false]

/-- A line of the script adds its file to what has been read. -/
theorem readLine_entryLine {lines : ManifestLines} {lineNumber : Nat} (hne : relative ≠ [])
    (hdigest : IsSha256 digest) (hnew : relative ∉ lines.entries.map Prod.fst) :
    ∃ lines', lines.readLine (entryLine (relative, digest), lineNumber) = .ok lines' ∧
      lines'.entries = lines.entries ++ [(relative, digest)] := by
  have hnotBlank : ¬ (entryLine (relative, digest)).all PyStr.isSpace = true := by
    have hstar : PyStr.isSpace star = false := by decide
    simp [entryLine, hstar]
  have hlower : IsSha256 (PyStr.lower digest) := by rwa [lower_of_isSha256 hdigest]
  refine ⟨lines.insert relative (PyStr.lower digest) hnew hlower, ?_, ?_⟩
  · simp only [ManifestLines.readLine, if_neg hnotBlank, splitOnce_entryLine hdigest,
      List.head?_cons, if_true, List.drop_succ_cons, List.drop_zero, safeNames?_pathText hne,
      dif_pos hlower, dif_pos hnew]
  · simp only [ManifestLines.insert, lower_of_isSha256 hdigest]

/-! ### The whole text -/

section

variable {entries : List (List FileName × PyStr)} {lines : List PyStr} {newline : PyStr}

theorem foldlM_readLine {before : ManifestLines} {n : Nat}
    (hentries : ∀ entry ∈ entries, entry.1 ≠ [] ∧ IsSha256 entry.2)
    (hnodup : (before.entries.map Prod.fst ++ entries.map Prod.fst).Nodup) :
    ∃ after, ((entries.map entryLine).zipIdx n).foldlM ManifestLines.readLine before = .ok after ∧
      after.entries = before.entries ++ entries := by
  induction entries generalizing before n with
  | nil => exact ⟨before, rfl, (List.append_nil _).symm⟩
  | cons entry entries ih =>
    obtain ⟨⟨hne, hdigest⟩, hlater⟩ := List.forall_mem_cons.mp hentries
    have hnew : entry.1 ∉ before.entries.map Prod.fst := fun hmem =>
      (List.nodup_append.mp hnodup).2.2 entry.1 hmem entry.1 List.mem_cons_self rfl
    have hfirst : ∃ next, before.readLine (entryLine entry, n) = .ok next ∧
        next.entries = before.entries ++ [entry] := readLine_entryLine hne hdigest hnew
    obtain ⟨next, hread, hnext⟩ := hfirst
    have hnodup' : (next.entries.map Prod.fst ++ entries.map Prod.fst).Nodup := by
      rw [hnext, List.map_append, List.append_assoc]
      exact hnodup
    obtain ⟨after, hafter, hall⟩ := ih (n := n + 1) hlater hnodup'
    refine ⟨after, ?_, ?_⟩
    · rw [List.map_cons, List.zipIdx_cons, List.foldlM_cons]
      exact (congrArg (· >>= _) hread).trans hafter
    · rw [hall, hnext, List.append_assoc]
      rfl

/-- The line ends of Windows and of Unix. -/
def IsNewline (newline : PyStr) : Prop :=
  newline = [PyStr.lineFeed] ∨ newline = [PyStr.carriageReturn, PyStr.lineFeed]

theorem universalNewlines_cons {c : CodePoint} {rest : PyStr} (h : PyStr.isLineBreak c = false) :
    PyStr.universalNewlines (c :: rest) = c :: PyStr.universalNewlines rest := by
  have hne : c ≠ PyStr.carriageReturn := by
    rintro rfl
    exact absurd h (by decide)
  exact PyStr.universalNewlines_cons_of_ne hne

theorem universalNewlines_newline {rest : PyStr} (h : IsNewline newline) :
    PyStr.universalNewlines (newline ++ rest) =
      PyStr.lineFeed :: PyStr.universalNewlines rest := by
  have hne : PyStr.lineFeed ≠ PyStr.carriageReturn := by decide
  rcases h with rfl | rfl
  · exact PyStr.universalNewlines_cons_of_ne hne
  · simp [PyStr.universalNewlines]

theorem universalNewlines_saved (hnewline : IsNewline newline)
    (h : ∀ line ∈ lines, ∀ c ∈ line, PyStr.isLineBreak c = false) :
    PyStr.universalNewlines (saved newline lines) = saved [PyStr.lineFeed] lines := by
  induction lines with
  | nil => rfl
  | cons line lines ih =>
    obtain ⟨hline, hlater⟩ := List.forall_mem_cons.mp h
    have hrest := ih hlater
    simp only [saved, List.flatMap_cons, List.append_assoc] at hrest ⊢
    clear h ih
    induction line with
    | nil =>
      rw [List.nil_append, universalNewlines_newline hnewline, hrest]
      rfl
    | cons c line ih =>
      obtain ⟨hc, hline⟩ := List.forall_mem_cons.mp hline
      rw [List.cons_append, universalNewlines_cons hc, ih hline]
      rfl

theorem splitOnP_saved (h : ∀ line ∈ lines, ∀ c ∈ line, PyStr.isLineBreak c = false) :
    (saved [PyStr.lineFeed] lines).splitOnP PyStr.isLineBreak = lines ++ [[]] := by
  induction lines with
  | nil => rfl
  | cons line lines ih =>
    obtain ⟨hline, hlater⟩ := List.forall_mem_cons.mp h
    have hrest := ih hlater
    simp only [saved, List.flatMap_cons, List.append_assoc, List.singleton_append] at hrest ⊢
    rw [List.splitOnP_append_cons_of_forall_mem hline _ (by decide), hrest]
    rfl

theorem splitLines_saved (h : ∀ line ∈ lines, ∀ c ∈ line, PyStr.isLineBreak c = false) :
    PyStr.splitLines (saved [PyStr.lineFeed] lines) = lines := by
  have hlast : (lines ++ [[]]).getLast? = some ([] : PyStr) := List.getLast?_concat
  rw [PyStr.splitLines, universalNewlines_saved (.inl rfl) h, splitOnP_saved h]
  simp only [hlast, if_true, List.dropLast_concat]

theorem not_isLineBreak_entryLine (hentries : ∀ entry ∈ entries, IsSha256 entry.2)
    (hplain : ∀ entry ∈ entries, ∀ name ∈ entry.1, Plain name) :
    ∀ line ∈ entries.map entryLine, ∀ c ∈ line, PyStr.isLineBreak c = false := by
  intro line hline c hc
  obtain ⟨entry, hentry, rfl⟩ := List.mem_map.mp hline
  rcases List.mem_append.mp hc with hc | hc
  · exact not_isLineBreak_of_mem_hexDigits c ((hentries entry hentry).2 c hc)
  rcases List.mem_cons.mp hc with rfl | hc
  · decide
  rcases List.mem_cons.mp hc with rfl | hc
  · decide
  rcases mem_pathText hc with rfl | ⟨name, hname, hc⟩
  · decide
  · exact (hplain entry hentry name hname).2 c hc

/-- What is read from a file with these lines: their entries, in their order. -/
theorem loadManifest_saved {store : Disk} {cwd : List FileName} {path : PurePosixPath} {raw : Bytes}
    (hentries : ∀ entry ∈ entries, entry.1 ≠ [] ∧ IsSha256 entry.2)
    (hplain : ∀ entry ∈ entries, ∀ name ∈ entry.1, Plain name)
    (hnodup : (entries.map Prod.fst).Nodup) (hsome : entries ≠ []) (hnewline : IsNewline newline)
    (hraw : PyStr.encodeUtf8 (saved newline (entries.map entryLine)) = .ok raw)
    (hstored : store.readBytes (Disk.stepsFrom cwd path) = .ok raw) :
    ∃ manifest, loadManifest store cwd path = .ok manifest ∧ manifest.entries = entries := by
  have hlines := not_isLineBreak_entryLine (fun entry hentry => (hentries entry hentry).2) hplain
  have hread : ∃ after, ((entries.map entryLine).zipIdx 1).foldlM ManifestLines.readLine .none =
      .ok after ∧ after.entries = [] ++ entries := foldlM_readLine hentries hnodup
  obtain ⟨after, hafter, hall⟩ := hread
  rw [List.nil_append] at hall
  have hne : after.entries ≠ [] := by rwa [hall]
  refine ⟨⟨after, hne⟩, ?_, hall⟩
  have htext : store.readText (Disk.stepsFrom cwd path) =
      .ok (saved [PyStr.lineFeed] (entries.map entryLine)) := by
    unfold Disk.readText
    refine except_bind_eq_ok.mpr ⟨raw, hstored, ?_⟩
    rw [PyStr.encodeUtf8_eq_ok.mp hraw]
    exact congrArg Except.ok (universalNewlines_saved hnewline hlines)
  rw [loadManifest, htext]
  change Manifest.parse _ = _
  rw [Manifest.parse, splitLines_saved hlines, hafter]
  exact dif_pos hne

end

/-! ### The tree and its manifest -/

section

variable {host : Host} {disk : Disk} {root dir path : List FileName} {hash : PyStr}

theorem hashAt_eq_some : hashAt host disk path = some hash ↔ HasFile host disk path hash := by
  unfold hashAt HasFile
  cases hnode : disk.node? path with
  | none => simp
  | some node => cases node <;> simp

/-- Where there are no links, what stands there and is no directory has a hash. -/
theorem occupied_iff (hfree : (disk.below dir).LinkFree) :
    Occupied disk dir relative ↔ ∃ hash, hashAt host disk (dir ++ relative) = some hash := by
  constructor
  · rintro ⟨node, hnode, hkind⟩
    cases node with
    | file data => exact ⟨_, hashAt_eq_some.2 ⟨data, hnode, rfl⟩⟩
    | directory => exact absurd rfl hkind
    | link absolute target =>
      rw [← Branch.node?_below] at hnode
      exact absurd trivial (hfree relative _ hnode)
  · rintro ⟨hash, hhash⟩
    obtain ⟨data, hnode, -⟩ := hashAt_eq_some.1 hhash
    exact ⟨_, hnode, by simp⟩

variable (hroot : disk.node? root = some .directory) (hfree : (disk.below root).LinkFree)

include hroot in
theorem ne_nil_of_occupied (h : Occupied disk root relative) : relative ≠ [] := by
  rintro rfl
  obtain ⟨node, hnode, hkind⟩ := h
  rw [List.append_nil, hroot] at hnode
  exact hkind (Option.some.inj hnode).symm

include hroot hfree

theorem direct_below (relative : List FileName) : disk.Direct (root ++ relative) :=
  (Tree.direct_of_node? hroot id).append hfree

theorem mem_files : relative ∈ files disk root ↔ Occupied disk root relative := by
  have hdirectory : ∀ low, ¬ disk.isDir (root ++ low) ↔
      disk.node? (root ++ low) ≠ some .directory := fun low =>
    not_congr (Disk.isDir_iff (direct_below hroot hfree low))
  unfold files
  constructor
  · intro h
    obtain ⟨path, hpath, rfl⟩ := List.mem_map.mp h
    obtain ⟨hlisted, hkind⟩ := List.mem_filter.mp hpath
    obtain ⟨low, -, rfl, hsome⟩ := Disk.mem_rglob.mp hlisted
    obtain ⟨node, hnode⟩ := Option.isSome_iff_exists.mp hsome
    rw [List.drop_left]
    refine ⟨node, hnode, ?_⟩
    rintro rfl
    exact (hdirectory low).mp (of_decide_eq_true hkind) hnode
  · intro h
    have hne := ne_nil_of_occupied hroot h
    obtain ⟨node, hnode, hkind⟩ := h
    refine List.mem_map.mpr ⟨root ++ relative, List.mem_filter.mpr ⟨?_, ?_⟩, List.drop_left⟩
    · exact Disk.mem_rglob.mpr ⟨relative, hne, rfl, by rw [hnode]; rfl⟩
    · refine decide_eq_true ((hdirectory relative).mpr ?_)
      rw [hnode]
      exact fun heq => hkind (Option.some.inj heq)

omit hroot hfree in
theorem nodup_files : (files disk root).Nodup := by
  unfold files Disk.rglob
  rw [List.filter_map, List.map_map]
  have hdrop : (fun path : List FileName => path.drop root.length) ∘ (root ++ ·) = id := by
    funext path
    exact List.drop_left
  rw [hdrop, List.map_id]
  exact ((disk.below root).nodup.filter _).filter _

/-- A file in the inventory, with its hash. -/
def fileEntry (host : Host) (disk : Disk) (root relative : List FileName) : List FileName × PyStr :=
  (relative, (hashAt host disk (root ++ relative)).getD [])

theorem line_eq {clientRoot : PyStr} (hoccupied : Occupied disk root relative)
    (hdigest : ∀ hash, hashAt host disk (root ++ relative) = some hash → IsSha256 hash)
    (hplain : ∀ name ∈ relative, Plain name) :
    line host disk root clientRoot relative = .ok (entryLine (fileEntry host disk root relative)) := by
  obtain ⟨hash, hhash⟩ := (occupied_iff hfree).mp hoccupied
  obtain ⟨data, hnode, hdata⟩ := hashAt_eq_some.1 hhash
  have hread : disk.readBytes (down (root ++ relative)) = .ok data := by
    rw [Disk.readBytes_eq_ok, Disk.stat_of_direct (direct_below hroot hfree relative), hnode]
  have hline : line host disk root clientRoot relative = .ok (PyStr.lower (PyStr.upper hash) ++
      [space, star] ++ relativePath clientRoot (fullName clientRoot relative)) := by
    rw [line, sha256File, hread, ← hdata]
    rfl
  rw [hline, lower_upper (hdigest hash hhash),
    relativePath_fullName fun name hname => (hplain name hname).1, fileEntry, hhash, entryLine,
    List.append_assoc]
  rfl

theorem inventory_eq {sort : List (List FileName) → List (List FileName)} {clientRoot : PyStr}
    (hsort : (sort (files disk root)).Perm (files disk root))
    (hdigest : ∀ relative hash, hashAt host disk (root ++ relative) = some hash → IsSha256 hash)
    (hplain : ∀ relative, Occupied disk root relative → ∀ name ∈ relative, Plain name) :
    ∃ lines, inventory host disk root sort clientRoot = .ok lines ∧
      lines.drop 5 = ((sort (files disk root)).map (fileEntry host disk root)).map entryLine := by
  have hlines : (sort (files disk root)).mapM (line host disk root clientRoot) =
      .ok ((sort (files disk root)).map fun relative =>
        entryLine (fileEntry host disk root relative)) := by
    refine mapM_of_forall fun relative hrelative => ?_
    have hoccupied := (mem_files hroot hfree).mp (hsort.mem_iff.mp hrelative)
    exact line_eq hroot hfree hoccupied (hdigest relative) (hplain relative hoccupied)
  refine ⟨header disk root (sort (files disk root)) clientRoot ++ _, except_bind_eq_ok.mpr
    ⟨_, hlines, rfl⟩, ?_⟩
  rw [List.map_map]
  rfl

end

/-- The files of one directory, by path and hash, are those of the other. -/
def SameFiles (host : Host) (disk : Disk) (root : List FileName) (disk' : Disk)
    (dir : List FileName) : Prop :=
  ∀ relative, hashAt host disk' (dir ++ relative) = hashAt host disk (root ++ relative)

/-- Where a manifest lists the files of a directory, the tree that it describes has the same
files. -/
theorem originalTree_iff {host : Host} {disk disk' : Disk} {root dir : List FileName}
    {manifest : Manifest} {plan : PatchPlan}
    (hentries : ∀ relative hash, (relative, hash) ∈ manifest.entries ↔
      hashAt host disk (root ++ relative) = some hash) :
    OriginalTree host disk' dir manifest plan ↔
      disk'.node? dir = some .directory ∧ (disk'.below dir).LinkFree ∧
        SameFiles host disk root disk' dir ∧
        hashAt host disk (root ++ plan.metadataPath) = some plan.expectedOriginalSha256 ∧
        verifyMetadataBytes host disk' (nativePath dir plan.metadataPath) plan
          plan.expectedOriginalSha256 1 0 = .ok () := by
  have hkeys : ∀ relative, relative ∈ manifest.keys ↔
      ∃ hash, hashAt host disk (root ++ relative) = some hash := by
    intro relative
    simp only [Manifest.mem_keys, hentries]
  constructor
  · intro h
    refine ⟨h.directory, h.linkFree, ?_, (hentries _ _).mp h.metadata, h.bytes⟩
    intro relative
    cases hhash : hashAt host disk (root ++ relative) with
    | some hash => exact hashAt_eq_some.2 (h.files relative hash ((hentries _ _).mpr hhash))
    | none =>
      have hfree : ¬ Occupied disk' dir relative := by
        rw [h.entries, hkeys, hhash]
        simp
      rw [occupied_iff h.linkFree] at hfree
      exact Option.eq_none_iff_forall_ne_some.mpr fun hash hsome => hfree ⟨hash, hsome⟩
  · rintro ⟨hdir, hfree, hsame, hmetadata, hbytes⟩
    refine ⟨hdir, ?_, hfree, ?_, (hentries _ _).mpr hmetadata, hbytes⟩
    · intro relative
      rw [occupied_iff hfree, hkeys, hsame relative]
    · intro relative hash hentry
      rw [← hashAt_eq_some, hsame]
      exact (hentries relative hash).mp hentry

/-- From a directory through the script's output, saved without its first five lines, to
`load_manifest`: with the manifest that is read, `verify_original_client` accepts, on any disk,
exactly the directories that have the same files with the same hashes, and no link. -/
theorem inventory_round_trip {host : Host} {disk : Disk} {root : List FileName}
    {sort : List (List FileName) → List (List FileName)} {clientRoot newline : PyStr}
    (hsort : (sort (files disk root)).Perm (files disk root))
    (hroot : disk.node? root = some .directory) (hfree : (disk.below root).LinkFree)
    (hdigest : ∀ relative hash, hashAt host disk (root ++ relative) = some hash → IsSha256 hash)
    (hplain : ∀ relative, Occupied disk root relative → ∀ name ∈ relative, Plain name)
    (hsome : ∃ relative, Occupied disk root relative) (hnewline : IsNewline newline) :
    ∃ lines, inventory host disk root sort clientRoot = .ok lines ∧
      ∀ (store : Disk) path raw, PyStr.encodeUtf8 (saved newline (lines.drop 5)) = .ok raw →
        store.readBytes (Disk.stepsFrom host.cwd path) = .ok raw →
        ∃ manifest, loadManifest store host.cwd path = .ok manifest ∧
          ∀ (disk' : Disk) source plan,
            verifyOriginalClient host disk' source manifest plan = .ok () ↔
              ∃ dir, disk'.resolve host.cwd source = .ok dir ∧
                disk'.node? dir = some .directory ∧ (disk'.below dir).LinkFree ∧
                SameFiles host disk root disk' dir ∧
                hashAt host disk (root ++ plan.metadataPath) = some plan.expectedOriginalSha256 ∧
                verifyMetadataBytes host disk' (nativePath dir plan.metadataPath) plan
                  plan.expectedOriginalSha256 1 0 = .ok () := by
  have hscript : ∃ lines, inventory host disk root sort clientRoot = .ok lines ∧ lines.drop 5 =
      ((sort (files disk root)).map (fileEntry host disk root)).map entryLine :=
    inventory_eq hroot hfree hsort hdigest hplain
  obtain ⟨lines, hlines, hdrop⟩ := hscript
  refine ⟨lines, hlines, fun store path raw hraw hstored => ?_⟩
  rw [hdrop] at hraw
  have hmem : ∀ relative, relative ∈ sort (files disk root) ↔ Occupied disk root relative :=
    fun relative => hsort.mem_iff.trans (mem_files hroot hfree)
  have hread : ∀ relative hash, (relative, hash) ∈ (sort (files disk root)).map
      (fileEntry host disk root) ↔ hashAt host disk (root ++ relative) = some hash := by
    intro relative hash
    constructor
    · intro hentry
      obtain ⟨other, hother, heq⟩ := List.mem_map.mp hentry
      obtain ⟨rfl, rfl⟩ := Prod.mk.inj heq
      obtain ⟨hash, hhash⟩ := (occupied_iff hfree).mp ((hmem other).mp hother)
      rw [hhash, Option.getD_some]
    · intro hhash
      have hoccupied := (occupied_iff hfree).mpr ⟨hash, hhash⟩
      refine List.mem_map.mpr ⟨relative, (hmem relative).mpr hoccupied, ?_⟩
      rw [fileEntry, hhash, Option.getD_some]
  have hgood : ∀ entry ∈ (sort (files disk root)).map (fileEntry host disk root),
      entry.1 ≠ [] ∧ IsSha256 entry.2 := by
    rintro ⟨relative, hash⟩ hentry
    have hhash := (hread relative hash).mp hentry
    exact ⟨ne_nil_of_occupied hroot ((occupied_iff hfree).mpr ⟨hash, hhash⟩),
      hdigest relative hash hhash⟩
  have hnames : ∀ entry ∈ (sort (files disk root)).map (fileEntry host disk root),
      ∀ name ∈ entry.1, Plain name := by
    rintro ⟨relative, hash⟩ hentry
    exact hplain relative ((occupied_iff hfree).mpr ⟨hash, (hread relative hash).mp hentry⟩)
  have hkeys : (((sort (files disk root)).map (fileEntry host disk root)).map Prod.fst).Nodup := by
    have hids : (sort (files disk root)).map (Prod.fst ∘ fileEntry host disk root) =
        sort (files disk root) := List.map_id _
    rw [List.map_map, hids]
    exact hsort.nodup_iff.mpr nodup_files
  have hne : (sort (files disk root)).map (fileEntry host disk root) ≠ [] := by
    obtain ⟨relative, hoccupied⟩ := hsome
    exact List.ne_nil_of_mem (List.mem_map_of_mem ((hmem relative).mpr hoccupied))
  obtain ⟨manifest, hmanifest, hall⟩ :=
    loadManifest_saved hgood hnames hkeys hne hnewline hraw hstored
  refine ⟨manifest, hmanifest, fun disk' source plan => ?_⟩
  rw [← hall] at hread
  constructor
  · intro hverify
    obtain ⟨dir, hresolve, htree⟩ := originalTree_of_verify hverify
    exact ⟨dir, hresolve, (originalTree_iff hread).mp htree⟩
  · rintro ⟨dir, hresolve, htree⟩
    exact ((originalTree_iff hread).mpr htree).verify hresolve

/-- A client of one file. -/
def oneFile : Disk where
  entries := [([], .directory), ([Sample.elsewhere], .directory),
    ([Sample.elsewhere, Sample.m], .file [97])]
  nodup := by decide +kernel
  rooted := by decide +kernel
  root := by decide +kernel

theorem oneFile_file {relative : List FileName} {data : Bytes}
    (h : oneFile.node? ([Sample.elsewhere] ++ relative) = some (.file data)) :
    relative = [Sample.m] ∧ data = [97] := by
  have hmem := Branch.mem_entries_of_node? h
  simpa [oneFile] using hmem

theorem inventory_round_trip_oneFile :
    ∃ lines, inventory Sample.host oneFile [Sample.elsewhere] id (PyStr.lit "C:\\x") = .ok lines ∧
      ∀ (store : Disk) path raw,
        PyStr.encodeUtf8 (saved [PyStr.carriageReturn, PyStr.lineFeed] (lines.drop 5)) = .ok raw →
        store.readBytes (Disk.stepsFrom Sample.host.cwd path) = .ok raw →
        ∃ manifest, loadManifest store Sample.host.cwd path = .ok manifest ∧
          ∀ (disk' : Disk) source plan,
            verifyOriginalClient Sample.host disk' source manifest plan = .ok () ↔
              ∃ dir, disk'.resolve Sample.host.cwd source = .ok dir ∧
                disk'.node? dir = some .directory ∧ (disk'.below dir).LinkFree ∧
                SameFiles Sample.host oneFile [Sample.elsewhere] disk' dir ∧
                hashAt Sample.host oneFile ([Sample.elsewhere] ++ plan.metadataPath) =
                  some plan.expectedOriginalSha256 ∧
                verifyMetadataBytes Sample.host disk' (nativePath dir plan.metadataPath) plan
                  plan.expectedOriginalSha256 1 0 = .ok () := by
  have hdigest : ∀ relative hash, hashAt Sample.host oneFile ([Sample.elsewhere] ++ relative) =
      some hash → IsSha256 hash := by
    intro relative hash hhash
    obtain ⟨data, hnode, rfl⟩ := hashAt_eq_some.mp hhash
    obtain ⟨-, rfl⟩ := oneFile_file hnode
    exact Sample.plan.original
  have hplain : ∀ relative, Occupied oneFile [Sample.elsewhere] relative →
      ∀ name ∈ relative, Plain name := by
    intro relative hoccupied
    have hfile : ∃ hash, hashAt Sample.host oneFile ([Sample.elsewhere] ++ relative) = some hash :=
      (occupied_iff (by decide +kernel)).mp hoccupied
    obtain ⟨hash, hhash⟩ := hfile
    obtain ⟨data, hnode, -⟩ := hashAt_eq_some.mp hhash
    obtain ⟨rfl, -⟩ := oneFile_file hnode
    intro name hname
    obtain rfl := List.mem_singleton.mp hname
    have hbreaks : Sample.m.text.all (!PyStr.isLineBreak ·) = true := by decide
    exact ⟨by decide, by simpa using hbreaks⟩
  exact inventory_round_trip (List.Perm.refl _) (by decide +kernel) (by decide +kernel) hdigest
    hplain ⟨[Sample.m], .file [97], by decide +kernel, by simp⟩ (.inr rfl)

end Inventory
end Army3
