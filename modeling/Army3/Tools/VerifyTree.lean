import Army3.Tools.RedirectClient

/-! What the two verifications accept. -/

namespace Army3

open Files Raising

/-- The failure list of the loop is empty only if every turn finds nothing. -/
theorem collectFailures_eq_nil {check : List FileName → PyStr → Option PyStr}
    {entries : List (List FileName × PyStr)} {failures : List PyStr} :
    collectFailures check entries failures = [] ↔
      failures = [] ∧ ∀ entry ∈ entries, check entry.1 entry.2 = none := by
  induction entries generalizing failures with
  | nil => simp [collectFailures]
  | cons entry entries ih =>
    obtain ⟨relative, hash⟩ := entry
    unfold collectFailures
    simp only
    by_cases hten : (failures ++ (check relative hash).toList).length ≥ 10
    · rw [if_pos hten]
      constructor
      · intro hnil
        rw [hnil] at hten
        simp at hten
      · intro hall
        obtain ⟨rfl, hnone⟩ := hall
        have hfirst := hnone (relative, hash) (List.mem_cons_self ..)
        simp [hfirst] at hten
    · rw [if_neg hten, ih]
      simp only [List.append_eq_nil_iff, Option.toList_eq_nil_iff, List.forall_mem_cons]
      tauto

namespace Disk

variable {disk : Disk} {names : List FileName}

theorem isDir_iff (h : disk.Direct names) :
    disk.isDir names ↔ disk.node? names = some .directory := by
  unfold isDir
  rw [stat_of_direct h]
  cases disk.node? names with
  | none => simp
  | some node => cases node <;> simp

theorem isSymlink_iff (h : disk.Direct names.dropLast) :
    disk.isSymlink names ↔ ∃ node, disk.node? names = some node ∧ node.IsLink := by
  unfold isSymlink
  rw [lstat_of_direct h]
  cases disk.node? names with
  | none => simp
  | some node => cases node <;> simp [Node.IsLink]

theorem isFile_iff : disk.isFile names ↔ ∃ data, disk.stat (down names) = some (.file data) := by
  unfold isFile
  cases disk.stat (down names) with
  | none => simp
  | some node => cases node <;> simp

theorem readBytes_eq_ok {path : List (Step FileName)} {data : Bytes} :
    disk.readBytes path = .ok data ↔ disk.stat path = some (.file data) := by
  unfold readBytes
  cases disk.stat path with
  | none => simp
  | some node => cases node <;> simp

/-- An existing file or link, seen from its directory. -/
theorem isFile_or_isSymlink_iff {node : Node FileName Bytes} (h : disk.node? names = some node) :
    (disk.isFile names || disk.isSymlink names) ↔ node ≠ .directory := by
  have hparent := Tree.direct_dropLast (t := disk) (p := names) (by rw [h]; rfl)
  rw [Bool.or_eq_true, isSymlink_iff hparent, isFile_iff, h]
  cases node with
  | file data =>
    rw [stat_of_direct (Tree.direct_of_node? h id), h]
    simp
  | directory =>
    rw [stat_of_direct (Tree.direct_of_node? h id), h]
    simp [Node.IsLink]
  | link absolute target => simp [Node.IsLink]

theorem mem_rglob {root path : List FileName} :
    path ∈ disk.rglob root ↔ ∃ relative, relative ≠ [] ∧ path = root ++ relative ∧
      (disk.node? path).isSome := by
  unfold rglob
  constructor
  · intro h
    obtain ⟨relative, hrelative, rfl⟩ := List.mem_map.mp h
    obtain ⟨hkey, hne⟩ := List.mem_filter.mp hrelative
    obtain ⟨entry, hentry, rfl⟩ := List.mem_map.mp hkey
    have hsome := Branch.node?_isSome_of_mem hentry
    rw [Branch.node?_below] at hsome
    exact ⟨entry.1, by simpa using hne, rfl, hsome⟩
  · intro hall
    obtain ⟨relative, hne, rfl, hsome⟩ := hall
    obtain ⟨node, hnode⟩ := Option.isSome_iff_exists.mp hsome
    rw [← Branch.node?_below] at hnode
    have hkey : relative ∈ (disk.below root).entries.map Prod.fst :=
      List.mem_map.mpr ⟨_, Branch.mem_entries_of_node? hnode, rfl⟩
    exact List.mem_map.mpr ⟨relative, List.mem_filter.mpr ⟨hkey, by simpa using hne⟩, rfl⟩

end Disk

variable {host : Host} {disk : Disk} {dir relative : List FileName} {manifest : Manifest}
  {plan : PatchPlan}

/-- A path below `dir` where a file or a link stands. -/
def Occupied (disk : Disk) (dir relative : List FileName) : Prop :=
  ∃ node, disk.node? (dir ++ relative) = some node ∧ node ≠ .directory

theorem findUnexpectedFiles_eq_nil {extra : List (List FileName)}
    (hdir : disk.node? dir = some .directory) :
    findUnexpectedFiles disk dir manifest extra = [] ↔
      ∀ relative, Occupied disk dir relative → relative ∈ manifest.keys ++ extra := by
  have hsorted : ∀ (paths : List (List FileName)) (le : List FileName → List FileName → Prop)
      [DecidableRel le], paths.insertionSort le = [] ↔ paths = [] := by
    intro paths le _
    rw [← List.length_eq_zero_iff, List.length_insertionSort, List.length_eq_zero_iff]
  unfold findUnexpectedFiles
  rw [hsorted, List.filter_eq_nil_iff]
  constructor
  · intro hnone relative hoccupied
    obtain ⟨node, hnode, hdirectory⟩ := hoccupied
    have hne : relative ≠ [] := by
      intro hnil
      rw [hnil, List.append_nil, hdir] at hnode
      exact hdirectory (Option.some.inj hnode).symm
    by_contra hout
    apply hnone relative
    · rw [List.mem_dedup]
      refine List.mem_map.mpr ⟨dir ++ relative, List.mem_filter.mpr ⟨?_, ?_⟩, List.drop_left⟩
      · exact Disk.mem_rglob.mpr ⟨relative, hne, rfl, by rw [hnode]; rfl⟩
      · exact (Disk.isFile_or_isSymlink_iff hnode).mpr hdirectory
    · simpa using hout
  · intro hall relative hactual hout
    rw [List.mem_dedup] at hactual
    obtain ⟨path, hpath, rfl⟩ := List.mem_map.mp hactual
    obtain ⟨hglob, hkind⟩ := List.mem_filter.mp hpath
    obtain ⟨low, -, rfl, hsome⟩ := Disk.mem_rglob.mp hglob
    obtain ⟨node, hnode⟩ := Option.isSome_iff_exists.mp hsome
    rw [List.drop_left] at hout
    have hoccupied : Occupied disk dir low :=
      ⟨node, hnode, (Disk.isFile_or_isSymlink_iff hnode).mp hkind⟩
    simp [hall low hoccupied] at hout

/-- A turn of the loop over the manifest passes on a path that is no link and leads to a file with
the expected hash. -/
theorem checkFile_eq_none {expectedHash : PyStr} :
    checkFile host disk dir relative expectedHash = none ↔
      ¬ disk.isSymlink (dir ++ relative) ∧
      ∃ data, disk.stat (down (dir ++ relative)) = some (.file data) ∧
        host.sha256 data = expectedHash := by
  unfold checkFile nativePath
  simp only
  by_cases hlink : disk.isSymlink (dir ++ relative)
  · simp [hlink]
  · by_cases hfile : disk.isFile (dir ++ relative)
    · obtain ⟨data, hdata⟩ := Disk.isFile_iff.mp hfile
      have hread := Disk.readBytes_eq_ok.mpr hdata
      have hhash : sha256File host disk (down (dir ++ relative)) = .ok (host.sha256 data) := by
        unfold sha256File
        rw [hread]
        rfl
      simp [hlink, hfile, hhash, hdata]
    · have hnone : ∀ data, disk.stat (down (dir ++ relative)) ≠ some (.file data) :=
        fun data hdata => hfile (Disk.isFile_iff.mpr ⟨data, hdata⟩)
      simp [hlink, hfile, hnone]

/-- A regular file with this hash stands at the path itself. -/
def HasFile (host : Host) (disk : Disk) (path : List FileName) (hash : PyStr) : Prop :=
  ∃ data, disk.node? path = some (.file data) ∧ host.sha256 data = hash

/-- Where no link is on the path, the loop looks at the file that stands there. -/
theorem checkFile_of_direct {expectedHash : PyStr} (h : disk.Direct (dir ++ relative)) :
    checkFile host disk dir relative expectedHash = none ↔
      HasFile host disk (dir ++ relative) expectedHash := by
  have hlink : ¬ disk.isSymlink (dir ++ relative) := by
    rw [Disk.isSymlink_iff (h.upwards (List.dropLast_prefix _))]
    intro hall
    obtain ⟨node, hnode, hislink⟩ := hall
    exact h _ node (List.prefix_refl _) hnode hislink
  rw [checkFile_eq_none, Disk.stat_of_direct h]
  exact and_iff_right hlink

/-- What a link below the directory would be: an entry that the scan lists and the loop refuses. -/
theorem linkFree_of_checked
    (hlisted : ∀ relative, Occupied disk dir relative → relative ∈ manifest.keys)
    (hchecked : ∀ relative ∈ manifest.keys, ¬ disk.isSymlink (dir ++ relative)) :
    (disk.below dir).LinkFree := by
  intro relative node hnode hlink
  rw [Branch.node?_below] at hnode
  have hoccupied : Occupied disk dir relative := ⟨node, hnode, hlink.ne_directory⟩
  have hparent := Tree.direct_dropLast (t := disk) (p := dir ++ relative) (by rw [hnode]; rfl)
  apply hchecked relative (hlisted relative hoccupied)
  exact (Disk.isSymlink_iff hparent).mpr ⟨node, hnode, hlink⟩

/-- What `verify_original_client` accepts: the manifest's files, and nothing else that is not a
directory. -/
structure OriginalTree (host : Host) (disk : Disk) (dir : List FileName) (manifest : Manifest)
    (plan : PatchPlan) : Prop where
  directory : disk.node? dir = some .directory
  entries : ∀ relative, Occupied disk dir relative ↔ relative ∈ manifest.keys
  linkFree : (disk.below dir).LinkFree
  files : ∀ relative hash, (relative, hash) ∈ manifest.entries →
    HasFile host disk (dir ++ relative) hash
  metadata : (plan.metadataPath, plan.expectedOriginalSha256) ∈ manifest.entries
  bytes : verifyMetadataBytes host disk (nativePath dir plan.metadataPath) plan
    plan.expectedOriginalSha256 1 0 = .ok ()

/-- The checks of `verify_original_client` one by one. -/
theorem verifyOriginalClient_eq_ok {source : PurePosixPath} :
    verifyOriginalClient host disk source manifest plan = .ok () ↔
      ∃ dir, disk.resolve host.cwd source = .ok dir ∧ disk.isDir dir ∧
        plan.metadataPath ∈ manifest.keys ∧
        manifest.hash? plan.metadataPath = some plan.expectedOriginalSha256 ∧
        (∀ entry ∈ manifest.entries, checkFile host disk dir entry.1 entry.2 = none) ∧
        findUnexpectedFiles disk dir manifest [] = [] ∧
        verifyMetadataBytes host disk (nativePath dir plan.metadataPath) plan
          plan.expectedOriginalSha256 1 0 = .ok () := by
  simp only [verifyOriginalClient, except_bind_eq_ok, refuseIf_eq_ok, exists_const,
    collectFailures_eq_nil, not_not, ne_eq, true_and]

theorem originalTree_of_verify {source : PurePosixPath}
    (h : verifyOriginalClient host disk source manifest plan = .ok ()) :
    ∃ dir, disk.resolve host.cwd source = .ok dir ∧
      OriginalTree host disk dir manifest plan := by
  obtain ⟨dir, hresolve, hisdir, -, hhash, hchecks, hunexpected, hbytes⟩ :=
    verifyOriginalClient_eq_ok.mp h
  have hdirect := Disk.direct_of_resolve hresolve
  have hdir := (Disk.isDir_iff hdirect).mp hisdir
  have hlisted : ∀ relative, Occupied disk dir relative → relative ∈ manifest.keys := by
    intro relative hoccupied
    have hmem := (findUnexpectedFiles_eq_nil hdir).mp hunexpected relative hoccupied
    rwa [List.append_nil] at hmem
  have hlinkFree : (disk.below dir).LinkFree := by
    apply linkFree_of_checked hlisted
    intro relative hkey
    obtain ⟨hash, hentry⟩ := Manifest.mem_keys.mp hkey
    exact (checkFile_eq_none.mp (hchecks _ hentry)).1
  have hfiles : ∀ relative hash, (relative, hash) ∈ manifest.entries →
      HasFile host disk (dir ++ relative) hash := by
    intro relative hash hentry
    exact (checkFile_of_direct (hdirect.append hlinkFree)).mp (hchecks _ hentry)
  refine ⟨dir, hresolve, hdir, ?_, hlinkFree, hfiles, Manifest.hash?_eq_some.mp hhash, hbytes⟩
  intro relative
  refine ⟨hlisted relative, fun hkey => ?_⟩
  obtain ⟨hash, hentry⟩ := Manifest.mem_keys.mp hkey
  obtain ⟨data, hdata, -⟩ := hfiles relative hash hentry
  exact ⟨.file data, hdata, by simp⟩

theorem OriginalTree.verify {source : PurePosixPath} (h : OriginalTree host disk dir manifest plan)
    (hresolve : disk.resolve host.cwd source = .ok dir) :
    verifyOriginalClient host disk source manifest plan = .ok () := by
  have hdirect := Disk.direct_of_resolve hresolve
  apply verifyOriginalClient_eq_ok.mpr
  refine ⟨dir, hresolve, (Disk.isDir_iff hdirect).mpr h.directory, ?_,
    Manifest.hash?_eq_some.mpr h.metadata, ?_, ?_, h.bytes⟩
  · exact Manifest.mem_keys.mpr ⟨_, h.metadata⟩
  · intro entry hentry
    exact (checkFile_of_direct (hdirect.append h.linkFree)).mpr (h.files _ _ hentry)
  · rw [findUnexpectedFiles_eq_nil h.directory]
    intro relative hoccupied
    rw [List.append_nil]
    exact (h.entries relative).mp hoccupied

/-- `verify_original_client` accepts exactly the manifest's tree. That a file reached through a
linked directory is refused takes both scans: the link itself would be an unlisted entry, or a
listed one and then a link. -/
theorem verifyOriginalClient_accepts_exactly (host : Host) (disk : Disk) (source : PurePosixPath)
    (manifest : Manifest) (plan : PatchPlan) :
    verifyOriginalClient host disk source manifest plan = .ok () ↔
      ∃ dir, disk.resolve host.cwd source = .ok dir ∧ disk.node? dir = some .directory ∧
        {relative | ∃ node, disk.node? (dir ++ relative) = some node ∧ node ≠ .directory} =
          {relative | relative ∈ manifest.keys} ∧
        (∀ relative node, disk.node? (dir ++ relative) = some node → ¬ node.IsLink) ∧
        (∀ relative hash, (relative, hash) ∈ manifest.entries →
          ∃ data, disk.node? (dir ++ relative) = some (.file data) ∧ host.sha256 data = hash) ∧
        (plan.metadataPath, plan.expectedOriginalSha256) ∈ manifest.entries ∧
        verifyMetadataBytes host disk (nativePath dir plan.metadataPath) plan
          plan.expectedOriginalSha256 1 0 = .ok () := by
  constructor
  · intro h
    obtain ⟨dir, hresolve, htree⟩ := originalTree_of_verify h
    refine ⟨dir, hresolve, htree.directory, Set.ext htree.entries, ?_, htree.files,
      htree.metadata, htree.bytes⟩
    intro relative node hnode
    exact htree.linkFree relative node (by rw [Branch.node?_below]; exact hnode)
  · intro hall
    obtain ⟨dir, hresolve, hdir, hentries, hlinks, hfiles, hmetadata, hbytes⟩ := hall
    have htree : OriginalTree host disk dir manifest plan := by
      refine ⟨hdir, fun relative => Set.ext_iff.mp hentries relative, ?_, hfiles, hmetadata, hbytes⟩
      intro relative node hnode
      rw [Branch.node?_below] at hnode
      exact hlinks relative node hnode
    exact htree.verify hresolve

end Army3
