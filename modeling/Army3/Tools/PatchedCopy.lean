import Army3.Tools.VerifyTree

/-! What `verify_patched_copy` accepts, and what it promises about an accepted copy. -/

namespace Army3

open Files Raising

section

variable {host : Host} {disk : Disk} {dir relative : List FileName} {manifest : Manifest}
  {plan : PatchPlan}

theorem mem_parents {names root : List FileName} :
    root ∈ parents names ↔ root <+: names ∧ root ≠ names := by
  simp [parents]

theorem ensureOutputIsSafe_eq_ok {output allowedOutputRoot : PurePosixPath}
    {root : List FileName} :
    ensureOutputIsSafe host disk output allowedOutputRoot = .ok (dir, root) ↔
      disk.resolve host.cwd output = .ok dir ∧ disk.resolve host.cwd allowedOutputRoot = .ok root ∧
        root <+: dir ∧ root ≠ dir := by
  simp only [ensureOutputIsSafe, except_bind_eq_ok, refuseIf_eq_ok, exists_const, mem_parents,
    Except.ok.injEq, Prod.mk.injEq]
  constructor
  · intro hall
    obtain ⟨_, houtput, _, hroot, hsafe, rfl, rfl⟩ := hall
    tauto
  · intro hall
    obtain ⟨houtput, hroot, hpre, hne⟩ := hall
    exact ⟨dir, houtput, root, hroot, by tauto, rfl, rfl⟩

theorem readMarker_eq_ok {path : List FileName} {marker : Option MarkerPayload} :
    readMarker host disk path = .ok marker ↔
      ∃ text, disk.readText (down path) = .ok text ∧ host.loads text = .ok marker := by
  rw [← except_bind_eq_ok]
  unfold readMarker
  cases disk.readText (down path) >>= host.loads with
  | ok marker' => rfl
  | error e => cases e <;> simp

theorem stat_of_readText {path : List FileName} {text : PyStr}
    (h : disk.readText (down path) = .ok text) :
    ∃ data, disk.stat (down path) = some (.file data) := by
  unfold Disk.readText at h
  obtain ⟨data, hdata, -⟩ := except_bind_eq_ok.mp h
  exact ⟨data, Disk.readBytes_eq_ok.mp hdata⟩

/-- No path leads further than a file. -/
theorem stat_below_file {path low : List FileName} {data : Bytes}
    (h : disk.stat (down path) = some (.file data)) (hlow : low ≠ []) :
    disk.stat (down (path ++ low)) = none := by
  obtain ⟨place, hwalk, hnode⟩ := Option.bind_eq_some_iff.mp h
  obtain ⟨left, hleft⟩ := Tree.walk_append hwalk
  obtain ⟨name, rest, rfl⟩ := List.exists_cons_of_ne_nil hlow
  have hsplit : down (path ++ name :: rest) = down path ++ .down name :: down rest := by
    simp [down]
  unfold Disk.stat
  rw [hsplit, hleft, Tree.walk_below_file hnode]
  rfl

theorem occupied_of_stat (hdir : disk.Direct dir) {name : FileName} {data : Bytes}
    (h : disk.stat (down (dir ++ [name])) = some (.file data)) : Occupied disk dir [name] := by
  by_cases hplain : ∀ node, disk.node? (dir ++ [name]) = some node → ¬ node.IsLink
  · rw [Disk.stat_of_direct (hdir.concat hplain)] at h
    exact ⟨_, h, by simp⟩
  · push Not at hplain
    obtain ⟨node, hnode, hlink⟩ := hplain
    exact ⟨node, hnode, hlink.ne_directory⟩

/-- The hash that the loop of `verify_patched_copy` expects. -/
def expectedHash (plan : PatchPlan) (relative : List FileName) (originalHash : PyStr) : PyStr :=
  if relative = plan.metadataPath then plan.expectedPatchedSha256 else originalHash

/-- What `verify_patched_copy` accepts under a directory. The marker is read through whatever
stands at its place. -/
structure PatchedTree (host : Host) (disk : Disk) (dir : List FileName)
    (manifestPath : PurePosixPath) (manifest : Manifest) (plan : PatchPlan) : Prop where
  directory : disk.node? dir = some .directory
  marker : ∃ payload text, markerPayload host disk manifestPath plan = .ok payload ∧
    disk.readText (down (dir ++ [markerName])) = .ok text ∧ host.loads text = .ok (some payload)
  files : ∀ relative hash, (relative, hash) ∈ manifest.entries →
    HasFile host disk (dir ++ relative) (expectedHash plan relative hash)
  entries : ∀ relative, Occupied disk dir relative ↔
    relative ∈ manifest.keys ∨ relative = [markerName]
  bytes : verifyMetadataBytes host disk (nativePath dir plan.metadataPath) plan
    plan.expectedPatchedSha256 0 1 = .ok ()

/-- The checks of `verify_patched_copy` one by one. -/
theorem verifyPatchedCopy_eq_ok {output manifestPath allowedOutputRoot : PurePosixPath} :
    verifyPatchedCopy host disk output manifestPath plan allowedOutputRoot = .ok () ↔
      ∃ dir root manifest payload,
        ensureOutputIsSafe host disk output allowedOutputRoot = .ok (dir, root) ∧
        disk.isDir dir ∧ loadManifest disk host.cwd manifestPath = .ok manifest ∧
        readMarker host disk (dir ++ [markerName]) = .ok (some payload) ∧
        markerPayload host disk manifestPath plan = .ok payload ∧
        (∀ entry ∈ manifest.entries,
          checkFile host disk dir entry.1 (expectedHash plan entry.1 entry.2) = none) ∧
        findUnexpectedFiles disk dir manifest [[markerName]] = [] ∧
        verifyMetadataBytes host disk (nativePath dir plan.metadataPath) plan
          plan.expectedPatchedSha256 0 1 = .ok () := by
  simp only [verifyPatchedCopy, except_bind_eq_ok, refuseIf_eq_ok, exists_const,
    collectFailures_eq_nil, not_not, ne_eq, true_and, Prod.exists]
  constructor
  · intro hall
    obtain ⟨dir, root, hsafe, hdir, manifest, hmanifest, marker, hmarker, payload, hpayload, rfl,
      hrest⟩ := hall
    exact ⟨dir, root, manifest, payload, hsafe, hdir, hmanifest, hmarker, hpayload, hrest⟩
  · intro hall
    obtain ⟨dir, root, manifest, payload, hsafe, hdir, hmanifest, hmarker, hpayload, hrest⟩ := hall
    exact ⟨dir, root, hsafe, hdir, manifest, hmanifest, some payload, hmarker, payload, hpayload,
      rfl, hrest⟩

/-- A listed path of an accepted copy has no link on it: a link would be listed itself or be the
marker, and the marker leads to a file, so that nothing lies below it. -/
theorem direct_of_checked (hdirect : disk.Direct dir) {data : Bytes}
    (hmarker : disk.stat (down (dir ++ [markerName])) = some (.file data))
    (hlisted : ∀ relative, Occupied disk dir relative →
      relative ∈ manifest.keys ∨ relative = [markerName])
    (hchecked : ∀ relative ∈ manifest.keys, ¬ disk.isSymlink (dir ++ relative) ∧
      (disk.stat (down (dir ++ relative))).isSome)
    (hkey : relative ∈ manifest.keys) : disk.Direct (dir ++ relative) := by
  intro q node hq hnode hlink
  rcases List.prefix_or_prefix_of_prefix hq (List.prefix_append dir relative) with
    hhigh | ⟨low, hlow⟩
  · exact hdirect q node hhigh hnode hlink
  · subst hlow
    have hoccupied : Occupied disk dir low := ⟨node, hnode, hlink.ne_directory⟩
    have hunlisted : low ∉ manifest.keys := by
      intro hlow
      have hparent := Tree.direct_dropLast (t := disk) (p := dir ++ low) (by rw [hnode]; rfl)
      exact (hchecked low hlow).1 ((Disk.isSymlink_iff hparent).mpr ⟨node, hnode, hlink⟩)
    have hplace : low = [markerName] := (hlisted low hoccupied).resolve_left hunlisted
    obtain ⟨rest, hrest⟩ := (List.prefix_append_right_inj dir).mp hq
    by_cases hnil : rest = []
    · rw [hnil, List.append_nil] at hrest
      exact hunlisted (hrest ▸ hkey)
    · have hnone := stat_below_file hmarker hnil
      rw [← hplace, List.append_assoc, hrest] at hnone
      have hsome := (hchecked relative hkey).2
      rw [hnone] at hsome
      cases hsome

theorem patchedTree_of_verify {output manifestPath allowedOutputRoot : PurePosixPath}
    (h : verifyPatchedCopy host disk output manifestPath plan allowedOutputRoot = .ok ()) :
    ∃ dir root manifest,
      ensureOutputIsSafe host disk output allowedOutputRoot = .ok (dir, root) ∧
      loadManifest disk host.cwd manifestPath = .ok manifest ∧
      PatchedTree host disk dir manifestPath manifest plan := by
  obtain ⟨dir, root, manifest, payload, hsafe, hisdir, hmanifest, hread, hpayload, hchecks,
    hunexpected, hbytes⟩ := verifyPatchedCopy_eq_ok.mp h
  have hdirect := Disk.direct_of_resolve (ensureOutputIsSafe_eq_ok.mp hsafe).1
  have hdir := (Disk.isDir_iff hdirect).mp hisdir
  obtain ⟨text, htext, hloads⟩ := readMarker_eq_ok.mp hread
  obtain ⟨data, hmarker⟩ := stat_of_readText htext
  have hlisted : ∀ relative, Occupied disk dir relative →
      relative ∈ manifest.keys ∨ relative = [markerName] := by
    intro relative hoccupied
    have hmem := (findUnexpectedFiles_eq_nil hdir).mp hunexpected relative hoccupied
    simpa using hmem
  have hchecked : ∀ relative ∈ manifest.keys, ¬ disk.isSymlink (dir ++ relative) ∧
      (disk.stat (down (dir ++ relative))).isSome := by
    intro relative hkey
    obtain ⟨hash, hentry⟩ := Manifest.mem_keys.mp hkey
    obtain ⟨hlink, found, hfound, -⟩ := checkFile_eq_none.mp (hchecks _ hentry)
    exact ⟨hlink, by rw [hfound]; rfl⟩
  have hfiles : ∀ relative hash, (relative, hash) ∈ manifest.entries →
      HasFile host disk (dir ++ relative) (expectedHash plan relative hash) := by
    intro relative hash hentry
    have hkey := Manifest.mem_keys.mpr ⟨hash, hentry⟩
    have hplain := direct_of_checked hdirect hmarker hlisted hchecked hkey
    exact (checkFile_of_direct hplain).mp (hchecks _ hentry)
  refine ⟨dir, root, manifest, hsafe, hmanifest, hdir, ⟨payload, text, hpayload, htext, hloads⟩,
    hfiles, ?_, hbytes⟩
  intro relative
  refine ⟨hlisted relative, ?_⟩
  intro hall
  rcases hall with hkey | hplace
  · obtain ⟨hash, hentry⟩ := Manifest.mem_keys.mp hkey
    obtain ⟨found, hfound, -⟩ := hfiles relative hash hentry
    exact ⟨.file found, hfound, by simp⟩
  · rw [hplace]
    exact occupied_of_stat hdirect hmarker

theorem PatchedTree.verify {output manifestPath allowedOutputRoot : PurePosixPath}
    {root : List FileName} (h : PatchedTree host disk dir manifestPath manifest plan)
    (hsafe : ensureOutputIsSafe host disk output allowedOutputRoot = .ok (dir, root))
    (hmanifest : loadManifest disk host.cwd manifestPath = .ok manifest) :
    verifyPatchedCopy host disk output manifestPath plan allowedOutputRoot = .ok () := by
  have hdirect := Disk.direct_of_resolve (ensureOutputIsSafe_eq_ok.mp hsafe).1
  obtain ⟨payload, text, hpayload, htext, hloads⟩ := h.marker
  apply verifyPatchedCopy_eq_ok.mpr
  refine ⟨dir, root, manifest, payload, hsafe, (Disk.isDir_iff hdirect).mpr h.directory, hmanifest,
    readMarker_eq_ok.mpr ⟨text, htext, hloads⟩, hpayload, ?_, ?_, h.bytes⟩
  · intro entry hentry
    obtain ⟨data, hdata, hhash⟩ := h.files entry.1 entry.2 hentry
    exact (checkFile_of_direct (Tree.direct_of_node? hdata id)).mpr ⟨data, hdata, hhash⟩
  · rw [findUnexpectedFiles_eq_nil h.directory]
    intro relative hoccupied
    have hlisted := (h.entries relative).mp hoccupied
    simpa using hlisted

/-- A copy of which no part lives elsewhere: its entries are the manifest's files and the marker,
all of them regular, with the hashes of the manifest and the patched metadata. -/
structure SelfContained (host : Host) (disk : Disk) (dir : List FileName) (manifest : Manifest)
    (plan : PatchPlan) : Prop where
  regular : ∀ relative node, disk.node? (dir ++ relative) = some node → node ≠ .directory →
    ∃ data, node = .file data
  entries : ∀ relative, Occupied disk dir relative ↔
    relative ∈ manifest.keys ∨ relative = [markerName]
  files : ∀ relative hash, (relative, hash) ∈ manifest.entries → relative ≠ plan.metadataPath →
    HasFile host disk (dir ++ relative) hash
  metadata : HasFile host disk (dir ++ plan.metadataPath) plan.expectedPatchedSha256

/-- A link stands at the marker's place. -/
def MarkerLinked (disk : Disk) (dir : List FileName) : Prop :=
  ∃ node, disk.node? (dir ++ [markerName]) = some node ∧ node.IsLink

theorem stat_of_verifyMetadataBytes {path : List FileName} {hash : PyStr} {sources targets : Nat}
    (h : verifyMetadataBytes host disk path plan hash sources targets = .ok ()) :
    ∃ data, disk.stat (down path) = some (.file data) ∧ host.sha256 data = hash := by
  simp only [verifyMetadataBytes, except_bind_eq_ok, refuseIf_eq_ok, exists_const] at h
  obtain ⟨data, hread, hhash, -⟩ := h
  exact ⟨data, Disk.readBytes_eq_ok.mp hread, not_not.mp hhash⟩

/-- The marker is the one entry that may be a link in an accepted copy. -/
theorem PatchedTree.regular {manifestPath : PurePosixPath} {node : Node FileName Bytes}
    (h : PatchedTree host disk dir manifestPath manifest plan) (hlinked : ¬ MarkerLinked disk dir)
    (hnode : disk.node? (dir ++ relative) = some node) (hdirectory : node ≠ .directory) :
    ∃ data, node = .file data := by
  rcases (h.entries relative).mp ⟨node, hnode, hdirectory⟩ with hkey | hplace
  · obtain ⟨hash, hentry⟩ := Manifest.mem_keys.mp hkey
    obtain ⟨data, hdata, -⟩ := h.files relative hash hentry
    rw [hdata] at hnode
    exact ⟨data, (Option.some.inj hnode).symm⟩
  · rw [hplace] at hnode
    cases node with
    | file data => exact ⟨data, rfl⟩
    | directory => exact absurd rfl hdirectory
    | link absolute target => exact absurd ⟨_, hnode, trivial⟩ hlinked

theorem PatchedTree.selfContained_iff {manifestPath : PurePosixPath}
    (h : PatchedTree host disk dir manifestPath manifest plan) :
    SelfContained host disk dir manifest plan ↔ ¬ MarkerLinked disk dir := by
  constructor
  · intro hself hall
    obtain ⟨node, hnode, hlink⟩ := hall
    obtain ⟨data, rfl⟩ := hself.regular [markerName] node hnode hlink.ne_directory
    exact hlink
  · intro hlinked
    refine ⟨fun relative node => h.regular hlinked, h.entries, ?_, ?_⟩
    · intro relative hash hentry hne
      have hfile := h.files relative hash hentry
      unfold expectedHash at hfile
      rwa [if_neg hne] at hfile
    · obtain ⟨data, hdata, hhash⟩ := stat_of_verifyMetadataBytes h.bytes
      have hplain : disk.Direct dir := Tree.direct_of_node? h.directory id
      have hfree : (disk.below dir).LinkFree := by
        intro relative node hnode hlink
        rw [Branch.node?_below] at hnode
        obtain ⟨other, rfl⟩ := h.regular hlinked hnode hlink.ne_directory
        exact hlink
      unfold nativePath at hdata
      rw [Disk.stat_of_direct (hplain.append hfree)] at hdata
      exact ⟨data, hdata, hhash⟩

/-- An accepted copy is self-contained exactly where the marker's place, exempted from the scan for
unexpected files and read before any check, does not hold a link that leads to a valid marker in a
copy that is otherwise right. -/
theorem verifyPatchedCopy_selfContained_iff (host : Host) (disk : Disk)
    (output manifestPath : PurePosixPath) (plan : PatchPlan) (allowedOutputRoot : PurePosixPath) :
    (verifyPatchedCopy host disk output manifestPath plan allowedOutputRoot = .ok () →
      ∃ dir manifest, disk.resolve host.cwd output = .ok dir ∧
        loadManifest disk host.cwd manifestPath = .ok manifest ∧
        SelfContained host disk dir manifest plan) ↔
    ¬ ∃ dir root manifest, disk.resolve host.cwd output = .ok dir ∧
        disk.resolve host.cwd allowedOutputRoot = .ok root ∧ root <+: dir ∧ root ≠ dir ∧
        loadManifest disk host.cwd manifestPath = .ok manifest ∧
        PatchedTree host disk dir manifestPath manifest plan ∧ MarkerLinked disk dir := by
  constructor
  · intro hclaim hall
    obtain ⟨dir, root, manifest, houtput, hroot, hpre, hne, hmanifest, htree, hlinked⟩ := hall
    have hsafe := ensureOutputIsSafe_eq_ok.mpr ⟨houtput, hroot, hpre, hne⟩
    obtain ⟨dir', manifest', houtput', hmanifest', hself⟩ := hclaim (htree.verify hsafe hmanifest)
    obtain rfl := Except.ok.inj (houtput.symm.trans houtput')
    obtain rfl := Except.ok.inj (hmanifest.symm.trans hmanifest')
    exact htree.selfContained_iff.mp hself hlinked
  · intro hcondition hverify
    obtain ⟨dir, root, manifest, hsafe, hmanifest, htree⟩ := patchedTree_of_verify hverify
    obtain ⟨houtput, hroot, hpre, hne⟩ := ensureOutputIsSafe_eq_ok.mp hsafe
    refine ⟨dir, manifest, houtput, hmanifest, htree.selfContained_iff.mpr ?_⟩
    intro hlinked
    exact hcondition
      ⟨dir, root, manifest, houtput, hroot, hpre, hne, hmanifest, htree, hlinked⟩

end

namespace Sample

/-- `sha256(b"a")` -/
def originalSha256 : PyStr := PyStr.ofChars
  (Nat.toDigits 16 0xca978112ca1bbdcafac231b39a23dc4da786eff8147c4e72b9807785afee48bb)

/-- `sha256(b"b")` -/
def patchedSha256 : PyStr := PyStr.ofChars
  (Nat.toDigits 16 0x3e23e8160039594a33894f6564e1b1348bbd7a0088d42c4acb73eeaed59c009d)

/-- `sha256` of the manifest. -/
def manifestSha256 : PyStr := PyStr.ofChars
  (Nat.toDigits 16 0x6d60d48970e744fcba0c0af2ee5b76279cb64aa42357026828307bbcea49651b)

def named (c : Char) (h : PyStr.ofChars [c] ≠ [] ∧ slash ∉ PyStr.ofChars [c] ∧
    PyStr.ofChars [c] ≠ [dot] ∧ PyStr.ofChars [c] ≠ [dot, dot]) : FileName :=
  ⟨PyStr.ofChars [c], h⟩

def m : FileName := named 'm' (by decide)
def hashes : FileName := named 'h' (by decide)
def build : FileName := named 'b' (by decide)
def output : FileName := named 'o' (by decide)
def elsewhere : FileName := named 'x' (by decide)

/-- One byte of metadata, `a` before the patch and `b` after it. -/
def plan : PatchPlan where
  metadataPath := [m]
  sourceEndpoint := [97]
  targetEndpoint := [98]
  expectedOffset := 0
  expectedOriginalSha256 := originalSha256
  expectedPatchedSha256 := patchedSha256
  equalLength := rfl
  nonempty := by decide
  original := by decide +kernel
  patched := by decide +kernel

/-- The bytes of a file with this text. -/
def utf8 (text : PyStr) : Bytes :=
  match PyStr.encodeUtf8 text with
  | .ok raw => raw
  | .error _ => []

theorem decodeUtf8_utf8 {text : PyStr} (h : (PyStr.encodeUtf8 text).isOk) :
    PyStr.decodeUtf8 (utf8 text) = some text := by
  unfold utf8
  cases hencode : PyStr.encodeUtf8 text with
  | error e =>
    rw [hencode] at h
    cases h
  | ok raw => exact PyStr.encodeUtf8_eq_ok.mp hencode

def manifestBytes : Bytes := utf8 (originalSha256 ++ PyStr.ofChars [' ', '*', 'm', '\n'])

/-- What `json.dumps(marker, indent=2, sort_keys=True)` writes for this plan and manifest. -/
def markerText : PyStr :=
  PyStr.lit "\x7b\n  \"manifest_sha256\": \"" ++ manifestSha256 ++
  PyStr.lit "\",\n  \"metadata_path\": \"m\",\n  \"offset\": 0,\n" ++
  PyStr.lit "  \"original_metadata_sha256\": \"" ++ originalSha256 ++
  PyStr.lit "\",\n  \"patched_metadata_sha256\": \"" ++ patchedSha256 ++
  PyStr.lit "\",\n  \"schema\": 1,\n  \"server_port\": 19150,\n" ++
  PyStr.lit "  \"source_endpoint\": \"a\",\n  \"target_endpoint\": \"b\"\n\x7d"

def markerFile : PyStr := markerText ++ [PyStr.lineFeed]

def payload : MarkerPayload where
  schema := 1
  manifestSha256 := manifestSha256
  metadataPath := PyStr.ofChars ['m']
  offset := 0
  sourceEndpoint := PyStr.ofChars ['a']
  targetEndpoint := PyStr.ofChars ['b']
  originalMetadataSha256 := originalSha256
  patchedMetadataSha256 := patchedSha256
  serverPort := 19150

/-- The digests and the JSON text of the files of these samples. -/
def host : Host where
  cwd := []
  sha256 data :=
    if data = [97] then originalSha256
    else if data = [98] then patchedSha256
    else if data = manifestBytes then manifestSha256
    else []
  dumps _ := markerText
  loads text :=
    if text = markerFile then .ok (some payload) else .error .jsonDecodeError

/-- A copy whose marker is a link to a file outside the build directory. -/
def linkedCopy : Disk where
  entries := [([], .directory), ([build], .directory), ([build, output], .directory),
    ([build, output, m], .file [98]),
    ([build, output, markerName], .link true [.down elsewhere]),
    ([elsewhere], .file (utf8 markerFile)), ([hashes], .file manifestBytes)]
  nodup := by decide +kernel
  rooted := by decide +kernel
  root := by decide +kernel

theorem readMarker_linkedCopy :
    readMarker host linkedCopy [build, output, markerName] = .ok (some payload) := by
  have hstat : linkedCopy.readBytes (down [build, output, markerName]) = .ok (utf8 markerFile) := by
    decide +kernel
  have hnewlines : PyStr.universalNewlines markerFile = markerFile := by decide +kernel
  have hread : linkedCopy.readText (down [build, output, markerName]) = .ok markerFile := by
    unfold Disk.readText
    rw [except_bind_eq_ok]
    refine ⟨_, hstat, ?_⟩
    rw [decodeUtf8_utf8 (by decide +kernel)]
    simp only [hnewlines]
  have hloads : host.loads markerFile = .ok (some payload) := by simp only [host, if_true]
  exact readMarker_eq_ok.mpr ⟨markerFile, hread, hloads⟩

theorem verify_linkedCopy :
    verifyPatchedCopy host linkedCopy (.absolute [build, output]) (.absolute [hashes]) plan
      (.absolute [build]) = .ok () := by
  have hentries : (loadManifest linkedCopy [] (.absolute [hashes])).map (fun manifest =>
      manifest.entries) = .ok [([m], originalSha256)] := by
    decide +kernel
  cases hmanifest : loadManifest linkedCopy [] (.absolute [hashes]) with
  | error e =>
    rw [hmanifest] at hentries
    cases hentries
  | ok manifest =>
    rw [hmanifest] at hentries
    have hentries : manifest.entries = [([m], originalSha256)] := Except.ok.inj hentries
    apply verifyPatchedCopy_eq_ok.mpr
    refine ⟨[build, output], [build], manifest, payload, by decide +kernel, by decide +kernel,
      hmanifest, readMarker_linkedCopy, by decide +kernel, ?_, ?_, by decide +kernel⟩
    · rw [hentries]
      decide +kernel
    · simp only [findUnexpectedFiles, Manifest.keys, hentries]
      decide +kernel

end Sample

/-- The copy is accepted, and its marker lives outside the build directory. -/
theorem verifyPatchedCopy_accepts_linked_marker :
    verifyPatchedCopy Sample.host Sample.linkedCopy
      (.absolute [Sample.build, Sample.output]) (.absolute [Sample.hashes]) Sample.plan
      (.absolute [Sample.build]) = .ok () ∧
    ¬ ∃ dir manifest,
      Sample.linkedCopy.resolve [] (.absolute [Sample.build, Sample.output]) = .ok dir ∧
      loadManifest Sample.linkedCopy [] (.absolute [Sample.hashes]) = .ok manifest ∧
      SelfContained Sample.host Sample.linkedCopy dir manifest Sample.plan := by
  refine ⟨Sample.verify_linkedCopy, ?_⟩
  intro hall
  obtain ⟨dir, manifest, hdir, -, hself⟩ := hall
  have hplace : Sample.linkedCopy.resolve [] (.absolute [Sample.build, Sample.output]) =
      .ok [Sample.build, Sample.output] := by decide +kernel
  rw [hplace] at hdir
  obtain rfl := Except.ok.inj hdir
  have hlink : Sample.linkedCopy.node? ([Sample.build, Sample.output] ++ [markerName]) =
      some (.link true [.down Sample.elsewhere]) := by decide +kernel
  obtain ⟨data, hfile⟩ := hself.regular [markerName] _ hlink (by simp)
  cases hfile

end Army3
