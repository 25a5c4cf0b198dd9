import Army3.Tools.AllOrNothing
import Army3.Tools.EndpointOccurrences

/-! When `create_patched_copy` succeeds. -/

namespace Army3

open Files Raising

section

variable {α : Type} {s t : CopyState}

theorem reading_run_eq_ok {read : Disk → Except ToolError α} {a : α} :
    (reading none read).run s = (.ok a, t) ↔ read s.disk = .ok a ∧ t = s := by
  change (get >>= fun state : CopyState => liftM (read state.disk) : Copying α).run s = _ ↔ _
  rw [run_get_bind]
  cases hread : read s.disk with
  | error e =>
    rw [run_liftM_of_error rfl]
    constructor
    · intro h
      cases h
    · intro hall
      cases hall.1
  | ok b =>
    rw [run_liftM_of_ok rfl]
    constructor
    · intro h
      cases h
      exact ⟨rfl, rfl⟩
    · intro hall
      obtain ⟨hok, rfl⟩ := hall
      rw [Except.ok.inj hok]

theorem writing_run_eq_ok {update : Disk → Except ToolError Disk} {done : Unit} :
    (writing update).run s = (.ok done, t) ↔
      ∃ disk, update s.disk = .ok disk ∧ t = { s with disk := disk } := by
  unfold writing
  rw [run_get_bind]
  cases hupdate : update s.disk with
  | error e =>
    rw [run_bind_of_error (run_liftM_of_error rfl s)]
    constructor
    · intro h
      cases h
    · intro hall
      obtain ⟨_, hdisk, -⟩ := hall
      cases hdisk
  | ok disk =>
    rw [run_bind_of_ok (run_liftM_of_ok rfl s)]
    constructor
    · intro h
      exact ⟨disk, rfl, (Prod.mk.inj h).2.symm⟩
    · intro hall
      obtain ⟨_, hdisk, rfl⟩ := hall
      obtain rfl := Except.ok.inj hdisk
      rfl

theorem writing_keeps {update : Disk → Except ToolError Disk} :
    Keeps CopyState.published (writing update) := by
  intro s
  unfold writing
  rw [run_get_bind]
  cases hupdate : update s.disk with
  | error e => rw [run_bind_of_error (run_liftM_of_error rfl s)]
  | ok disk =>
    rw [run_bind_of_ok (run_liftM_of_ok rfl s)]
    rfl

theorem modify_run_eq_ok {f : CopyState → CopyState} {done : PUnit} :
    (modify f : Copying PUnit).run s = (.ok done, t) ↔ t = f s := by
  constructor
  · intro h
    exact (Prod.mk.inj h).2.symm
  · intro h
    rw [h]
    rfl

theorem atomic_none {step : Copying α} : atomic none step = step := rfl

theorem interrupted_none {temporary : List FileName} {step : Copying Unit} :
    interrupted none temporary step = step := rfl

theorem copytree_run_eq_ok {source temporary : List FileName} {done : Unit} :
    (copytree none source temporary).run s = (.ok done, t) ↔
      s.disk.node? temporary = none ∧ s.disk.Hosts temporary ∧
        s.disk.node? source = some .directory ∧ (s.disk.below source).LinkFree ∧
        t = { s with disk := s.disk.replace temporary (s.disk.below source) } := by
  unfold copytree
  rw [run_get_bind]
  by_cases hbad : s.disk.node? temporary ≠ none ∨ ¬ s.disk.Hosts temporary
  · rw [if_pos hbad]
    constructor
    · intro h
      cases h
    · intro hall
      exact absurd hall.2.1 (hbad.resolve_left (not_not.mpr hall.1))
  · rw [if_neg hbad]
    push Not at hbad
    rw [interrupted_none, writing_run_eq_ok]
    simp only [except_bind_eq_ok, Disk.treeToCopy_eq_ok, Except.ok.injEq]
    constructor
    · intro hall
      obtain ⟨disk, ⟨_, ⟨hdirectory, hfree, rfl⟩, rfl⟩, rfl⟩ := hall
      exact ⟨hbad.1, hbad.2, hdirectory, hfree, rfl⟩
    · intro hall
      obtain ⟨-, -, hdirectory, hfree, rfl⟩ := hall
      exact ⟨_, ⟨_, ⟨hdirectory, hfree, rfl⟩, rfl⟩, rfl⟩

/-- The metadata with the endpoint replaced at the offset. -/
def PatchPlan.replaced (plan : PatchPlan) (data : Bytes) : Bytes :=
  data.take plan.expectedOffset ++ plan.targetEndpoint ++
    data.drop (plan.expectedOffset + plan.targetEndpoint.length)

theorem patchMetadata_run_eq_ok {host : Host} {path : List FileName} {plan : PatchPlan}
    {done : Unit} :
    (patchMetadata host path plan).run s = (.ok done, t) ↔
      verifyMetadataBytes host s.disk path plan plan.expectedOriginalSha256 1 0 = .ok () ∧
        ∃ data, s.disk.readBytes (down path) = .ok data ∧
          (data.drop plan.expectedOffset).take plan.sourceEndpoint.length = plan.sourceEndpoint ∧
          ∃ disk, s.disk.writeBytes path (plan.replaced data) = .ok disk ∧
            verifyMetadataBytes host disk path plan plan.expectedPatchedSha256 0 1 = .ok () ∧
            t = { s with disk := disk } := by
  simp only [patchMetadata, run_bind_eq_ok, reading_run_eq_ok, writing_run_eq_ok, except_bind_eq_ok,
    refuseIf_eq_ok, not_not, ne_eq]
  constructor
  · intro hall
    obtain ⟨_, _, ⟨hbefore, rfl⟩, _, _, ⟨disk, ⟨data, hread, _, hslice, hwrite⟩, rfl⟩, hafter, rfl⟩ :=
      hall
    exact ⟨hbefore, data, hread, hslice, disk, hwrite, hafter, rfl⟩
  · intro hall
    obtain ⟨hbefore, data, hread, hslice, disk, hwrite, hafter, rfl⟩ := hall
    exact ⟨(), s, ⟨hbefore, rfl⟩, (), _, ⟨disk, ⟨data, hread, (), hslice, hwrite⟩, rfl⟩, hafter, rfl⟩

theorem writeMarker_run_eq_ok {host : Host} {path : List FileName} {marker : MarkerPayload}
    {done : Unit} :
    (writeMarker host path marker).run s = (.ok done, t) ↔
      ∃ raw disk, PyStr.encodeUtf8 (host.dumps marker ++ [PyStr.lineFeed]) = .ok raw ∧
        s.disk.writeBytes path raw = .ok disk ∧ t = { s with disk := disk } := by
  unfold writeMarker
  rw [writing_run_eq_ok]
  cases PyStr.encodeUtf8 (host.dumps marker ++ [PyStr.lineFeed]) with
  | error e => simp
  | ok raw => simp

/-- The stages of the `try` block, each with the disk it leaves. -/
structure Published (host : Host) (source temporary output root : List FileName)
    (manifestPath : PurePosixPath) (manifest : Manifest) (plan : PatchPlan) (before : CopyState)
    (copied patched marked : CopyState) (marker : MarkerPayload) (after : Disk) : Prop where
  copying : (copytree none source temporary).run before = (.ok (), copied)
  patching : (patchMetadata host (nativePath temporary plan.metadataPath) plan).run copied =
    (.ok (), patched)
  payload : markerPayload host patched.disk manifestPath plan = .ok marker
  marking : (writeMarker host (nativePath temporary [markerName]) marker).run patched =
    (.ok (), marked)
  verified : verifyPatchedCopy host marked.disk (.absolute temporary) manifestPath plan
    (.absolute root) = .ok ()
  moving : marked.disk.rename temporary output = .ok after
  published : verifyPatchedCopy host after (.absolute output) manifestPath plan (.absolute root) =
    .ok ()
  original : verifyOriginalClient host after (.absolute source) manifest plan = .ok ()

theorem publishCopy_run_eq_ok {host : Host} {source temporary output root : List FileName}
    {manifestPath : PurePosixPath} {manifest : Manifest} {plan : PatchPlan} :
    (publishCopy host .none source temporary output root manifestPath manifest plan).run s =
        (.ok (), t) ↔
      ∃ copied patched marked marker after,
        Published host source temporary output root manifestPath manifest plan s copied patched
          marked marker after ∧ t = ⟨after, true⟩ := by
  simp only [publishCopy, Faults.none, interrupted_none, atomic_none, run_bind_eq_ok,
    reading_run_eq_ok, writing_run_eq_ok, modify_run_eq_ok]
  constructor
  · intro hall
    obtain ⟨_, copied, hcopy, _, patched, hpatch, marker, _, ⟨hpayload, rfl⟩, _, marked, hmark, _, _,
      ⟨hverify, rfl⟩, _, _, ⟨after, hmove, rfl⟩, _, _, rfl, _, _, ⟨hcopied, rfl⟩, horiginal, rfl⟩ :=
      hall
    exact ⟨copied, _, _, marker, after,
      ⟨hcopy, hpatch, hpayload, hmark, hverify, hmove, hcopied, horiginal⟩, rfl⟩
  · intro hall
    obtain ⟨copied, patched, marked, marker, after, hall, rfl⟩ := hall
    exact ⟨(), copied, hall.copying, (), patched, hall.patching, marker, patched,
      ⟨hall.payload, rfl⟩, (), marked, hall.marking, (), marked, ⟨hall.verified, rfl⟩, (), _,
      ⟨after, hall.moving, rfl⟩, (), _, rfl, (), _, ⟨hall.published, rfl⟩, hall.original, rfl⟩

variable {root : List FileName}

theorem inits_concat {front : List FileName} {name : FileName} :
    (front ++ [name]).inits = front.inits ++ [front ++ [name]] := by
  rw [List.inits_append]
  rfl

theorem makeRoot_concat {front : List FileName} {name : FileName} :
    makeRoot none (front ++ [name]) =
      (makeRoot none front >>= fun _ => writing (·.makeDir (front ++ [name]))) := by
  simp only [makeRoot, inits_concat, List.forM_eq_forM, List.forM_append, List.forM_cons,
    List.forM_nil]
  rw [bind_pure]

theorem makeRoot_nil : makeRoot none [] = writing (·.makeDir []) := by
  simp only [makeRoot, List.inits, List.forM_eq_forM, List.forM_cons, List.forM_nil]
  rw [bind_pure]

/-- Every directory on the way to `root` is there, or can be made. -/
def RootFree (disk : Disk) (root : List FileName) : Prop :=
  ∀ path, path <+: root → disk.node? path = none ∨ disk.node? path = some .directory

theorem directory_of_makeDir {disk after : Disk} {path : List FileName}
    (h : disk.makeDir path = .ok after) : after.node? path = some .directory := by
  rcases Disk.makeDir_eq_ok.mp h with ⟨hdirectory, rfl⟩ | ⟨-, hhosts, rfl⟩
  · exact hdirectory
  · rw [Tree.node?_replace_single hhosts, if_pos rfl]

/-- A root that has been made, and what that says about the disk before. -/
theorem makeRoot_run_ok {done : Unit} (h : (makeRoot none root).run s = (.ok done, t)) :
    t.published = s.published ∧ Made root s.disk t.disk ∧
      t.disk.node? root = some .directory ∧ RootFree s.disk root := by
  have hkeeps : Keeps CopyState.published (makeRoot none root) :=
    Keeps.forM fun path => writing_keeps
  have hpublished := hkeeps s
  rw [h] at hpublished
  have hspec : Runs (fun state => Made root s.disk state.disk) (makeRoot none root) _ _ :=
    makeRoot_runs
  have hruns := hspec s Made.refl
  rw [h] at hruns
  have hdirectory : t.disk.node? root = some .directory := by
    rcases List.eq_nil_or_concat root with rfl | ⟨front, name, rfl⟩
    · rw [makeRoot_nil] at h
      obtain ⟨disk, hmake, rfl⟩ := writing_run_eq_ok.1 h
      exact directory_of_makeDir hmake
    · rw [List.concat_eq_append] at h ⊢
      rw [makeRoot_concat] at h
      obtain ⟨_, middle, -, hlast⟩ := run_bind_eq_ok.mp h
      obtain ⟨disk, hmake, rfl⟩ := writing_run_eq_ok.1 hlast
      exact directory_of_makeDir hmake
  refine ⟨hpublished, hruns, hdirectory, ?_⟩
  intro path hpath
  have hafter : t.disk.node? path = some .directory := by
    obtain ⟨low, rfl⟩ := hpath
    by_cases hlow : low = []
    · rwa [hlow, List.append_nil] at hdirectory
    · exact Branch.node?_of_append (by rw [hdirectory]; rfl) hlow
  rcases hruns path with hsame | hmade
  · exact .inr (hsame ▸ hafter)
  · exact .inl hmade.2.1

theorem makeRoot_run_of_rootFree (h : RootFree s.disk root) :
    ∃ t, (makeRoot none root).run s = (.ok (), t) := by
  induction root using List.reverseRecOn with
  | nil =>
    rw [makeRoot_nil]
    refine ⟨s, writing_run_eq_ok.2 ⟨s.disk, ?_, rfl⟩⟩
    exact Disk.makeDir_eq_ok.mpr (.inl ⟨s.disk.root, rfl⟩)
  | append_singleton front name ih =>
    obtain ⟨t, ht⟩ := ih fun path hpath => h path (hpath.trans (List.prefix_append front [name]))
    obtain ⟨-, hmade, hfront, -⟩ := makeRoot_run_ok ht
    have hsame : t.disk.node? (front ++ [name]) = s.disk.node? (front ++ [name]) := by
      apply hmade.node?_outside
      intro hpre
      have hlength := hpre.length_le
      rw [List.length_append, List.length_singleton] at hlength
      omega
    rw [makeRoot_concat]
    rcases h _ (List.prefix_refl _) with hnone | hdirectory
    · refine ⟨_, run_bind_eq_ok.mpr ⟨(), t, ht, writing_run_eq_ok.2
        ⟨t.disk.replace (front ++ [name]) (.single .directory), ?_, rfl⟩⟩⟩
      refine Disk.makeDir_eq_ok.mpr (.inr ⟨hsame.trans hnone, ⟨by simp, ?_⟩, rfl⟩)
      rw [List.dropLast_concat]
      exact hfront
    · refine ⟨_, run_bind_eq_ok.mpr ⟨(), t, ht, writing_run_eq_ok.2 ⟨t.disk, ?_, rfl⟩⟩⟩
      exact Disk.makeDir_eq_ok.mpr (.inl ⟨hsame.trans hdirectory, rfl⟩)

/-- The handler of the `try` block raises again. -/
theorem tryCatch_cleanUp_run_eq_ok {x : Copying Unit} {temporary output : List FileName} :
    (tryCatch x (cleanUp temporary output)).run s = (.ok (), t) ↔ x.run s = (.ok (), t) := by
  rw [run_tryCatch]
  cases x.run s with
  | mk r middle =>
    cases r with
    | ok done => rfl
    | error e =>
      constructor
      · intro h
        cases h
      · intro h
        cases h

/-- The checks, the root and the `try` block, each with what it reads or leaves. -/
theorem createPatchedCopy_run_ok_iff {host : Host} {hex : FileName}
    {source output manifestPath allowed : PurePosixPath} {plan : PatchPlan} :
    (createPatchedCopy host .none hex source output manifestPath plan allowed).run s = (.ok (), t) ↔
      ∃ dir out base file manifest made, Admitted host s.disk source output allowed dir out base ∧
        s.disk.resolve host.cwd manifestPath = .ok file ∧
        loadManifest s.disk host.cwd (.absolute file) = .ok manifest ∧
        verifyOriginalClient host s.disk (.absolute dir) manifest plan = .ok () ∧
        (makeRoot none base).run s = (.ok (), made) ∧
        ¬ made.disk.exists? (temporaryPath base out hex) ∧
        (publishCopy host .none dir (temporaryPath base out hex) out base (.absolute file) manifest
          plan).run { made with published := false } = (.ok (), t) := by
  simp only [createPatchedCopy, Faults.none, run_bind_eq_ok, reading_run_eq_ok, modify_run_eq_ok,
    except_bind_eq_ok, refuseIf_eq_ok, tryCatch_cleanUp_run_eq_ok]
  constructor
  · intro hall
    obtain ⟨dir, _, ⟨hdir, rfl⟩, ⟨out, base⟩, _, ⟨hsafe, rfl⟩, file, _, ⟨hfile, rfl⟩, _, _,
      ⟨⟨_, hapart, hfresh⟩, rfl⟩, manifest, _, ⟨hmanifest, rfl⟩, _, _, ⟨hverify, rfl⟩, _, made,
      hmade, _, _, ⟨hnone, rfl⟩, _, _, rfl, hpublish⟩ := hall
    exact ⟨dir, out, base, file, manifest, _, admitted_iff.mpr ⟨hdir, hsafe, hapart, hfresh⟩,
      hfile, hmanifest, hverify, hmade, hnone, hpublish⟩
  · intro hall
    obtain ⟨dir, out, base, file, manifest, made, hadmitted, hfile, hmanifest, hverify, hmade,
      hnone, hpublish⟩ := hall
    obtain ⟨hdir, hsafe, hapart, hfresh⟩ := admitted_iff.mp hadmitted
    exact ⟨dir, s, ⟨hdir, rfl⟩, (out, base), s, ⟨hsafe, rfl⟩, file, s, ⟨hfile, rfl⟩, (), s,
      ⟨⟨(), hapart, hfresh⟩, rfl⟩, manifest, s, ⟨hmanifest, rfl⟩, (), s, ⟨hverify, rfl⟩, (), made,
      hmade, (), made, ⟨hnone, rfl⟩, (), _, rfl, hpublish⟩

end

section

variable {host : Host} {disk after : Disk} {path : List FileName} {data : Bytes} {plan : PatchPlan}

/-- A file has been written, and nothing else has changed. -/
def Written (before : Disk) (path : List FileName) (data : Bytes) (after : Disk) : Prop :=
  ∀ other, after.node? other = if other = path then some (.file data) else before.node? other

theorem place?_of_hosts (hdirect : disk.Direct path) (hhosts : disk.Hosts path) :
    disk.place? path = some path := by
  obtain ⟨front, name, rfl⟩ := List.eq_nil_or_concat path |>.resolve_left hhosts.1
  rw [List.concat_eq_append] at hdirect hhosts ⊢
  have hparent : disk.node? front = some .directory := by
    have hdir := hhosts.2
    rwa [List.dropLast_concat] at hdir
  have hfront : disk.Direct front := hdirect.upwards (List.prefix_append front [name])
  unfold Disk.place?
  rw [Tree.walk_of_direct hdirect]
  by_cases hsome : (disk.node? (front ++ [name])).isSome
  · rw [if_pos hsome]
  · have hnone : disk.node? (front ++ [name]) = none := by simpa using hsome
    have hlstat : disk.lstat (front ++ [name]) = none := by
      rw [Disk.lstat_of_direct (by rwa [List.dropLast_concat]), hnone]
    rw [if_neg hsome, List.getLast?_concat, List.dropLast_concat, Tree.walk_of_direct hfront]
    simp [hlstat, hparent]

/-- Where no link is on the path, a file is written unless a directory stands there. -/
theorem writeBytes_of_direct (data : Bytes) (hdirect : disk.Direct path) (hhosts : disk.Hosts path)
    (hfile : disk.node? path ≠ some .directory) :
    ∃ after, disk.writeBytes path data = .ok after ∧ Written disk path data after := by
  refine ⟨disk.replace path (.single (.file data)), ?_, ?_⟩
  · exact Disk.writeBytes_eq_ok.mpr ⟨path, place?_of_hosts hdirect hhosts, hfile, hhosts, rfl⟩
  · intro other
    rw [Tree.node?_replace_single hhosts]
    by_cases hsame : other = path
    · rw [if_pos hsame, if_pos hsame]
    · rw [if_neg hsame, if_neg hsame]
      by_cases hbelow : path <+: other
      · obtain ⟨low, rfl⟩ := hbelow
        have hlow : low ≠ [] := by
          intro hnil
          exact hsame (by rw [hnil, List.append_nil])
        have hnone : disk.node? (path ++ low) = none := by
          rw [← Option.not_isSome_iff_eq_none]
          exact fun hsome => hfile (Branch.node?_of_append hsome hlow)
        rw [if_pos (List.prefix_append path low), hnone]
      · rw [if_neg hbelow]

theorem not_writeBytes_of_directory (h : disk.node? path = some .directory) :
    disk.writeBytes path data ≠ .ok after := by
  intro hwrite
  obtain ⟨place, hplace, hkind, -, -⟩ := Disk.writeBytes_eq_ok.mp hwrite
  obtain rfl := place?_of_direct (Tree.direct_of_node? h id) hplace
  exact hkind h

theorem readBytes_of_node? (h : disk.node? path = some (.file data)) :
    disk.readBytes (down path) = .ok data := by
  rw [Disk.readBytes_eq_ok, Disk.stat_of_direct (Tree.direct_of_node? h id), h]

/-- The patch goes through where the file is the one that it was made for. -/
theorem patchMetadata_succeeds {s : CopyState} (hnode : s.disk.node? path = some (.file data))
    (hbefore : MetadataChecks host data plan.expectedOriginalSha256 plan.sourceEndpoint
      plan.targetEndpoint plan.expectedOffset)
    (hafter : MetadataChecks host (plan.replaced data) plan.expectedPatchedSha256
      plan.targetEndpoint plan.sourceEndpoint plan.expectedOffset) :
    ∃ disk, (patchMetadata host path plan).run s = (.ok (), { s with disk := disk }) ∧
      Written s.disk path (plan.replaced data) disk := by
  have hne : path ≠ [] := by
    intro hnil
    rw [hnil, s.disk.root] at hnode
    cases hnode
  have hhosts : s.disk.Hosts path := Tree.hosts_of_node? (by rw [hnode]; rfl) hne
  have hread := readBytes_of_node? hnode
  obtain ⟨disk, hwrite, hwritten⟩ := writeBytes_of_direct (plan.replaced data)
    (Tree.direct_of_node? hnode id) hhosts
    (by rw [hnode]; simp)
  have hpatched : disk.node? path = some (.file (plan.replaced data)) := by
    rw [hwritten path, if_pos rfl]
  refine ⟨disk, patchMetadata_run_eq_ok.2 ⟨?_, data, hread, hbefore.2.2.2, disk, hwrite, ?_, rfl⟩,
    hwritten⟩
  · exact verifyMetadataBytes_original_eq_ok.mpr ⟨data, hread, hbefore⟩
  · exact verifyMetadataBytes_patched_eq_ok.mpr ⟨_, readBytes_of_node? hpatched, hafter⟩

end

/-- A call whose checks pass, with a plan that fits the metadata: what is replaced has the patched
hash, and holds the source endpoint nowhere and the target endpoint once. -/
structure Admissible (host : Host) (disk : Disk) (source output manifestPath root : PurePosixPath)
    (plan : PatchPlan) (dir out base file : List FileName) (manifest : Manifest) (data : Bytes) :
    Prop where
  admitted : Admitted host disk source output root dir out base
  manifestFile : disk.resolve host.cwd manifestPath = .ok file
  loaded : loadManifest disk host.cwd (.absolute file) = .ok manifest
  verified : verifyOriginalClient host disk source manifest plan = .ok ()
  unlisted : [markerName] ∉ manifest.keys
  metadata : disk.readBytes (down (nativePath dir plan.metadataPath)) = .ok data
  patchedHash : host.sha256 (plan.replaced data) = plan.expectedPatchedSha256
  sources : byteCount (plan.replaced data) plan.sourceEndpoint = 0
  targets : byteCount (plan.replaced data) plan.targetEndpoint = 1

/-- What the checks do not look at: the root can be made, the output's directory exists, the
endpoints are ASCII, and no directory stands at the marker's place or at the temporary path. -/
structure Publishable (disk : Disk) (plan : PatchPlan) (hex : FileName)
    (dir out base : List FileName) : Prop where
  root : RootFree disk base
  parent : out.dropLast = base ∨ disk.node? out.dropLast = some .directory
  endpoints : plan.sourceEndpoint.all (· < 128) ∧ plan.targetEndpoint.all (· < 128)
  marker : disk.node? (dir ++ [markerName]) = none
  temporary : disk.node? (temporaryPath base out hex) = none

/-- `json` brings the marker back, and writes it in ASCII with line feeds only. -/
structure JsonKeeps (host : Host) (marker : MarkerPayload) : Prop where
  ascii : ∀ c ∈ host.dumps marker, c.val < 128 ∧ c ≠ PyStr.carriageReturn
  loads : host.loads (host.dumps marker ++ [PyStr.lineFeed]) = .ok (some marker)

theorem Manifest.eq_of_entries {found manifest : Manifest} (h : found.entries = manifest.entries) :
    found = manifest := by
  obtain ⟨⟨entries, _, _⟩, _⟩ := found
  cases h
  rfl

theorem universalNewlines_of_no_return {text : PyStr} (h : PyStr.carriageReturn ∉ text) :
    PyStr.universalNewlines text = text := by
  induction text with
  | nil => rfl
  | cons c text ih =>
    rw [List.mem_cons, not_or] at h
    rw [PyStr.universalNewlines_cons_of_ne (Ne.symm h.1), ih h.2]

theorem JsonKeeps.encodes {host : Host} {marker : MarkerPayload} (h : JsonKeeps host marker) :
    ∃ raw, PyStr.encodeUtf8 (host.dumps marker ++ [PyStr.lineFeed]) = .ok raw ∧
      PyStr.decodeUtf8 raw = some (host.dumps marker ++ [PyStr.lineFeed]) ∧
      PyStr.universalNewlines (host.dumps marker ++ [PyStr.lineFeed]) =
        host.dumps marker ++ [PyStr.lineFeed] := by
  have hchars : ∀ c ∈ host.dumps marker ++ [PyStr.lineFeed], c.val < 128 ∧
      c ≠ PyStr.carriageReturn := by
    intro c hc
    rcases List.mem_append.mp hc with hold | hlast
    · exact h.ascii c hold
    · rw [List.mem_singleton.mp hlast]
      decide
  have hnewlines := universalNewlines_of_no_return fun hmem => (hchars _ hmem).2 rfl
  cases hencode : PyStr.encodeUtf8 (host.dumps marker ++ [PyStr.lineFeed]) with
  | error e =>
    obtain ⟨c, hc, hsurrogate⟩ := (PyStr.encodeUtf8_eq_error.mp hencode).2
    have hsmall := (hchars c hc).1
    unfold CodePoint.IsSurrogate at hsurrogate
    omega
  | ok raw => exact ⟨raw, rfl, PyStr.encodeUtf8_eq_ok.mp hencode, hnewlines⟩

section

variable {host : Host} {before after : Disk} {dir place : List FileName} {manifest : Manifest}
  {plan : PatchPlan} {data raw : Bytes} {marker : MarkerPayload} {manifestPath : PurePosixPath}

/-- At `place` stands what stood at `dir`, with the patched metadata and the marker. -/
def CopiedTo (before : Disk) (dir : List FileName) (plan : PatchPlan) (data raw : Bytes)
    (after : Disk) (place : List FileName) : Prop :=
  ∀ relative, after.node? (place ++ relative) =
    if relative = plan.metadataPath then some (.file (plan.replaced data))
    else if relative = [markerName] then some (.file raw)
    else before.node? (dir ++ relative)

/-- The patched metadata passes the checks that follow the patch. -/
theorem replaced_checks
    (hslice : (data.drop plan.expectedOffset).take plan.sourceEndpoint.length = plan.sourceEndpoint)
    (hhash : host.sha256 (plan.replaced data) = plan.expectedPatchedSha256)
    (hsources : byteCount (plan.replaced data) plan.sourceEndpoint = 0)
    (htargets : byteCount (plan.replaced data) plan.targetEndpoint = 1) :
    MetadataChecks host (plan.replaced data) plan.expectedPatchedSha256 plan.targetEndpoint
      plan.sourceEndpoint plan.expectedOffset := by
  refine ⟨hhash, htargets, hsources, ?_⟩
  have hlength := congrArg List.length hslice
  have hpos := List.length_pos_of_ne_nil plan.nonempty
  rw [List.length_take, List.length_drop] at hlength
  have hfront : (data.take plan.expectedOffset).length = plan.expectedOffset := by
    rw [List.length_take]
    omega
  unfold PatchPlan.replaced
  rw [List.append_assoc, List.drop_left' hfront, List.take_left]

theorem OriginalTree.metadata_node? (h : OriginalTree host before dir manifest plan)
    (hread : before.readBytes (down (nativePath dir plan.metadataPath)) = .ok data) :
    before.node? (dir ++ plan.metadataPath) = some (.file data) := by
  obtain ⟨found, hfound, -⟩ := h.files _ _ h.metadata
  have hread' := readBytes_of_node? hfound
  obtain rfl := Except.ok.inj (hread.symm.trans hread')
  exact hfound

theorem metadataPath_ne_nil (h : OriginalTree host before dir manifest plan)
    (hnode : before.node? (dir ++ plan.metadataPath) = some (.file data)) :
    plan.metadataPath ≠ [] := by
  intro hnil
  rw [hnil, List.append_nil, h.directory] at hnode
  cases hnode

/-- Such a copy is what `verify_patched_copy` accepts. -/
theorem patchedTree_of_copiedTo (horiginal : OriginalTree host before dir manifest plan)
    (hnode : before.node? (dir ++ plan.metadataPath) = some (.file data))
    (hchecks : MetadataChecks host (plan.replaced data) plan.expectedPatchedSha256
      plan.targetEndpoint plan.sourceEndpoint plan.expectedOffset)
    (hunlisted : [markerName] ∉ manifest.keys) (hkeeps : JsonKeeps host marker)
    (hraw : PyStr.encodeUtf8 (host.dumps marker ++ [PyStr.lineFeed]) = .ok raw)
    (hpayload : markerPayload host after manifestPath plan = .ok marker)
    (hcopied : CopiedTo before dir plan data raw after place) :
    PatchedTree host after place manifestPath manifest plan := by
  have hkey : plan.metadataPath ∈ manifest.keys := Manifest.mem_keys.mpr ⟨_, horiginal.metadata⟩
  have hapart : [markerName] ≠ plan.metadataPath := by
    intro heq
    exact hunlisted (heq ▸ hkey)
  have hmetadata := hcopied plan.metadataPath
  rw [if_pos rfl] at hmetadata
  have hmarker := hcopied [markerName]
  rw [if_neg hapart, if_pos rfl] at hmarker
  refine ⟨?_, ?_, ?_, ?_, ?_⟩
  · have htop := hcopied []
    rw [if_neg (Ne.symm (metadataPath_ne_nil horiginal hnode)), if_neg (List.cons_ne_nil _ _).symm,
      List.append_nil, List.append_nil, horiginal.directory] at htop
    exact htop
  · obtain ⟨raw', hraw', hdecode, hnewlines⟩ := hkeeps.encodes
    obtain rfl := Except.ok.inj (hraw.symm.trans hraw')
    refine ⟨marker, host.dumps marker ++ [PyStr.lineFeed], hpayload, ?_, hkeeps.loads⟩
    unfold Disk.readText
    rw [except_bind_eq_ok]
    refine ⟨raw, readBytes_of_node? hmarker, ?_⟩
    simp only [hdecode, hnewlines]
  · intro relative hash hentry
    unfold expectedHash
    by_cases hsame : relative = plan.metadataPath
    · rw [if_pos hsame, hsame]
      exact ⟨_, hmetadata, hchecks.1⟩
    · have hother : relative ≠ [markerName] := by
        intro heq
        exact hunlisted (heq ▸ Manifest.mem_keys.mpr ⟨_, hentry⟩)
      obtain ⟨found, hfound, hhash⟩ := horiginal.files relative hash hentry
      have hcopy := hcopied relative
      rw [if_neg hsame, if_neg hother, hfound] at hcopy
      rw [if_neg hsame]
      exact ⟨found, hcopy, hhash⟩
  · intro relative
    unfold Occupied
    rw [hcopied relative]
    by_cases hsame : relative = plan.metadataPath
    · rw [if_pos hsame]
      exact iff_of_true ⟨_, rfl, by simp⟩ (.inl (hsame ▸ hkey))
    · by_cases hplace : relative = [markerName]
      · rw [if_neg hsame, if_pos hplace]
        exact iff_of_true ⟨_, rfl, by simp⟩ (.inr hplace)
      · rw [if_neg hsame, if_neg hplace, or_iff_left hplace]
        exact horiginal.entries relative
  · exact verifyMetadataBytes_patched_eq_ok.mpr ⟨_, readBytes_of_node? hmetadata, hchecks⟩

/-- A tree keeps passing as long as nothing at or below it changes. -/
theorem OriginalTree.same (h : OriginalTree host before dir manifest plan)
    (hsame : SameBranch before after dir) : OriginalTree host after dir manifest plan := by
  have htop := hsame []
  rw [List.append_nil, h.directory] at htop
  refine ⟨htop, ?_, ?_, ?_, h.metadata, ?_⟩
  · intro relative
    unfold Occupied
    rw [hsame relative]
    exact h.entries relative
  · intro relative node hnode
    rw [Branch.node?_below, hsame relative, ← Branch.node?_below] at hnode
    exact h.linkFree relative node hnode
  · intro relative hash hentry
    unfold HasFile
    rw [hsame relative]
    exact h.files relative hash hentry
  · obtain ⟨data, hread, hchecks⟩ := verifyMetadataBytes_original_eq_ok.mp h.bytes
    have hnode := h.metadata_node? hread
    rw [← hsame] at hnode
    exact verifyMetadataBytes_original_eq_ok.mpr ⟨data, readBytes_of_node? hnode, hchecks⟩

/-- What is read of the manifest depends on its file only. -/
theorem manifest_same {file : List FileName} {node : Node FileName Bytes}
    (hnode : before.node? file = some node) (hlink : ¬ node.IsLink)
    (hsame : after.node? file = some node) :
    loadManifest after host.cwd (.absolute file) = loadManifest before host.cwd (.absolute file) ∧
      markerPayload host after (.absolute file) plan =
        markerPayload host before (.absolute file) plan := by
  have hsteps : Disk.stepsFrom host.cwd (.absolute file) = down file := rfl
  have hread : after.readBytes (down file) = before.readBytes (down file) := by
    unfold Disk.readBytes
    rw [Disk.stat_of_direct (Tree.direct_of_node? hsame hlink),
      Disk.stat_of_direct (Tree.direct_of_node? hnode hlink), hsame, hnode]
  unfold loadManifest markerPayload sha256File Disk.readText
  rw [hsteps, hread]
  exact ⟨rfl, rfl⟩

theorem markerPayload_eq_ok : markerPayload host before manifestPath plan = .ok marker →
    plan.sourceEndpoint.all (· < 128) ∧ plan.targetEndpoint.all (· < 128) := by
  intro h
  unfold markerPayload decodeAscii at h
  obtain ⟨_, -, h⟩ := except_bind_eq_ok.mp h
  obtain ⟨_, hsource, h⟩ := except_bind_eq_ok.mp h
  obtain ⟨_, htarget, -⟩ := except_bind_eq_ok.mp h
  constructor
  · by_contra hno
    rw [if_neg hno] at hsource
    cases hsource
  · by_contra hno
    rw [if_neg hno] at htarget
    cases htarget

theorem markerPayload_of_ascii (hdata : before.readBytes (Disk.stepsFrom host.cwd manifestPath) =
      .ok data) (hsource : plan.sourceEndpoint.all (· < 128))
    (htarget : plan.targetEndpoint.all (· < 128)) :
    ∃ marker, markerPayload host before manifestPath plan = .ok marker := by
  unfold markerPayload sha256File decodeAscii
  rw [hdata, if_pos hsource, if_pos htarget]
  exact ⟨_, rfl⟩

theorem readBytes_of_loadManifest (h : loadManifest before host.cwd manifestPath = .ok manifest) :
    ∃ data, before.readBytes (Disk.stepsFrom host.cwd manifestPath) = .ok data := by
  unfold loadManifest at h
  cases hread : before.readBytes (Disk.stepsFrom host.cwd manifestPath) with
  | ok data => exact ⟨data, rfl⟩
  | error e =>
    have htext : before.readText (Disk.stepsFrom host.cwd manifestPath) = .error e := by
      unfold Disk.readText
      rw [hread]
      rfl
    rw [htext] at h
    cases e <;> cases h

end

section

variable {host : Host} {disk made copied marked moved : Disk}
  {source output manifestPath root : PurePosixPath} {plan : PatchPlan}
  {dir out base file place : List FileName} {manifest : Manifest} {data raw : Bytes}
  {hex : FileName} {marker : MarkerPayload}

theorem Admissible.original (h : Admissible host disk source output manifestPath root plan dir out
    base file manifest data) : OriginalTree host disk dir manifest plan := by
  obtain ⟨found, hfound, htree⟩ := originalTree_of_verify h.verified
  obtain rfl := Except.ok.inj (h.admitted.source.symm.trans hfound)
  exact htree

theorem Admissible.node? (h : Admissible host disk source output manifestPath root plan dir out
    base file manifest data) : disk.node? (dir ++ plan.metadataPath) = some (.file data) :=
  h.original.metadata_node? h.metadata

theorem Admissible.before_checks (h : Admissible host disk source output manifestPath root plan dir
    out base file manifest data) :
    MetadataChecks host data plan.expectedOriginalSha256 plan.sourceEndpoint plan.targetEndpoint
      plan.expectedOffset := by
  obtain ⟨found, hfound, hchecks⟩ := verifyMetadataBytes_original_eq_ok.mp h.original.bytes
  obtain rfl := Except.ok.inj (h.metadata.symm.trans hfound)
  exact hchecks

theorem Admissible.after_checks (h : Admissible host disk source output manifestPath root plan dir
    out base file manifest data) :
    MetadataChecks host (plan.replaced data) plan.expectedPatchedSha256 plan.targetEndpoint
      plan.sourceEndpoint plan.expectedOffset :=
  replaced_checks h.before_checks.2.2.2 h.patchedHash h.sources h.targets

/-- The manifest is a file of its own. -/
theorem Admissible.manifest_node? (h : Admissible host disk source output manifestPath root plan dir
    out base file manifest data) : ∃ content, disk.node? file = some (.file content) := by
  obtain ⟨content, hcontent⟩ := readBytes_of_loadManifest h.loaded
  have hstat : disk.stat (down file) = some (.file content) := Disk.readBytes_eq_ok.mp hcontent
  rw [Disk.stat_of_direct (Disk.direct_of_resolve h.manifestFile)] at hstat
  exact ⟨content, hstat⟩

/-- Wherever the copy stands below the root, it passes. -/
theorem Admissible.verify_copy (h : Admissible host disk source output manifestPath root plan dir
      out base file manifest data) (hkeeps : JsonKeeps host marker)
    (hpayload : markerPayload host disk (.absolute file) plan = .ok marker)
    (hraw : PyStr.encodeUtf8 (host.dumps marker ++ [PyStr.lineFeed]) = .ok raw)
    (hcopied : CopiedTo disk dir plan data raw moved place) (hbelow : base <+: place)
    (hne : base ≠ place) (hfile : moved.node? file = disk.node? file) :
    verifyPatchedCopy host moved (.absolute place) (.absolute file) plan (.absolute base) =
      .ok () := by
  obtain ⟨content, hcontent⟩ := h.manifest_node?
  have hsame := @manifest_same host disk moved plan file _ hcontent id (hfile.trans hcontent)
  have htree := patchedTree_of_copiedTo h.original h.node? h.after_checks h.unlisted hkeeps hraw
    (hsame.2.trans hpayload) hcopied
  have hdirect : moved.Direct place := Tree.direct_of_node? htree.directory id
  have hsafe : ensureOutputIsSafe host moved (.absolute place) (.absolute base) =
      .ok (place, base) :=
    ensureOutputIsSafe_eq_ok.mpr ⟨Disk.resolve_absolute hdirect,
      Disk.resolve_absolute (hdirect.upwards hbelow), hbelow, hne⟩
  exact htree.verify hsafe (hsame.1.trans h.loaded)

theorem prefix_temporaryPath : base <+: temporaryPath base out hex := List.prefix_append _ _

theorem not_temporaryPath_prefix : ¬ temporaryPath base out hex <+: base := by
  intro hpre
  have hlength := hpre.length_le
  rw [temporaryPath, List.length_append, List.length_singleton] at hlength
  omega

theorem ne_temporaryPath : base ≠ temporaryPath base out hex := by
  intro heq
  have hlength := congrArg List.length heq
  rw [temporaryPath, List.length_append, List.length_singleton] at hlength
  omega

/-- What the copy of the tree finds and leaves. -/
theorem Admissible.copytree_run (h : Admissible host disk source output manifestPath root plan dir
      out base file manifest data) (hmade : Made base disk made)
    (hbase : made.node? base = some .directory)
    (hnone : disk.node? (temporaryPath base out hex) = none) :
    ∃ copied, (copytree none dir (temporaryPath base out hex)).run ⟨made, false⟩ =
        (.ok (), ⟨copied, false⟩) ∧
      (∀ relative, copied.node? (temporaryPath base out hex ++ relative) =
        disk.node? (dir ++ relative)) ∧
      ∀ path, ¬ temporaryPath base out hex <+: path → copied.node? path = made.node? path := by
  have hsame : SameBranch disk made dir :=
    hmade.sameBranch (h.admitted.not_prefix_base (.inr (List.prefix_refl dir)))
  have hhosts : made.Hosts (temporaryPath base out hex) := by
    refine ⟨temporaryPath_ne_nil, ?_⟩
    rw [temporaryPath, List.dropLast_concat]
    exact hbase
  have htree := h.original.same hsame
  refine ⟨made.replace (temporaryPath base out hex) (made.below dir),
    copytree_run_eq_ok.2 ⟨?_, hhosts, htree.directory, htree.linkFree, rfl⟩, ?_, ?_⟩
  · rw [hmade.node?_outside not_temporaryPath_prefix]
    exact hnone
  · intro relative
    rw [Tree.node?_replace hhosts, Branch.node?_below]
    exact hsame relative
  · intro path hpath
    exact Tree.node?_replace_outside hpath

/-- The patched copy: the source's tree with the metadata replaced, nothing else changed. -/
theorem Admissible.patch_run (h : Admissible host disk source output manifestPath root plan dir out
      base file manifest data)
    (hcopied : ∀ relative, copied.node? (place ++ relative) = disk.node? (dir ++ relative)) :
    ∃ patched, (patchMetadata host (nativePath place plan.metadataPath) plan).run
        ⟨copied, false⟩ = (.ok (), ⟨patched, false⟩) ∧
      Written copied (place ++ plan.metadataPath) (plan.replaced data) patched := by
  have hnode : copied.node? (place ++ plan.metadataPath) = some (.file data) :=
    (hcopied _).trans h.node?
  exact patchMetadata_succeeds (s := ⟨copied, false⟩) hnode h.before_checks h.after_checks

theorem Admissible.marker_ne (h : Admissible host disk source output manifestPath root plan dir out
    base file manifest data) : [markerName] ≠ plan.metadataPath := by
  intro heq
  exact h.unlisted (heq ▸ Manifest.mem_keys.mpr ⟨_, h.original.metadata⟩)

/-- At the marker's place the source has nothing or a directory. -/
theorem Admissible.marker_cases (h : Admissible host disk source output manifestPath root plan dir
    out base file manifest data) :
    disk.node? (dir ++ [markerName]) = none ∨
      disk.node? (dir ++ [markerName]) = some .directory := by
  cases hnode : disk.node? (dir ++ [markerName]) with
  | none => exact .inl rfl
  | some node =>
    by_cases hdirectory : node = .directory
    · exact .inr (by rw [hdirectory])
    · exact absurd ((h.original.entries _).mp ⟨node, hnode, hdirectory⟩) h.unlisted

/-- The marker can be written unless the source has a directory in its place. -/
theorem Admissible.marker_run (h : Admissible host disk source output manifestPath root plan dir out
      base file manifest data) {patched : Disk}
    (hraw : PyStr.encodeUtf8 (host.dumps marker ++ [PyStr.lineFeed]) = .ok raw)
    (hcopied : ∀ relative, copied.node? (place ++ relative) = disk.node? (dir ++ relative))
    (hpatched : Written copied (place ++ plan.metadataPath) (plan.replaced data) patched)
    (hfree : disk.node? (dir ++ [markerName]) = none) :
    ∃ marked, (writeMarker host (nativePath place [markerName]) marker).run ⟨patched, false⟩ =
        (.ok (), ⟨marked, false⟩) ∧
      CopiedTo disk dir plan data raw marked place ∧
      ∀ path, ¬ place <+: path → marked.node? path = copied.node? path := by
  have hoff : ∀ relative, relative ≠ plan.metadataPath →
      patched.node? (place ++ relative) = disk.node? (dir ++ relative) := by
    intro relative hne
    rw [hpatched, if_neg (by simpa using hne), hcopied]
  have hnil : [] ≠ plan.metadataPath := Ne.symm (metadataPath_ne_nil h.original h.node?)
  have hdirectory : patched.node? place = some .directory := by
    have htop := hoff [] hnil
    rwa [List.append_nil, List.append_nil, h.original.directory] at htop
  have hnone : patched.node? (place ++ [markerName]) = none := (hoff _ h.marker_ne).trans hfree
  have hdirect : patched.Direct (place ++ [markerName]) := by
    apply (Tree.direct_of_node? hdirectory id).concat
    intro node hnode
    rw [hnone] at hnode
    cases hnode
  have hhosts : patched.Hosts (place ++ [markerName]) :=
    ⟨by simp, by rwa [List.dropLast_concat]⟩
  obtain ⟨marked, hwrite, hmarked⟩ := writeBytes_of_direct raw hdirect hhosts
    (by rw [hnone]; simp)
  refine ⟨marked, writeMarker_run_eq_ok.2 ⟨raw, marked, hraw, hwrite, rfl⟩, ?_, ?_⟩
  · intro relative
    rw [hmarked]
    by_cases hsame : relative = plan.metadataPath
    · have hapart : place ++ relative ≠ place ++ [markerName] := by
        rw [hsame]
        simpa using Ne.symm h.marker_ne
      rw [if_neg hapart, if_pos hsame, hpatched, hsame, if_pos rfl]
    · by_cases hplace : relative = [markerName]
      · rw [if_neg hsame, if_pos hplace, hplace, if_pos rfl]
      · rw [if_neg hsame, if_neg hplace, if_neg (by simpa using hplace), hoff _ hsame]
  · intro path hpath
    have hmarker : path ≠ place ++ [markerName] := by
      intro heq
      exact hpath (heq ▸ List.prefix_append _ _)
    have hmetadata : path ≠ place ++ plan.metadataPath := by
      intro heq
      exact hpath (heq ▸ List.prefix_append _ _)
    rw [hmarked, if_neg hmarker, hpatched, if_neg hmetadata]

/-- The temporary path does not lie on the way to the output if a directory does. -/
theorem Publishable.apart (h : Publishable disk plan hex dir out base)
    (hadmitted : Admitted host disk source output root dir out base) :
    ¬ temporaryPath base out hex <+: out := by
  intro hpre
  have hnot : ¬ out <+: temporaryPath base out hex :=
    not_prefix_temporaryPath hadmitted.below hadmitted.strictly
  have hlt : (temporaryPath base out hex).length < out.length := by
    by_contra hge
    have hsame := hpre.eq_of_length_le (by omega)
    rw [hsame] at hnot
    exact hnot (List.prefix_refl out)
  have hup : temporaryPath base out hex <+: out.dropLast := by
    apply List.prefix_of_prefix_length_le hpre (List.dropLast_prefix out)
    rw [List.length_dropLast]
    omega
  rcases h.parent with hbase | hdirectory
  · exact not_temporaryPath_prefix (hbase ▸ hup)
  · obtain ⟨low, hlow⟩ := hup
    have hnone := Branch.node?_append_of_none (r := low) h.temporary
    rw [hlow, hdirectory] at hnone
    cases hnone

/-- The copy is renamed into place. -/
theorem Admissible.rename_run (h : Admissible host disk source output manifestPath root plan dir out
      base file manifest data) (hpublish : Publishable disk plan hex dir out base)
    (hmade : Made base disk made) (hbase : made.node? base = some .directory)
    (hcopied : CopiedTo disk dir plan data raw marked (temporaryPath base out hex))
    (houtside : ∀ path, ¬ temporaryPath base out hex <+: path →
      marked.node? path = made.node? path) :
    ∃ moved, marked.rename (temporaryPath base out hex) out = .ok moved ∧
      CopiedTo disk dir plan data raw moved out ∧
      ∀ path, ¬ temporaryPath base out hex <+: path → ¬ out <+: path →
        moved.node? path = made.node? path := by
  have hapart := hpublish.apart h.admitted
  have hup : ¬ temporaryPath base out hex <+: out.dropLast := not_prefix_dropLast hapart
  have htop : marked.node? (temporaryPath base out hex) ≠ none := by
    have hnode := hcopied plan.metadataPath
    rw [if_pos rfl] at hnode
    intro hnone
    rw [Branch.node?_append_of_none hnone] at hnode
    cases hnode
  have hfree : marked.node? out = none := by
    rw [houtside out hapart, hmade.node?_outside, h.admitted.fresh]
    exact h.admitted.not_prefix_base (.inl (List.prefix_refl out))
  have hparent : marked.node? out.dropLast = some .directory := by
    rw [houtside _ hup]
    rcases hpublish.parent with hsame | hdirectory
    · rw [hsame]
      exact hbase
    · rcases hmade out.dropLast with hsame | hnew
      · rw [hsame]
        exact hdirectory
      · exact hnew.2.2
  have hhosts : marked.Hosts out := ⟨h.admitted.output_ne_nil, hparent⟩
  refine ⟨_, Disk.rename_eq_ok.mpr ⟨htop, hapart, hfree, hhosts, rfl⟩, ?_, ?_⟩
  · have hhosts' : (marked.replace (temporaryPath base out hex) .empty).Hosts out := by
      refine ⟨hhosts.1, ?_⟩
      rw [Tree.node?_replace_outside hup]
      exact hparent
    intro relative
    rw [Tree.node?_replace hhosts', Branch.node?_below]
    exact hcopied relative
  · intro path hpath hout
    rw [Tree.node?_replace_outside hout, Tree.node?_replace_outside hpath]
    exact houtside path hpath

/-- Neither the temporary path nor the output lies on the way to what was there before. -/
theorem Admissible.untouched (h : Admissible host disk source output manifestPath root plan dir out
      base file manifest data) (hnone : disk.node? (temporaryPath base out hex) = none)
    {path : List FileName} (hpath : (disk.node? path).isSome) :
    ¬ temporaryPath base out hex <+: path ∧ ¬ out <+: path := by
  have habsent : ∀ top, disk.node? top = none → ¬ top <+: path := by
    intro top htop hpre
    obtain ⟨low, rfl⟩ := hpre
    rw [Branch.node?_append_of_none htop] at hpath
    cases hpath
  exact ⟨habsent _ hnone, habsent _ h.admitted.fresh⟩

/-- Nothing at or below the source lies below the temporary path or the output. -/
theorem Admissible.apart_branch (h : Admissible host disk source output manifestPath root plan dir
      out base file manifest data) (hnone : disk.node? (temporaryPath base out hex) = none)
    (low : List FileName) :
    ¬ temporaryPath base out hex <+: dir ++ low ∧ ¬ out <+: dir ++ low := by
  have hdir := h.untouched hnone (by rw [h.original.directory]; rfl : (disk.node? dir).isSome)
  constructor
  · intro hpre
    rcases List.prefix_or_prefix_of_prefix hpre (List.prefix_append dir low) with hup | hdown
    · exact hdir.1 hup
    · rcases List.prefix_concat_iff.mp hdown with hsame | hbase
      · exact hdir.1 (hsame ▸ List.prefix_refl dir)
      · exact h.admitted.apart (hbase.trans h.admitted.below)
  · intro hpre
    rcases List.prefix_or_prefix_of_prefix hpre (List.prefix_append dir low) with hup | hdown
    · exact hdir.2 hup
    · exact h.admitted.apart hdown

theorem not_exists?_temporaryPath (hbase : made.node? base = some .directory)
    (hnone : made.node? (temporaryPath base out hex) = none) :
    ¬ made.exists? (temporaryPath base out hex) := by
  have hdirect : made.Direct (temporaryPath base out hex) := by
    apply (Tree.direct_of_node? hbase id).concat
    intro node hnode
    change made.node? (temporaryPath base out hex) = some node at hnode
    rw [hnone] at hnode
    cases hnode
  unfold Disk.exists?
  rw [Disk.stat_of_direct hdirect, hnone]
  simp

variable {start t : CopyState}

theorem Admissible.verified_dir (h : Admissible host disk source output manifestPath root plan dir
      out base file manifest data) (hsame : SameBranch disk moved dir) :
    verifyOriginalClient host moved (.absolute dir) manifest plan = .ok () := by
  have htree := h.original.same hsame
  exact htree.verify (Disk.resolve_absolute (Tree.direct_of_node? htree.directory id))

/-- From the conditions to the published copy, stage by stage. -/
theorem Admissible.run_of_publishable (h : Admissible host start.disk source output manifestPath
      root plan dir out base file manifest data)
    (hjson : ∀ marker, markerPayload host start.disk (.absolute file) plan = .ok marker →
      JsonKeeps host marker)
    (hpublish : Publishable start.disk plan hex dir out base) :
    ∃ t, (createPatchedCopy host .none hex source output manifestPath plan root).run start =
      (.ok (), t) := by
  obtain ⟨made, hrun⟩ := makeRoot_run_of_rootFree hpublish.root
  obtain ⟨-, hmade, hbase, -⟩ := makeRoot_run_ok hrun
  obtain ⟨content, hcontent⟩ := h.manifest_node?
  obtain ⟨mdata, hmdata⟩ := readBytes_of_loadManifest h.loaded
  obtain ⟨marker, hpayload⟩ := markerPayload_of_ascii hmdata hpublish.endpoints.1
    hpublish.endpoints.2
  have hkeeps := hjson marker hpayload
  obtain ⟨raw, hraw, -, -⟩ := hkeeps.encodes
  obtain ⟨copied, hcopy, hcopied, houtside⟩ := h.copytree_run hmade hbase hpublish.temporary
  obtain ⟨patched, hpatch, hpatched⟩ := h.patch_run hcopied
  obtain ⟨marked, hmark, hmarked, hmarkedOutside⟩ :=
    h.marker_run hraw hcopied hpatched hpublish.marker
  have hkept : ∀ path, ¬ temporaryPath base out hex <+: path →
      marked.node? path = made.disk.node? path := by
    intro path hpath
    rw [hmarkedOutside path hpath, houtside path hpath]
  obtain ⟨moved, hmove, hmoved, hmovedOutside⟩ := h.rename_run hpublish hmade hbase hmarked hkept
  have hfile := h.untouched hpublish.temporary (by rw [hcontent]; rfl : (_ : Option _).isSome)
  have hmadeFile : made.disk.node? file = start.disk.node? file := by
    rcases hmade file with hsame | hnew
    · exact hsame
    · rw [hcontent] at hnew
      cases hnew.2.1
  have hpatchedFile : patched.node? file = start.disk.node? file := by
    have hne : file ≠ temporaryPath base out hex ++ plan.metadataPath := by
      intro heq
      exact hfile.1 (heq ▸ List.prefix_append _ _)
    rw [hpatched, if_neg hne, houtside file hfile.1, hmadeFile]
  have hpayload' : markerPayload host patched (.absolute file) plan = .ok marker := by
    have hsame := @manifest_same host start.disk patched plan file _ hcontent id
      (hpatchedFile.trans hcontent)
    exact hsame.2.trans hpayload
  have hverified := h.verify_copy hkeeps hpayload hraw hmarked prefix_temporaryPath
    ne_temporaryPath ((hkept file hfile.1).trans hmadeFile)
  have hpublished := h.verify_copy hkeeps hpayload hraw hmoved h.admitted.below h.admitted.strictly
    ((hmovedOutside file hfile.1 hfile.2).trans hmadeFile)
  have horiginal : SameBranch start.disk moved dir := by
    intro low
    obtain ⟨htemporary, hout⟩ := h.apart_branch hpublish.temporary low
    rw [hmovedOutside _ htemporary hout]
    exact hmade.sameBranch (h.admitted.not_prefix_base (.inr (List.prefix_refl dir))) low
  have hfree : ¬ made.disk.exists? (temporaryPath base out hex) :=
    not_exists?_temporaryPath hbase
      ((hmade.node?_outside not_temporaryPath_prefix).trans hpublish.temporary)
  refine ⟨⟨moved, true⟩, createPatchedCopy_run_ok_iff.2 ⟨dir, out, base, file, manifest, made,
    h.admitted, h.manifestFile, h.loaded, h.verified_dir fun _ => rfl, hrun, hfree,
    publishCopy_run_eq_ok.2 ⟨⟨copied, false⟩, ⟨patched, false⟩, ⟨marked, false⟩, marker, moved,
      ⟨hcopy, hpatch, hpayload', hmark, hverified, hmove, hpublished,
        h.verified_dir horiginal⟩, rfl⟩⟩⟩

/-- What a run that has come to its end says about the disk it began with. -/
theorem Admissible.publishable_of_run (h : Admissible host start.disk source output manifestPath
      root plan dir out base file manifest data)
    (hrun : (createPatchedCopy host .none hex source output manifestPath plan root).run start =
      (.ok (), t)) : Publishable start.disk plan hex dir out base := by
  obtain ⟨dir', out', base', file', manifest', made, hadmitted, -, -, -, hmakeRoot, -, hpublish⟩ :=
    createPatchedCopy_run_ok_iff.1 hrun
  obtain rfl := Except.ok.inj (h.admitted.source.symm.trans hadmitted.source)
  obtain rfl := Except.ok.inj (h.admitted.output.symm.trans hadmitted.output)
  obtain rfl := Except.ok.inj (h.admitted.root.symm.trans hadmitted.root)
  obtain ⟨-, hmade, hbase, hfree⟩ := makeRoot_run_ok hmakeRoot
  obtain ⟨copied, patched, marked, marker, after, hstages, -⟩ := publishCopy_run_eq_ok.1 hpublish
  have hnone : start.disk.node? (temporaryPath base out hex) = none := by
    rw [← hmade.node?_outside not_temporaryPath_prefix]
    exact (copytree_run_eq_ok.1 hstages.copying).1
  obtain ⟨copied', hcopy, hcopied, houtside⟩ := h.copytree_run hmade hbase hnone
  obtain rfl : copied = ⟨copied', false⟩ := congrArg Prod.snd (hstages.copying.symm.trans hcopy)
  obtain ⟨patched', hpatch, hpatched⟩ := h.patch_run hcopied
  obtain rfl : patched = ⟨patched', false⟩ :=
    congrArg Prod.snd (hstages.patching.symm.trans hpatch)
  obtain ⟨raw, disk, hraw, hwrite, -⟩ := writeMarker_run_eq_ok.1 hstages.marking
  have hmarker : start.disk.node? (dir ++ [markerName]) = none := by
    refine h.marker_cases.resolve_right fun hdirectory => ?_
    have hapart : temporaryPath base out hex ++ [markerName] ≠
        temporaryPath base out hex ++ plan.metadataPath := by
      simpa using h.marker_ne
    have hplace : patched'.node? (temporaryPath base out hex ++ [markerName]) =
        some .directory := by
      rw [hpatched, if_neg hapart, hcopied, hdirectory]
    exact not_writeBytes_of_directory hplace hwrite
  obtain ⟨marked', hmark, -, hmarkedOutside⟩ := h.marker_run hraw hcopied hpatched hmarker
  obtain rfl : marked = ⟨marked', false⟩ := congrArg Prod.snd (hstages.marking.symm.trans hmark)
  have hparent : out.dropLast = base ∨ start.disk.node? out.dropLast = some .directory := by
    by_cases hsame : out.dropLast = base
    · exact .inl hsame
    · right
      obtain ⟨-, hapart, -, hhosts, -⟩ := Disk.rename_eq_ok.mp hstages.moving
      have hup : ¬ temporaryPath base out hex <+: out.dropLast := not_prefix_dropLast hapart
      have hoff : ¬ out.dropLast <+: base := by
        intro hpre
        apply hsame
        have hlength := h.admitted.below.length_le
        have hstrict : base.length ≠ out.length := by
          intro heq
          exact h.admitted.strictly (h.admitted.below.eq_of_length heq)
        apply hpre.eq_of_length_le
        rw [List.length_dropLast]
        omega
      rw [← hmade.node?_outside hoff, ← houtside _ hup, ← hmarkedOutside _ hup]
      exact hhosts.2
  exact ⟨hfree, hparent, markerPayload_eq_ok hstages.payload, hmarker, hnone⟩

end

theorem Admissible.publishable_of_ok {host : Host} {hex : FileName}
    {source output manifestPath root : PurePosixPath} {plan : PatchPlan}
    {dir out base file : List FileName} {manifest : Manifest} {data : Bytes} (start : CopyState)
    (h : Admissible host start.disk source output manifestPath root plan dir out base file manifest
      data)
    (hok : ((createPatchedCopy host .none hex source output manifestPath plan root).run start).1 =
      .ok ()) : Publishable start.disk plan hex dir out base :=
  h.publishable_of_run (Prod.ext hok rfl)

/-- Under checks that pass and a plan that fits, creating the copy succeeds exactly if the output's
directory exists or is the root, the root can be made, the endpoints are ASCII, and no directory is
in the marker's or the temporary copy's way. -/
theorem createPatchedCopy_succeeds_iff (host : Host) (hex : FileName)
    (source output manifestPath : PurePosixPath) (plan : PatchPlan) (root : PurePosixPath)
    (start : CopyState) (dir out base file : List FileName) (manifest : Manifest) (data : Bytes)
    (h : Admissible host start.disk source output manifestPath root plan dir out base file manifest
      data)
    (hjson : ∀ marker, markerPayload host start.disk (.absolute file) plan = .ok marker →
      JsonKeeps host marker) :
    ((createPatchedCopy host .none hex source output manifestPath plan root).run start).1 = .ok () ↔
      Publishable start.disk plan hex dir out base := by
  constructor
  · exact Admissible.publishable_of_ok start h
  · intro hpublish
    obtain ⟨t, ht⟩ := h.run_of_publishable hjson hpublish
    rw [ht]

namespace Sample

/-- A right source and manifest, and a build directory without anything in it. -/
def ready : Disk where
  entries := [([], .directory), ([client], .directory), ([client, m], .file [97]),
    ([hashes], .file manifestBytes), ([build], .directory)]
  nodup := by decide +kernel
  rooted := by decide +kernel
  root := by decide +kernel

def manifest : Manifest where
  entries := [([m], originalSha256)]
  nodup := by decide +kernel
  digests := by decide +kernel
  nonempty := by simp

theorem loadManifest_ready : loadManifest ready [] (.absolute [hashes]) = .ok manifest := by
  have hentries : (loadManifest ready [] (.absolute [hashes])).map (fun found =>
      found.entries) = .ok manifest.entries := by
    decide +kernel
  cases hmanifest : loadManifest ready [] (.absolute [hashes]) with
  | error e =>
    rw [hmanifest] at hentries
    cases hentries
  | ok found =>
    rw [hmanifest] at hentries
    exact congrArg Except.ok (Manifest.eq_of_entries (Except.ok.inj hentries))

theorem admissible {output : PurePosixPath} {out : List FileName}
    (hadmitted : Admitted host ready (.absolute [client]) output (.absolute [build]) [client] out
      [build]) :
    Admissible host ready (.absolute [client]) output (.absolute [hashes]) (.absolute [build]) plan
      [client] out [build] [hashes] manifest [97] :=
  ⟨hadmitted, by decide +kernel, loadManifest_ready, by decide +kernel, by decide +kernel,
    by decide +kernel, by decide +kernel, by decide +kernel, by decide +kernel⟩

theorem jsonKeeps (marker : MarkerPayload)
    (h : markerPayload host ready (.absolute [hashes]) plan = .ok marker) :
    JsonKeeps host marker := by
  have hpayload : markerPayload host ready (.absolute [hashes]) plan = .ok payload := by
    decide +kernel
  obtain rfl := Except.ok.inj (hpayload.symm.trans h)
  have hloads : host.loads markerFile = .ok (some payload) := by simp only [host, if_true]
  refine ⟨?_, hloads⟩
  have hall : (host.dumps payload).all fun c => c.val < 128 && c != PyStr.carriageReturn := by
    decide +kernel
  intro c hc
  simpa using List.all_eq_true.mp hall c hc

end Sample

/-- A flat output: the copy is created. -/
theorem createPatchedCopy_succeeds_flat :
    ((createPatchedCopy Sample.host .none Sample.hex (.absolute [Sample.client])
      (.absolute [Sample.build, Sample.output]) (.absolute [Sample.hashes]) Sample.plan
      (.absolute [Sample.build])).run ⟨Sample.ready, false⟩).1 = .ok () := by
  have hadmitted : Admitted Sample.host Sample.ready (.absolute [Sample.client])
      (.absolute [Sample.build, Sample.output]) (.absolute [Sample.build]) [Sample.client]
      [Sample.build, Sample.output] [Sample.build] :=
    ⟨by decide +kernel, by decide +kernel, by decide +kernel, by decide +kernel,
      by decide +kernel, by decide +kernel, by decide +kernel⟩
  have hpublish : Publishable Sample.ready Sample.plan Sample.hex [Sample.client]
      [Sample.build, Sample.output] [Sample.build] := by
    refine ⟨?_, .inl rfl, by decide +kernel, by decide +kernel, by decide +kernel⟩
    intro path hpath
    have hpaths := (List.mem_inits path [Sample.build]).mpr hpath
    have hall : ∀ path ∈ [Sample.build].inits, Sample.ready.node? path = some .directory := by
      decide +kernel
    exact .inr (hall path hpaths)
  exact (createPatchedCopy_succeeds_iff Sample.host Sample.hex _ _ _ Sample.plan _
    ⟨Sample.ready, false⟩ _ _ _ _ _ _ (Sample.admissible hadmitted) Sample.jsonKeeps).mpr hpublish

/-- A nested output is admitted, but the rename fails, since no step makes its directory. -/
theorem createPatchedCopy_fails_nested :
    Admissible Sample.host Sample.ready (.absolute [Sample.client])
        (.absolute [Sample.build, Sample.elsewhere, Sample.output]) (.absolute [Sample.hashes])
        (.absolute [Sample.build]) Sample.plan [Sample.client]
        [Sample.build, Sample.elsewhere, Sample.output] [Sample.build] [Sample.hashes]
        Sample.manifest [97] ∧
      ((createPatchedCopy Sample.host .none Sample.hex (.absolute [Sample.client])
        (.absolute [Sample.build, Sample.elsewhere, Sample.output]) (.absolute [Sample.hashes])
        Sample.plan (.absolute [Sample.build])).run ⟨Sample.ready, false⟩).1 ≠ .ok () := by
  have hadmissible : Admissible Sample.host Sample.ready (.absolute [Sample.client])
      (.absolute [Sample.build, Sample.elsewhere, Sample.output]) (.absolute [Sample.hashes])
      (.absolute [Sample.build]) Sample.plan [Sample.client]
      [Sample.build, Sample.elsewhere, Sample.output] [Sample.build] [Sample.hashes]
      Sample.manifest [97] :=
    Sample.admissible ⟨by decide +kernel, by decide +kernel, by decide +kernel, by decide +kernel,
      by decide +kernel, by decide +kernel, by decide +kernel⟩
  refine ⟨hadmissible, fun hok => ?_⟩
  have hpublish : Publishable Sample.ready Sample.plan Sample.hex [Sample.client]
      [Sample.build, Sample.elsewhere, Sample.output] [Sample.build] :=
    Admissible.publishable_of_ok ⟨Sample.ready, false⟩ hadmissible hok
  rcases hpublish.parent with hbase | hdirectory
  · exact absurd hbase (by decide +kernel)
  · have hnone : Sample.ready.node? [Sample.build, Sample.elsewhere] = none := by decide +kernel
    exact absurd (hnone.symm.trans hdirectory) (by simp)

end Army3
