import Army3.Tools.CopyStages
import Army3.Tools.PatchedCopy

/-! Creating a copy is all or nothing. -/

namespace Army3

open Files Raising

/-- What the checks before the first change establish about the resolved paths. -/
structure Admitted (host : Host) (disk : Disk) (source output root : PurePosixPath)
    (dir out base : List FileName) : Prop where
  source : disk.resolve host.cwd source = .ok dir
  output : disk.resolve host.cwd output = .ok out
  root : disk.resolve host.cwd root = .ok base
  below : base <+: out
  strictly : base ≠ out
  apart : ¬ dir <+: out
  fresh : disk.node? out = none

/-- Before the copy is published, no failure leaves a trace but directories made for the root. -/
def Unharmed (host : Host) (source output root : PurePosixPath) (before after : Disk) : Prop :=
  after = before ∨ ∃ dir out base, Admitted host before source output root dir out base ∧
    Made base before after

section

variable {host : Host} {source output root : PurePosixPath} {dir out base : List FileName}
  {before after : Disk} {hex : FileName}

theorem temporaryPath_ne_nil : temporaryPath base out hex ≠ [] := by
  simp [temporaryPath]

/-- The temporary name is longer than the name of the output. -/
theorem not_prefix_temporaryPath (hbelow : base <+: out) (hne : base ≠ out) :
    ¬ out <+: temporaryPath base out hex := by
  intro hpre
  obtain ⟨low, rfl⟩ := hbelow
  have hlow : low ≠ [] := by
    intro hnil
    exact hne (by rw [hnil, List.append_nil])
  have hshort := (List.prefix_append_right_inj base).mp hpre
  generalize hname : temporaryName (base ++ low) hex = name at hshort
  have hpos := List.length_pos_of_ne_nil hlow
  obtain rfl : low = [name] := hshort.eq_of_length_le (Nat.succ_le_of_lt hpos)
  have hlast : lastName (base ++ [name]) = name.text := by simp [lastName]
  have hlength := congrArg (fun found => found.text.length) hname
  simp only [temporaryName, hlast, List.length_cons, List.length_append] at hlength
  omega

/-- The four checks, one by one. -/
theorem admitted_iff : Admitted host before source output root dir out base ↔
    before.resolve host.cwd source = .ok dir ∧
      ensureOutputIsSafe host before output root = .ok (out, base) ∧
      ¬ (dir = out ∨ dir ∈ parents out) ∧ ¬ before.exists? out := by
  have hexists : before.resolve host.cwd output = .ok out →
      (before.exists? out = true ↔ before.node? out ≠ none) := by
    intro hout
    unfold Disk.exists?
    rw [Disk.stat_of_direct (Disk.direct_of_resolve hout), Option.isSome_iff_ne_none]
  rw [ensureOutputIsSafe_eq_ok, mem_parents]
  constructor
  · intro h
    refine ⟨h.source, ⟨h.output, h.root, h.below, h.strictly⟩, ?_, ?_⟩
    · intro hall
      rcases hall with hsame | hpre
      · exact h.apart (hsame ▸ List.prefix_refl dir)
      · exact h.apart hpre.1
    · rw [hexists h.output]
      exact not_not.mpr h.fresh
  · intro hall
    obtain ⟨hsource, ⟨houtput, hroot, hbelow, hstrictly⟩, hapart, hfresh⟩ := hall
    refine ⟨hsource, houtput, hroot, hbelow, hstrictly, ?_, ?_⟩
    · intro hpre
      by_cases hsame : dir = out
      · exact hapart (.inl hsame)
      · exact hapart (.inr ⟨hpre, hsame⟩)
    · rw [hexists houtput] at hfresh
      exact not_not.mp hfresh

theorem Admitted.output_ne_nil (h : Admitted host before source output root dir out base) :
    out ≠ [] := by
  intro hnil
  have hbase := h.below
  rw [hnil, List.prefix_nil] at hbase
  exact h.strictly (hbase.trans hnil.symm)

theorem Admitted.not_prefix_base (h : Admitted host before source output root dir out base)
    {path : List FileName} (hpath : out <+: path ∨ dir <+: path) : ¬ path <+: base := by
  intro hbase
  rcases hpath with hout | hdir
  · exact h.strictly (h.below.eq_of_length_le (hout.trans hbase).length_le)
  · exact h.apart ((hdir.trans hbase).trans h.below)

/-- Making the root leaves everything alone that does not lie on the way to it. -/
theorem Made.node?_outside {path : List FileName} (h : Made base before after)
    (hpath : ¬ path <+: base) : after.node? path = before.node? path :=
  (h path).resolve_right fun hmade => hpath hmade.1

theorem Made.trans_same {middle : Disk} (h : Made base before middle)
    (hsame : ∀ path, after.node? path = middle.node? path) : Made base before after := by
  intro path
  rw [hsame path]
  exact h path

section

variable {α β : Type} {post : β → CopyState → Prop} {fail : CopyState → Prop}
  {f : α → Copying β} {fault : Option ToolError} {read : Disk → Except ToolError α}

/-- A check of a known disk, and what comes after it. -/
theorem bind_reading_runs (hfail : ∀ s : CopyState, s.disk = before → fail s)
    (h : ∀ a, read before = .ok a → Runs (fun s => s.disk = before) (f a) post fail) :
    Runs (fun s => s.disk = before) (reading fault read >>= f) post fail := by
  have hread : Runs (fun s : CopyState => s.disk = before) (reading fault read)
      (fun a s => s.disk = before ∧ read before = .ok a) fail := by
    apply reading_runs.weaken (fun _ hs => hs) _ hfail
    intro a s hs
    exact ⟨hs.1, hs.1 ▸ hs.2⟩
  apply hread.bind
  intro a s hs
  exact h a hs.2 s hs.1

end

/-- What stands at the temporary path, an unreadable link say, stops the copy before it begins. -/
theorem publishCopy_refused {faults : Faults} {temporary : List FileName}
    {manifestPath : PurePosixPath} {manifest : Manifest} {plan : PatchPlan}
    (hoccupied : before.node? temporary ≠ none) :
    Runs (fun s => s.published = false ∧ s.disk = before)
      (publishCopy host faults dir temporary out base manifestPath manifest plan)
      (fun _ _ => False) (fun s => s.published = false ∧ s.disk = before) := by
  have hcopy : Runs (fun s : CopyState => s.published = false ∧ s.disk = before)
      (copytree faults.copytree dir temporary) (fun _ _ => False)
      (fun s => s.published = false ∧ s.disk = before) := by
    intro s hs
    unfold copytree
    rw [run_get_bind, if_pos (.inl (by rw [hs.2]; exact hoccupied))]
    exact hs
  unfold publishCopy
  apply hcopy.bind
  exact fun _ _ hs => absurd hs id

/-- From the check of the temporary path on: either all is as it was, or the copy is done. -/
theorem publish_runs {faults : Faults} {manifestPath : PurePosixPath} {manifest : Manifest}
    {plan : PatchPlan} (hout : out ≠ []) (hfresh : before.node? out = none)
    (hbelow : base <+: out) (hne : base ≠ out)
    (hnotemporary : ¬ before.exists? (temporaryPath base out hex)) :
    Runs (fun s => s.published = false ∧ s.disk = before)
      (tryCatch (publishCopy host faults dir (temporaryPath base out hex) out base manifestPath
        manifest plan) (cleanUp (temporaryPath base out hex) out))
      (fun _ s => before.node? (temporaryPath base out hex) = none ∧
        Done host dir out base manifestPath manifest plan before s.disk)
      (fun s => ∀ path, s.disk.node? path = before.node? path) := by
  by_cases hnone : before.node? (temporaryPath base out hex) = none
  · apply ((publishCopy_runs hnone).weaken (fun _ hs => hs) (fun _ _ hs => ⟨hnone, hs⟩)
      (fun _ hs => hs)).tryCatch
    intro error
    exact cleanUp_runs temporaryPath_ne_nil hout hnone hfresh (not_prefix_temporaryPath hbelow hne)
  · apply ((publishCopy_refused hnone).weaken (fun _ hs => hs) (fun _ _ hs => absurd hs id)
      (fun _ hs => hs)).tryCatch
    intro error s hs
    obtain ⟨disk, published⟩ := s
    obtain ⟨hflag, hdisk⟩ := hs
    obtain rfl : published = false := hflag
    obtain rfl : disk = before := hdisk
    have hrun : (cleanUp (temporaryPath base out hex) out error).run ⟨disk, false⟩ =
        (.error error, ⟨disk.removeIfExists (temporaryPath base out hex), false⟩) := rfl
    rw [hrun]
    unfold Disk.removeIfExists
    simp [hnotemporary]

/-- What holds of a copy that has been created. -/
structure Created (host : Host) (hex : FileName) (source output manifestPath root : PurePosixPath)
    (plan : PatchPlan) (before after : Disk) (dir out base file : List FileName)
    (manifest : Manifest) : Prop where
  admitted : Admitted host before source output root dir out base
  manifestFile : before.resolve host.cwd manifestPath = .ok file
  loaded : loadManifest before host.cwd (.absolute file) = .ok manifest
  verified : verifyOriginalClient host before (.absolute dir) manifest plan = .ok ()
  published : ∃ made, Made base before made ∧ made.node? (temporaryPath base out hex) = none ∧
    Done host dir out base (.absolute file) manifest plan made after

/-- Every run of `create_patched_copy` either leaves no trace or creates the copy. -/
theorem createPatchedCopy_runs (host : Host) (faults : Faults) (hex : FileName)
    (source output manifestPath : PurePosixPath) (plan : PatchPlan) (root : PurePosixPath)
    (before : Disk) :
    Runs (fun s => s.disk = before)
      (createPatchedCopy host faults hex source output manifestPath plan root)
      (fun _ s => ∃ dir out base file manifest,
        Created host hex source output manifestPath root plan before s.disk dir out base file
          manifest)
      (fun s => Unharmed host source output root before s.disk) := by
  have huntouched : ∀ s : CopyState, s.disk = before →
      Unharmed host source output root before s.disk := fun s hs => .inl hs
  unfold createPatchedCopy
  apply bind_reading_runs huntouched
  intro dir hdir
  apply bind_reading_runs huntouched
  intro pair hpair
  obtain ⟨out, base⟩ := pair
  obtain ⟨hout, hbase, hbelow, hne⟩ := ensureOutputIsSafe_eq_ok.mp hpair
  apply bind_reading_runs huntouched
  intro file hfile
  apply bind_reading_runs huntouched
  intro _ hguards
  simp only [except_bind_eq_ok, refuseIf_eq_ok, exists_const] at hguards
  apply bind_reading_runs huntouched
  intro manifest hmanifest
  apply bind_reading_runs huntouched
  intro _ hverified
  have hadmitted : Admitted host before source output root dir out base :=
    admitted_iff.mpr ⟨hdir, hpair, hguards.1, hguards.2⟩
  have hmade : Runs (fun s : CopyState => s.disk = before) (makeRoot faults.makeRoot base)
      (fun _ s => Made base before s.disk)
      (fun s => Unharmed host source output root before s.disk) := by
    apply makeRoot_runs.weaken _ (fun _ _ hs => hs)
    · exact fun s hs => .inr ⟨dir, out, base, hadmitted, hs⟩
    · intro s hs
      rw [hs]
      exact Made.refl
  apply hmade.bind
  intro _
  apply Runs.of_states
  intro start hstart
  have hleft : ∀ s : CopyState, s.disk = start.disk →
      Unharmed host source output root before s.disk := by
    intro s hs
    exact .inr ⟨dir, out, base, hadmitted, hs ▸ hstart⟩
  have hfresh : start.disk.node? out = none := by
    rw [hstart.node?_outside (hadmitted.not_prefix_base (.inl (List.prefix_refl out)))]
    exact hadmitted.fresh
  have htail : Runs (fun s => s.disk = start.disk) (do
      reading none fun disk =>
        refuseIf (disk.exists? (temporaryPath base out hex))
          (PyStr.lit "temporary output unexpectedly exists: " ++
            (PurePosixPath.absolute (temporaryPath base out hex)).str)
      modify fun state => { state with published := false }
      tryCatch (publishCopy host faults dir (temporaryPath base out hex) out base (.absolute file)
        manifest plan) (cleanUp (temporaryPath base out hex) out))
      (fun _ s => ∃ dir out base file manifest,
        Created host hex source output manifestPath root plan before s.disk dir out base file
          manifest)
      (fun s => Unharmed host source output root before s.disk) := by
    apply bind_reading_runs hleft
    intro _ hnotemporary
    have hflag : Runs (fun s : CopyState => s.disk = start.disk)
        (modify fun state => { state with published := false } : Copying Unit)
        (fun _ s => s.published = false ∧ s.disk = start.disk)
        (fun s => Unharmed host source output root before s.disk) := fun s hs => ⟨rfl, hs⟩
    apply hflag.bind
    intro _
    apply (publish_runs hadmitted.output_ne_nil hfresh hbelow hne
      (refuseIf_eq_ok.mp hnotemporary)).weaken (fun _ hs => hs)
    · intro _ s hs
      exact ⟨dir, out, base, file, manifest, hadmitted, hfile, hmanifest, hverified,
        start.disk, hstart, hs.1, hs.2⟩
    · intro s hs
      exact .inr ⟨dir, out, base, hadmitted, hstart.trans_same hs⟩
  exact htail.weaken (fun s hs => hs ▸ rfl) (fun _ _ hs => hs) (fun _ hs => hs)

/-- At a path and below it nothing is different. -/
def SameBranch (before after : Disk) (path : List FileName) : Prop :=
  ∀ low, after.node? (path ++ low) = before.node? (path ++ low)

theorem Made.sameBranch {path : List FileName} (h : Made base before after)
    (hpath : ¬ path <+: base) : SameBranch before after path := by
  intro low
  apply h.node?_outside
  exact fun hin => hpath ((List.prefix_append path low).trans hin)

/-- The source of a copy is neither the output nor inside it. -/
theorem Created.not_prefix_source {manifestPath : PurePosixPath} {plan : PatchPlan}
    {file : List FileName} {manifest : Manifest}
    (h : Created host hex source output manifestPath root plan before after dir out base file
      manifest) : ¬ out <+: dir := by
  intro hin
  have hdirect := Disk.direct_of_resolve h.admitted.source
  obtain ⟨found, hfound, htree⟩ := originalTree_of_verify h.verified
  rw [Disk.resolve_absolute hdirect] at hfound
  obtain rfl := Except.ok.inj hfound
  obtain ⟨low, hlow⟩ := hin
  have hnone := Branch.node?_append_of_none (r := low) h.admitted.fresh
  rw [hlow, htree.directory] at hnone
  cases hnone

end

/-- Creating a copy is all or nothing. A failure leaves the source, the output and the temporary
path as they were, the latter empty unless the call has found something there; a success leaves the
verified copy, no temporary directory, and the verified source as it was. -/
theorem createPatchedCopy_all_or_nothing (host : Host) (faults : Faults) (hex : FileName)
    (source output manifestPath : PurePosixPath) (plan : PatchPlan) (root : PurePosixPath)
    (start : CopyState) :
    match (createPatchedCopy host faults hex source output manifestPath plan root).run start with
    | (.error _, after) =>
      (∀ dir, start.disk.resolve host.cwd source = .ok dir →
        SameBranch start.disk after.disk dir) ∧
      (∀ out, start.disk.resolve host.cwd output = .ok out →
        SameBranch start.disk after.disk out) ∧
      (∀ out base, start.disk.resolve host.cwd output = .ok out →
        start.disk.resolve host.cwd root = .ok base →
        SameBranch start.disk after.disk (temporaryPath base out hex))
    | (.ok (), after) => ∃ dir out base file manifest,
      start.disk.resolve host.cwd source = .ok dir ∧
      start.disk.resolve host.cwd output = .ok out ∧
      start.disk.resolve host.cwd root = .ok base ∧
      start.disk.resolve host.cwd manifestPath = .ok file ∧
      loadManifest start.disk host.cwd (.absolute file) = .ok manifest ∧
      after.disk.node? out = some .directory ∧
      verifyPatchedCopy host after.disk (.absolute out) (.absolute file) plan (.absolute base) =
        .ok () ∧
      after.disk.node? (temporaryPath base out hex) = none ∧
      SameBranch start.disk after.disk dir ∧
      verifyOriginalClient host after.disk (.absolute dir) manifest plan = .ok () := by
  have hruns := createPatchedCopy_runs host faults hex source output manifestPath plan root
    start.disk start rfl
  cases hrun :
    (createPatchedCopy host faults hex source output manifestPath plan root).run start with
  | mk result after =>
    rw [hrun] at hruns
    cases result with
    | ok done =>
      obtain ⟨dir, out, base, file, manifest, hcreated⟩ := hruns
      have hadmitted := hcreated.admitted
      obtain ⟨made, hmade, hnone, hdone⟩ := hcreated.published
      refine ⟨dir, out, base, file, manifest, hadmitted.source, hadmitted.output, hadmitted.root,
        hcreated.manifestFile, hcreated.loaded, hdone.moved.directory, hdone.copy, ?_, ?_,
        hdone.original⟩
      · rw [hdone.moved.outside _ (not_prefix_temporaryPath hadmitted.below hadmitted.strictly)]
        exact hnone
      · intro low
        have hapart : ¬ out <+: dir ++ low := by
          intro hin
          rcases List.prefix_or_prefix_of_prefix hin (List.prefix_append dir low) with h | h
          · exact hcreated.not_prefix_source h
          · exact hadmitted.apart h
        rw [hdone.moved.outside _ hapart]
        exact hmade.sameBranch (hadmitted.not_prefix_base (.inr (List.prefix_refl dir))) low
    | error e =>
      rcases hruns with hsame | ⟨dir, out, base, hadmitted, hmade⟩
      · simp only [hsame]
        exact ⟨fun _ _ _ => rfl, fun _ _ _ => rfl, fun _ _ _ _ _ => rfl⟩
      · refine ⟨?_, ?_, ?_⟩
        · intro dir' hdir'
          obtain rfl := Except.ok.inj (hadmitted.source.symm.trans hdir')
          exact hmade.sameBranch (hadmitted.not_prefix_base (.inr (List.prefix_refl dir)))
        · intro out' hout'
          obtain rfl := Except.ok.inj (hadmitted.output.symm.trans hout')
          exact hmade.sameBranch (hadmitted.not_prefix_base (.inl (List.prefix_refl out)))
        · intro out' base' hout' hbase'
          obtain rfl := Except.ok.inj (hadmitted.root.symm.trans hbase')
          apply hmade.sameBranch
          intro hin
          have hlength := hin.length_le
          simp only [temporaryPath, List.length_append, List.length_singleton] at hlength
          omega

namespace Sample

def client : FileName := named 's' (by decide)

/-- `uuid4().hex` -/
def hex : FileName where
  text := PyStr.ofChars (Nat.toDigits 16 0xc0ffee00c0ff4e00a0ffee00c0ffee00)
  valid := by decide +kernel

/-- A right source and manifest, and a directory at the temporary path that the call will choose. -/
def occupied : Disk where
  entries := [([], .directory), ([client], .directory), ([client, m], .file [97]),
    ([hashes], .file manifestBytes), ([build], .directory),
    (temporaryPath [build] [build, output] hex, .directory)]
  nodup := by decide +kernel
  rooted := by decide +kernel
  root := by decide +kernel

end Sample

/-- A temporary directory that exists before the call makes it fail, and stays. -/
theorem createPatchedCopy_leaves_existing_temporary :
    let run := (createPatchedCopy Sample.host .none Sample.hex (.absolute [Sample.client])
      (.absolute [Sample.build, Sample.output]) (.absolute [Sample.hashes]) Sample.plan
      (.absolute [Sample.build])).run ⟨Sample.occupied, false⟩
    run.1.isOk = false ∧
      run.2.disk.node? (temporaryPath [Sample.build] [Sample.build, Sample.output] Sample.hex) =
        some .directory := by
  decide +kernel

end Army3
