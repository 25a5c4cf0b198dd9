import Army3.Tools.CreateCopy

/-! The stages of a copy on the file system: what each step of `create_patched_copy` may change. -/

namespace Army3

open Files Raising

section

variable {α : Type} {pre fail : CopyState → Prop} {post : α → CopyState → Prop}

theorem atomic_runs {fault : Option ToolError} {step : Copying α} (h : Runs pre step post fail)
    (hfail : ∀ s, pre s → fail s) : Runs pre (atomic fault step) post fail := by
  cases fault with
  | none => exact h
  | some error => exact Runs.throw hfail

theorem reading_runs {fault : Option ToolError} {read : Disk → Except ToolError α} :
    Runs pre (reading fault read) (fun a s => pre s ∧ read s.disk = .ok a) pre := by
  apply atomic_runs _ (fun _ hs => hs)
  intro s hs
  rw [run_get_bind]
  cases h : read s.disk with
  | error e =>
    rw [run_liftM_of_error rfl]
    exact hs
  | ok a =>
    rw [run_liftM_of_ok rfl]
    exact ⟨hs, h⟩

theorem writing_runs {update : Disk → Except ToolError Disk} {after : CopyState → Prop}
    (h : ∀ s disk, pre s → update s.disk = .ok disk → after { s with disk := disk }) :
    Runs pre (writing update) (fun _ => after) pre := by
  intro s hs
  unfold writing
  rw [run_get_bind]
  cases hupdate : update s.disk with
  | error e =>
    rw [run_bind_of_error (run_liftM_of_error rfl s)]
    exact hs
  | ok disk =>
    rw [run_bind_of_ok (run_liftM_of_ok rfl s)]
    exact h s disk hs hupdate

theorem interrupted_runs {fault : Option (Residue × ToolError)} {temporary : List FileName}
    {step : Copying Unit} {after : Unit → CopyState → Prop} (h : Runs pre step after fail)
    (hfail : ∀ s residue, pre s →
      fail { s with disk := s.disk.replace temporary (Residue.branch residue) }) :
    Runs pre (interrupted fault temporary step) after fail := by
  cases fault with
  | none => exact h
  | some pair =>
    obtain ⟨residue, error⟩ := pair
    exact fun s hs => hfail s residue hs

end

/-- Nothing has changed but for directories made on the way to `root`. -/
def Made (root : List FileName) (before after : Disk) : Prop :=
  ∀ path, after.node? path = before.node? path ∨
    (path <+: root ∧ before.node? path = none ∧ after.node? path = some .directory)

/-- The copy under construction: nothing has changed but at `temporary`, where there is a
directory or nothing. -/
structure Staged (before : Disk) (temporary : List FileName) (after : Disk) : Prop where
  outside : ∀ path, ¬ temporary <+: path → after.node? path = before.node? path
  kind : after.node? temporary = none ∨ after.node? temporary = some .directory

/-- A copy without links stands at `temporary`. -/
structure Filled (before : Disk) (temporary : List FileName) (after : Disk) : Prop where
  outside : ∀ path, ¬ temporary <+: path → after.node? path = before.node? path
  directory : after.node? temporary = some .directory
  linkFree : (after.below temporary).LinkFree

/-- The published copy: nothing has changed but at `output`, where there is a directory. -/
structure Moved (before : Disk) (output : List FileName) (after : Disk) : Prop where
  outside : ∀ path, ¬ output <+: path → after.node? path = before.node? path
  directory : after.node? output = some .directory

section

variable {root temporary output source path : List FileName} {before disk after : Disk}

theorem Filled.staged (h : Filled before temporary after) : Staged before temporary after :=
  ⟨h.outside, .inr h.directory⟩

theorem Made.refl : Made root disk disk := fun _ => .inl rfl

theorem Made.concat (h : Made root before disk) (hpath : path <+: root)
    (hnone : disk.node? path = none) (hhosts : disk.Hosts path) :
    Made root before (disk.replace path (.single .directory)) := by
  intro other
  rw [Tree.node?_replace_single hhosts]
  by_cases hsame : other = path
  · subst hsame
    rw [if_pos rfl]
    rcases h other with heq | ⟨-, -, hdirectory⟩
    · exact .inr ⟨hpath, by rw [← heq, hnone], rfl⟩
    · rw [hnone] at hdirectory
      cases hdirectory
  · rw [if_neg hsame]
    by_cases hin : path <+: other
    · obtain ⟨low, rfl⟩ := hin
      have hbelow := Branch.node?_append_of_none (r := low) hnone
      rw [if_pos (List.prefix_append path low)]
      rcases h (path ++ low) with heq | ⟨-, -, hdirectory⟩
      · exact .inl (by rw [← heq, hbelow])
      · rw [hbelow] at hdirectory
        cases hdirectory
    · rw [if_neg hin]
      exact h other

theorem Made.makeDir (h : Made root before disk) (hpath : path <+: root)
    (hmake : disk.makeDir path = .ok after) : Made root before after := by
  rcases Disk.makeDir_eq_ok.mp hmake with ⟨-, hsame⟩ | ⟨hnone, hhosts, hnew⟩
  · rw [hsame]
    exact h
  · rw [hnew]
    exact h.concat hpath hnone hhosts

theorem makeRoot_runs {fault : Option (Nat × ToolError)} :
    Runs (fun s => Made root before s.disk) (makeRoot fault root)
      (fun _ s => Made root before s.disk) (fun s => Made root before s.disk) := by
  have hturns : ∀ paths : List (List FileName), (∀ path ∈ paths, path <+: root) →
      Runs (fun s : CopyState => Made root before s.disk)
        (paths.forM fun path => writing (·.makeDir path))
        (fun _ s => Made root before s.disk) (fun s => Made root before s.disk) := by
    intro paths hpaths
    apply Runs.forM
    intro path hpath
    apply writing_runs
    intro s disk hs hmake
    exact hs.makeDir (hpaths path hpath) hmake
  cases fault with
  | none => exact hturns _ fun path hpath => (List.mem_inits path root).mp hpath
  | some pair =>
    obtain ⟨made, error⟩ := pair
    apply (hturns (root.inits.take made) _).bind
    · exact fun _ => Runs.throw fun s hs => hs
    · intro path hpath
      exact (List.mem_inits path root).mp (List.mem_of_mem_take hpath)

theorem Filled.fault (h : Filled before temporary disk) (residue : Residue) :
    Staged before temporary (disk.replace temporary residue.branch) := by
  refine ⟨?_, ?_⟩
  · intro path hout
    rw [Tree.node?_replace_outside hout]
    exact h.outside path hout
  · by_cases hhosts : disk.Hosts temporary
    · rw [Tree.node?_replace_self hhosts]
      exact residue.kind
    · right
      unfold Tree.replace
      rw [dif_neg hhosts]
      exact h.directory

theorem place?_of_direct (h : disk.Direct path) {place : List FileName}
    (hplace : disk.place? path = some place) : place = path := by
  unfold Disk.place? at hplace
  rw [Tree.walk_of_direct h] at hplace
  by_cases hsome : (disk.node? path).isSome
  · simp only [if_pos hsome, Option.some.injEq] at hplace
    exact hplace.symm
  · simp only [if_neg hsome] at hplace
    cases hlast : path.getLast? with
    | none => simp [hlast] at hplace
    | some name =>
      obtain ⟨front, rfl⟩ := List.getLast?_eq_some_iff.mp hlast
      simp only [List.getLast?_concat, List.dropLast_concat] at hplace
      have hfront : disk.Direct front := h.upwards (List.prefix_append front [name])
      rw [Tree.walk_of_direct hfront] at hplace
      by_cases hparent : (disk.node? front).isSome
      · simp only [if_pos hparent, Option.map_some, Option.ite_none_right_eq_some,
          Option.some.injEq] at hplace
        exact hplace.2.symm
      · simp [if_neg hparent] at hplace

/-- A file written below a copy without links lands there, and the copy stays one. -/
theorem Filled.writeBytes {relative : List FileName} {data : Bytes}
    (h : Filled before temporary disk)
    (hwrite : disk.writeBytes (temporary ++ relative) data = .ok after) :
    Filled before temporary after := by
  have hdirect : disk.Direct (temporary ++ relative) :=
    (Tree.direct_of_node? h.directory id).append h.linkFree
  obtain ⟨place, hplace, hkind, hhosts, hafter⟩ := Disk.writeBytes_eq_ok.mp hwrite
  obtain rfl := place?_of_direct hdirect hplace
  have hbelow : ∀ path, ¬ temporary <+: path → ¬ temporary ++ relative <+: path :=
    fun path hout hin => hout ((List.prefix_append temporary relative).trans hin)
  have htop : ¬ temporary ++ relative <+: temporary := by
    intro hin
    have hsame := hin.eq_of_length_le (by simp)
    rw [hsame] at hkind
    exact hkind h.directory
  rw [hafter]
  refine ⟨?_, ?_, ?_⟩
  · intro path hout
    rw [Tree.node?_replace_outside (hbelow path hout)]
    exact h.outside path hout
  · rw [Tree.node?_replace_outside htop]
    exact h.directory
  · intro low node hnode
    rw [Branch.node?_below, Tree.node?_replace_single hhosts] at hnode
    split at hnode
    · obtain rfl := Option.some.inj hnode
      exact id
    · split at hnode
      · cases hnode
      · exact h.linkFree low node (by rw [Branch.node?_below]; exact hnode)

theorem Filled.ofCopy {branch : Branch FileName Bytes} (hhosts : disk.Hosts temporary)
    (hcopy : disk.treeToCopy source = .ok branch) :
    Filled disk temporary (disk.replace temporary branch) := by
  obtain ⟨hdirectory, hfree, hbranch⟩ := Disk.treeToCopy_eq_ok.mp hcopy
  refine ⟨fun path hout => Tree.node?_replace_outside hout, ?_, ?_⟩
  · rw [Tree.node?_replace_self hhosts, hbranch, Branch.node?_below, List.append_nil]
    exact hdirectory
  · intro low node hnode
    rw [Branch.node?_below, Tree.node?_replace hhosts, hbranch] at hnode
    exact hfree low node hnode

/-- The rename takes the copy away from `temporary` and puts it at `output`. -/
theorem Filled.rename (h : Filled before temporary disk) (hnone : before.node? temporary = none)
    (hrename : disk.rename temporary output = .ok after) : Moved before output after := by
  obtain ⟨-, hapart, -, hhosts, hafter⟩ := Disk.rename_eq_ok.mp hrename
  have hne : temporary ≠ [] := by
    intro hnil
    exact hapart (hnil ▸ List.nil_prefix)
  have hhosts' : (disk.replace temporary .empty).Hosts output := by
    refine ⟨hhosts.1, ?_⟩
    rw [Tree.node?_replace_outside (not_prefix_dropLast hapart)]
    exact hhosts.2
  rw [hafter]
  refine ⟨?_, ?_⟩
  · intro path hout
    rw [Tree.node?_replace_outside hout]
    by_cases hin : temporary <+: path
    · obtain ⟨low, rfl⟩ := hin
      rw [Tree.node?_replace_empty hne, Branch.node?_append_of_none hnone]
    · rw [Tree.node?_replace_outside hin]
      exact h.outside path hin
  · rw [Tree.node?_replace_self hhosts', Branch.node?_below, List.append_nil]
    exact h.directory

theorem exists?_of_directory (h : disk.node? path = some .directory) : disk.exists? path := by
  unfold Disk.exists?
  rw [Disk.stat_of_direct (Tree.direct_of_node? h id), h]
  rfl

theorem removeIfExists_outside {other : List FileName} (h : ¬ path <+: other) :
    (disk.removeIfExists path).node? other = disk.node? other := by
  unfold Disk.removeIfExists
  by_cases hexists : disk.exists? path
  · rw [if_pos hexists]
    exact Tree.node?_replace_outside h
  · rw [if_neg hexists]

theorem removeIfExists_below {low : List FileName} (hne : path ≠ [])
    (hkind : disk.node? path = none ∨ disk.node? path = some .directory) :
    (disk.removeIfExists path).node? (path ++ low) = none := by
  unfold Disk.removeIfExists
  by_cases hexists : disk.exists? path
  · rw [if_pos hexists]
    exact Tree.node?_replace_empty hne
  · rw [if_neg hexists]
    apply Branch.node?_append_of_none
    exact hkind.resolve_right fun hdirectory => hexists (exists?_of_directory hdirectory)

/-- Removing what was not there before restores what was there. -/
theorem removeIfExists_restores (hne : path ≠ []) (hnone : before.node? path = none)
    (hsame : ∀ other, ¬ path <+: other → disk.node? other = before.node? other)
    (hkind : disk.node? path = none ∨ disk.node? path = some .directory) :
    ∀ other, (disk.removeIfExists path).node? other = before.node? other := by
  intro other
  by_cases hin : path <+: other
  · obtain ⟨low, rfl⟩ := hin
    rw [removeIfExists_below hne hkind, Branch.node?_append_of_none hnone]
  · rw [removeIfExists_outside hin]
    exact hsame other hin

/-- What the handler of the exception finds: a copy under construction, or a published one. -/
def Underway (before : Disk) (temporary output : List FileName) (s : CopyState) : Prop :=
  (s.published = false ∧ Staged before temporary s.disk) ∨
    (s.published = true ∧ Moved before output s.disk)

theorem cleanUp_runs {error : ToolError} {post : Unit → CopyState → Prop}
    (htemporary : temporary ≠ []) (houtput : output ≠ [])
    (hnotemporary : before.node? temporary = none) (hnooutput : before.node? output = none)
    (hapart : ¬ output <+: temporary) :
    Runs (Underway before temporary output) (cleanUp temporary output error) post
      (fun s => ∀ path, s.disk.node? path = before.node? path) := by
  intro s hs
  obtain ⟨disk, published⟩ := s
  rcases hs with ⟨hflag, hstaged⟩ | ⟨hflag, hmoved⟩
  · have hrun : (cleanUp temporary output error).run ⟨disk, false⟩ =
        (.error error, ⟨disk.removeIfExists temporary, false⟩) := rfl
    obtain rfl : published = false := hflag
    rw [hrun]
    exact removeIfExists_restores htemporary hnotemporary hstaged.outside hstaged.kind
  · have hrun : (cleanUp temporary output error).run ⟨disk, true⟩ =
        (.error error, ⟨(disk.removeIfExists temporary).removeIfExists output, true⟩) := rfl
    obtain rfl : published = true := hflag
    have hgone : disk.node? temporary = none := by
      rw [hmoved.outside temporary hapart, hnotemporary]
    rw [hrun]
    apply removeIfExists_restores houtput hnooutput
    · intro path hout
      by_cases hin : temporary <+: path
      · obtain ⟨low, rfl⟩ := hin
        rw [removeIfExists_below htemporary (.inl hgone), Branch.node?_append_of_none hnotemporary]
      · rw [removeIfExists_outside hin]
        exact hmoved.outside path hout
    · by_cases hin : temporary <+: output
      · obtain ⟨low, rfl⟩ := hin
        exact .inl (removeIfExists_below htemporary (.inl hgone))
      · rw [removeIfExists_outside hin]
        exact .inr hmoved.directory

/-- The steps between the copy and its publication. -/
def Building (before : Disk) (temporary : List FileName) (s : CopyState) : Prop :=
  s.published = false ∧ Filled before temporary s.disk

theorem Building.underway {s : CopyState} (h : Building before temporary s) :
    Underway before temporary output s := .inl ⟨h.1, h.2.staged⟩

theorem copytree_runs {fault : Option (Residue × ToolError)}
    (hnone : before.node? temporary = none) :
    Runs (fun s => s.published = false ∧ s.disk = before) (copytree fault source temporary)
      (fun _ => Building before temporary) (Underway before temporary output) := by
  have huntouched : ∀ s : CopyState, s.published = false ∧ s.disk = before →
      Underway before temporary output s := by
    intro s hs
    obtain ⟨hflag, rfl⟩ := hs
    exact .inl ⟨hflag, fun _ _ => rfl, .inl hnone⟩
  intro s hs
  unfold copytree
  rw [run_get_bind]
  by_cases hbad : s.disk.node? temporary ≠ none ∨ ¬ s.disk.Hosts temporary
  · rw [if_pos hbad]
    exact huntouched s hs
  · rw [if_neg hbad]
    push Not at hbad
    have hcopy : Runs (· = s) (interrupted fault temporary (writing fun disk => do
        let branch ← disk.treeToCopy source
        .ok (disk.replace temporary branch)))
        (fun _ => Building before temporary) (Underway before temporary output) := by
      obtain ⟨hflag, rfl⟩ := hs
      apply interrupted_runs
      · apply (writing_runs _).weaken (fun _ h => h) (fun _ _ h => h)
        · intro s' hs'
          rw [hs']
          exact huntouched s ⟨hflag, rfl⟩
        · intro s' disk hs' hupdate
          subst hs'
          obtain ⟨branch, hbranch, hdisk⟩ := except_bind_eq_ok.mp hupdate
          obtain rfl := Except.ok.inj hdisk
          exact ⟨hflag, Filled.ofCopy hbad.2 hbranch⟩
      · intro s' residue hs'
        subst hs'
        refine .inl ⟨hflag, fun path hout => Tree.node?_replace_outside hout, ?_⟩
        simp only [Tree.node?_replace_self hbad.2]
        exact residue.kind
    exact hcopy s rfl

theorem Building.interrupted {fault : Option (Residue × ToolError)} {step : Copying Unit}
    (h : Runs (Building before temporary) step (fun _ => Building before temporary)
      (Building before temporary)) :
    Runs (Building before temporary) (interrupted fault temporary step)
      (fun _ => Building before temporary) (Underway before temporary output) := by
  apply interrupted_runs
  · exact h.weaken (fun _ hs => hs) (fun _ _ hs => hs) (fun _ hs => hs.underway)
  · intro s residue hs
    exact .inl ⟨hs.1, hs.2.fault residue⟩

theorem Building.reading {α : Type} {fault : Option ToolError} {read : Disk → Except ToolError α} :
    Runs (Building before temporary) (reading fault read) (fun _ => Building before temporary)
      (Underway before temporary output) :=
  reading_runs.weaken (fun _ hs => hs) (fun _ _ hs => hs.1) (fun _ hs => hs.underway)

theorem Building.writing (relative : List FileName) {update : Disk → Except ToolError Disk}
    (h : ∀ disk after, update disk = .ok after →
      ∃ data, disk.writeBytes (temporary ++ relative) data = .ok after) :
    Runs (Building before temporary) (writing update) (fun _ => Building before temporary)
      (Building before temporary) := by
  apply writing_runs
  intro s disk hs hupdate
  obtain ⟨data, hwrite⟩ := h s.disk disk hupdate
  exact ⟨hs.1, hs.2.writeBytes hwrite⟩

theorem patchMetadata_runs {host : Host} {relative : List FileName} {plan : PatchPlan} :
    Runs (Building before temporary) (patchMetadata host (temporary ++ relative) plan)
      (fun _ => Building before temporary) (Building before temporary) := by
  have hread : ∀ read : Disk → Except ToolError Unit,
      Runs (Building before temporary) (Army3.reading none read)
        (fun _ => Building before temporary) (Building before temporary) := by
    intro read
    exact reading_runs.weaken (fun _ hs => hs) (fun _ _ hs => hs.1) (fun _ hs => hs)
  apply (hread _).bind
  intro _
  apply (Building.writing relative _).bind
  · intro _
    exact hread _
  · intro disk after hupdate
    simp only [except_bind_eq_ok] at hupdate
    obtain ⟨data, -, -, -, hwrite⟩ := hupdate
    exact ⟨_, hwrite⟩

theorem writeMarker_runs {host : Host} {relative : List FileName} {marker : MarkerPayload} :
    Runs (Building before temporary) (writeMarker host (temporary ++ relative) marker)
      (fun _ => Building before temporary) (Building before temporary) := by
  apply Building.writing relative
  intro disk after hupdate
  cases hraw : PyStr.encodeUtf8 (host.dumps marker ++ [PyStr.lineFeed]) with
  | error e =>
    rw [hraw] at hupdate
    cases hupdate
  | ok raw =>
    rw [hraw] at hupdate
    exact ⟨raw, hupdate⟩

/-- What holds when the `try` block has ended: the copy is published and has passed the last two
verifications. -/
structure Done (host : Host) (source output root : List FileName) (manifestPath : PurePosixPath)
    (manifest : Manifest) (plan : PatchPlan) (before after : Disk) : Prop where
  moved : Moved before output after
  copy : verifyPatchedCopy host after (.absolute output) manifestPath plan (.absolute root) = .ok ()
  original : verifyOriginalClient host after (.absolute source) manifest plan = .ok ()

theorem publishCopy_runs {host : Host} {faults : Faults} {manifestPath : PurePosixPath}
    {manifest : Manifest} {plan : PatchPlan} (hnone : before.node? temporary = none) :
    Runs (fun s => s.published = false ∧ s.disk = before)
      (publishCopy host faults source temporary output root manifestPath manifest plan)
      (fun _ s => Done host source output root manifestPath manifest plan before s.disk)
      (Underway before temporary output) := by
  unfold publishCopy
  apply (copytree_runs hnone).bind
  intro _
  apply (Building.interrupted patchMetadata_runs).bind
  intro _
  apply Building.reading.bind
  intro marker
  apply (Building.interrupted writeMarker_runs).bind
  intro _
  apply Building.reading.bind
  intro _
  have hrename : Runs (Building before temporary)
      (atomic faults.rename (writing (·.rename temporary output)))
      (fun _ s => s.published = false ∧ Moved before output s.disk)
      (Underway before temporary output) := by
    apply atomic_runs _ (fun _ hs => hs.underway)
    apply (writing_runs _).weaken (fun _ hs => hs) (fun _ _ hs => hs) (fun _ hs => hs.underway)
    intro s disk hs hrename
    exact ⟨hs.1, hs.2.rename hnone hrename⟩
  apply hrename.bind
  intro _
  have hflag : Runs (fun s : CopyState => s.published = false ∧ Moved before output s.disk)
      (modify fun state => { state with published := true } : Copying Unit)
      (fun _ s => s.published = true ∧ Moved before output s.disk)
      (Underway before temporary output) := fun s hs => ⟨rfl, hs.2⟩
  apply hflag.bind
  intro _
  have hcopy : Runs (fun s : CopyState => s.published = true ∧ Moved before output s.disk)
      (reading faults.verifyOutput
        (verifyPatchedCopy host · (.absolute output) manifestPath plan (.absolute root)))
      (fun _ s => (s.published = true ∧ Moved before output s.disk) ∧
        verifyPatchedCopy host s.disk (.absolute output) manifestPath plan (.absolute root) = .ok ())
      (Underway before temporary output) :=
    reading_runs.weaken (fun _ hs => hs) (fun _ _ hs => hs) (fun _ hs => .inr hs)
  apply hcopy.bind
  intro _
  apply reading_runs.weaken (fun _ hs => hs)
  · intro _ s hs
    exact ⟨hs.1.1.2, hs.1.2, hs.2⟩
  · exact fun _ hs => .inr hs.1

end

end Army3
