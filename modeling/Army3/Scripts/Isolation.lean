import Army3.Scripts.IsolatedRun

/-! What the firewall of an isolated run blocks while the client may run, and after the run. -/

namespace Army3
namespace IsolatedRun

open EventRun

/-! ### The rules -/

theorem exists_blockedIPv4_contains {address : Address} :
    (∃ range ∈ blockedIPv4, range.contains address = true) ↔
      ∃ value, address = .v4 value ∧ ¬ address.Loopback := by
  cases address with
  | v6 value => simp [blockedIPv4, AddressRange.contains]
  | v4 value =>
    have hlt := value.isLt
    have h0 : (ipv4 0 0 0 0).toNat = 0 := by decide
    have h1 : (ipv4 126 255 255 255).toNat = 0x7EFFFFFF := by decide
    have h2 : (ipv4 128 0 0 0).toNat = 0x80000000 := by decide
    have h3 : (ipv4 255 255 255 255).toNat = 0xFFFFFFFF := by decide
    simp only [blockedIPv4, List.mem_cons, List.not_mem_nil, or_false, exists_eq_or_imp,
      exists_eq_left, AddressRange.contains, Bool.and_eq_true, decide_eq_true_eq, h0, h1, h2, h3,
      Address.v4.injEq, exists_eq_left', Address.Loopback]
    omega

theorem exists_blockedIPv6_contains {address : Address} :
    (∃ range ∈ blockedIPv6, range.contains address = true) ↔
      ∃ value, address = .v6 value ∧ ¬ address.Loopback := by
  cases address with
  | v4 value => simp [blockedIPv6, AddressRange.contains]
  | v6 value =>
    have hlt := value.isLt
    have h0 : (0 : BitVec 128).toNat = 0 := by decide
    have h1 : (2 : BitVec 128).toNat = 2 := by decide
    have h2 : (BitVec.allOnes 128).toNat = 2 ^ 128 - 1 := by decide
    simp only [blockedIPv6, List.mem_cons, List.not_mem_nil, or_false, exists_eq_or_imp,
      exists_eq_left, AddressRange.contains, Bool.and_eq_true, decide_eq_true_eq, h0, h1, h2,
      Address.v6.injEq, exists_eq_left', Address.Loopback]
    omega

variable {settings : Settings}

theorem mem_blockRules {rule : Rule} : rule ∈ blockRules settings ↔
    ∃ program index, settings.executables[index]? = some program ∧
      (rule = blockRule settings (settings.ruleGroup ++ "-v4-" ++ toString (index + 1)) program
          blockedIPv4 ∨
        rule = blockRule settings (settings.ruleGroup ++ "-v6-" ++ toString (index + 1)) program
          blockedIPv6) := by
  simp only [blockRules, List.mem_flatMap, Prod.exists, List.mem_zipIdx_iff_getElem?,
    List.mem_cons, List.not_mem_nil, or_false]

theorem blockRule_blocks {displayName program : String} {ranges : List AddressRange}
    {traffic : Traffic} : (blockRule settings displayName program ranges).Blocks traffic ↔
      program = traffic.program ∧ ∃ range ∈ ranges, range.contains traffic.remoteAddress = true := by
  simp [Rule.Blocks, blockRule]

theorem group_of_mem_blockRules {rule : Rule} (h : rule ∈ blockRules settings) :
    rule.group = settings.ruleGroup := by
  obtain ⟨program, index, -, rfl | rfl⟩ := mem_blockRules.mp h <;> rfl

/-- The rules of the script block the programs of the copy from all that is not loopback, and
block nothing else. -/
theorem exists_blockRules_blocks {traffic : Traffic} :
    (∃ rule ∈ blockRules settings, rule.Blocks traffic) ↔
      traffic.program ∈ settings.executables ∧ ¬ traffic.remoteAddress.Loopback := by
  constructor
  · rintro ⟨rule, hrule, hblocks⟩
    obtain ⟨program, index, hget, rfl | rfl⟩ := mem_blockRules.mp hrule
    · obtain ⟨rfl, hrange⟩ := blockRule_blocks.mp hblocks
      obtain ⟨_, _, houtside⟩ := exists_blockedIPv4_contains.mp hrange
      exact ⟨List.mem_of_getElem? hget, houtside⟩
    · obtain ⟨rfl, hrange⟩ := blockRule_blocks.mp hblocks
      obtain ⟨_, _, houtside⟩ := exists_blockedIPv6_contains.mp hrange
      exact ⟨List.mem_of_getElem? hget, houtside⟩
  · rintro ⟨hprogram, houtside⟩
    obtain ⟨index, hget⟩ := List.mem_iff_getElem?.mp hprogram
    cases haddress : traffic.remoteAddress with
    | v4 value =>
      have hrange := exists_blockedIPv4_contains.mpr ⟨value, haddress, houtside⟩
      exact ⟨_, mem_blockRules.mpr ⟨_, index, hget, .inl rfl⟩, blockRule_blocks.mpr ⟨rfl, hrange⟩⟩
    | v6 value =>
      have hrange := exists_blockedIPv6_contains.mpr ⟨value, haddress, houtside⟩
      exact ⟨_, mem_blockRules.mpr ⟨_, index, hget, .inr rfl⟩, blockRule_blocks.mpr ⟨rfl, hrange⟩⟩

theorem World.mem_ownRules {world : World} {ruleGroup : String} {rule : Rule} :
    rule ∈ world.ownRules ruleGroup ↔ rule ∈ world.rules ∧ rule.group = ruleGroup := by
  simp [World.ownRules]

section

variable {world : World} {rules : List Rule} (h : ∀ rule ∈ rules, rule.group = settings.ruleGroup)

include h

theorem filter_group_eq : (rules.filter fun rule => rule.group = settings.ruleGroup) = rules :=
  List.filter_eq_self.mpr fun rule hrule => by simpa using h rule hrule

theorem filter_group_ne : (rules.filter fun rule => rule.group ≠ settings.ruleGroup) = [] :=
  List.filter_eq_nil_iff.mpr fun rule hrule => by simpa using h rule hrule

theorem World.ownRules_addRules : (world.addRules rules).ownRules settings.ruleGroup =
    world.ownRules settings.ruleGroup ++ rules := by
  simp only [World.ownRules, World.addRules, List.filter_append]
  rw [filter_group_eq h]

theorem World.otherRules_addRules :
    (world.addRules rules).otherRules settings.ruleGroup = world.otherRules settings.ruleGroup := by
  simp only [World.otherRules, World.addRules, List.filter_append]
  rw [filter_group_ne h, List.append_nil]

theorem World.otherRules_removeGroup :
    (world.removeGroup settings.ruleGroup rules).otherRules settings.ruleGroup =
      world.otherRules settings.ruleGroup := by
  simp only [World.otherRules, World.removeGroup, List.filter_append, List.filter_filter,
    Bool.and_self]
  rw [filter_group_ne h, List.append_nil]

theorem World.ownRules_removeGroup :
    (world.removeGroup settings.ruleGroup rules).ownRules settings.ruleGroup = rules := by
  have hothers : ((world.otherRules settings.ruleGroup).filter fun rule =>
      rule.group = settings.ruleGroup) = [] := by
    simp [World.otherRules, List.filter_filter]
  simp only [World.ownRules, World.removeGroup, List.filter_append]
  rw [hothers, filter_group_eq h, List.nil_append]

end

theorem World.rules_of_ownRules_eq_nil {world : World} {ruleGroup : String}
    (h : world.ownRules ruleGroup = []) : world.rules = world.otherRules ruleGroup := by
  refine (List.filter_eq_self.mpr fun rule hrule => ?_).symm
  have hnot := List.filter_eq_nil_iff.mp h rule hrule
  simpa using hnot

/-! ### From the first profile read to the last one restored -/

def Phase.Isolating : Phase → Prop
  | .listClients | .launch | .awaitClient | .openClient _ | .watch _ => True
  | _ => False

def Phase.CleansUp : Phase → Prop
  | .removeRules _ | .restoreProfiles _ => True
  | _ => False

/-- The checks have passed, and what is remembered of the profiles is enough to restore them. -/
structure Underway (settings : Settings) (start : World) (enabled : ProfileName → Bool)
    (restore : List ProfileName) : Prop where
  client : settings.clientExe ∈ settings.executables
  remembered : restore = disabledProfiles start
  outside : ∀ profile, profile ∉ restore → enabled profile = start.profileEnabled profile
  untouched : settings.temporarilyEnableFirewallProfiles = false → enabled = start.profileEnabled

/-- The profiles and the rules of the run at each place in the script; `disturbed` says that a
cmdlet of the cleanup has failed. -/
def Stage (settings : Settings) (start : World) (disturbed : Prop) (enabled : ProfileName → Bool)
    (own : List Rule) (restore : List ProfileName) : Phase → Prop
  | .preflight => own = [] ∧ enabled = start.profileEnabled
  | .readProfiles => own = [] ∧ enabled = start.profileEnabled ∧
      settings.clientExe ∈ settings.executables
  | .enableProfiles => own = [] ∧ enabled = start.profileEnabled ∧
      Underway settings start enabled restore
  | .confirmProfiles => own = [] ∧ Underway settings start enabled restore
  | .testServer | .listExecutables => own = [] ∧ Underway settings start enabled restore ∧
      ∀ profile, enabled profile = true
  | .addRules left => own ++ left = blockRules settings ∧ Underway settings start enabled restore ∧
      ∀ profile, enabled profile = true
  | .listClients | .launch | .awaitClient | .openClient _ | .watch _ =>
      own = blockRules settings ∧ Underway settings start enabled restore ∧
        ∀ profile, enabled profile = true
  | .removeRules _ => own <+: blockRules settings ∧ Underway settings start enabled restore
  | .restoreProfiles _ => (disturbed ∨ own = []) ∧ Underway settings start enabled restore
  | .ended _ => disturbed ∨ own = [] ∧ enabled = start.profileEnabled

structure Inv (settings : Settings) (start : World) (disturbed : Prop) (s : State) : Prop where
  others : s.world.otherRules settings.ruleGroup = start.otherRules settings.ruleGroup
  stage : Stage settings start disturbed s.world.profileEnabled
    (s.world.ownRules settings.ruleGroup) s.profilesToRestore s.phase

theorem mem_disabledProfiles {world : World} {profile : ProfileName} :
    profile ∈ disabledProfiles world ↔ world.profileEnabled profile = false := by
  cases profile <;> simp [disabledProfiles, ProfileName.all]

theorem clientExe_mem_of_check (h : check settings = .ok ()) :
    settings.clientExe ∈ settings.executables := by
  unfold check at h
  by_contra hmissing
  rw [if_pos hmissing] at h
  split at h <;> cases h

section

variable {start : World} {disturbed disturbed' : Prop} {enabled : ProfileName → Bool}
  {restore names : List ProfileName} {s : State} {answer : Answer}

/-- Only the profiles to restore are switched, and only with the script's permission. -/
theorem Underway.setProfiles {world : World} {flag : Bool}
    (h : Underway settings start world.profileEnabled restore)
    (hpermitted : settings.temporarilyEnableFirewallProfiles = true) (hnames : names ⊆ restore) :
    Underway settings start (world.setProfiles names flag).profileEnabled restore where
  client := h.client
  remembered := h.remembered
  outside := by
    intro profile hprofile
    rw [← h.outside profile hprofile]
    exact if_neg fun hmem => hprofile (hnames hmem)
  untouched := by
    intro hforbidden
    rw [hforbidden] at hpermitted
    cases hpermitted

theorem Underway.all_enabled (h : Underway settings start enabled restore)
    (hrestore : ∀ profile ∈ restore, enabled profile = true) (profile : ProfileName) :
    enabled profile = true := by
  by_cases hmem : profile ∈ restore
  · exact hrestore profile hmem
  · rw [h.outside profile hmem]
    rw [h.remembered, mem_disabledProfiles] at hmem
    simpa using hmem

/-- Disabling what was disabled at the start restores all of the profiles. -/
theorem Underway.restored {world : World}
    (h : Underway settings start world.profileEnabled restore) :
    (world.setProfiles restore false).profileEnabled = start.profileEnabled := by
  funext profile
  by_cases hmem : profile ∈ restore
  · have hdisabled := hmem
    rw [h.remembered, mem_disabledProfiles] at hdisabled
    rw [hdisabled]
    exact if_pos hmem
  · rw [← h.outside profile hmem]
    exact if_neg hmem

/-- Leaving the `try` block keeps what the cleanup needs. -/
theorem Inv.leave (hothers : s.world.otherRules settings.ruleGroup =
      start.otherRules settings.ruleGroup)
    (hown : s.world.ownRules settings.ruleGroup <+: blockRules settings)
    (h : Underway settings start s.world.profileEnabled s.profilesToRestore) (e : RunError) :
    Inv settings start disturbed (s.leave e) := ⟨hothers, hown, h⟩

theorem inv_enableTurn (h : Inv settings start disturbed s) (hphase : s.phase = .enableProfiles) :
    Inv settings start disturbed (enableTurn settings s answer) := by
  have hstage := h.stage
  rw [hphase] at hstage
  obtain ⟨hown, -, hunder⟩ := hstage
  have hpart : s.world.ownRules settings.ruleGroup <+: blockRules settings := by
    rw [hown]
    exact List.nil_prefix
  unfold enableTurn
  by_cases hrestore : s.profilesToRestore = []
  · rw [if_pos hrestore]
    refine ⟨h.others, hown, hunder, hunder.all_enabled ?_⟩
    simp [hrestore]
  by_cases hpermitted : settings.temporarilyEnableFirewallProfiles = false
  · rw [if_neg hrestore, if_pos hpermitted]
    exact Inv.leave h.others hpart hunder _
  rw [if_neg hrestore, if_neg hpermitted]
  rw [Bool.not_eq_false] at hpermitted
  cases answer with
  | succeeds => exact ⟨h.others, hown, hunder.setProfiles hpermitted (List.Subset.refl _)⟩
  | declines => exact ⟨h.others, hown, hunder⟩
  | fails finished =>
    exact ⟨h.others, hpart, hunder.setProfiles hpermitted (List.take_subset _ _)⟩

theorem watchTurn_cases (settings : Settings) (s : State) (id : Nat) (answer : Answer) :
    watchTurn settings s id answer = s.leave .cmdlet ∨
    (id ∈ s.world.processes.map Process.id ∧
      watchTurn settings s id answer = (s.inWorld (s.world.endProcess id (-1))).leave
        (.unexpected ((unexpected (connectionsOf s.world id)).map Connection.destination))) ∨
    (id ∈ s.world.processes.map Process.id ∧
      watchTurn settings s id answer =
        { s with
          observedAuxLoopback :=
            (connectionsOf s.world id).foldl (observe settings) s.observedAuxLoopback }) ∨
    (id ∉ s.world.processes.map Process.id ∧
      watchTurn settings s id answer =
        s.goTo (.removeRules (.ok ((s.world.ended.lookup id).getD 0)))) := by
  cases answer with
  | fails finished => exact .inl rfl
  | succeeds | declines =>
    by_cases hruns : id ∈ s.world.processes.map Process.id
    · by_cases hseen : unexpected (connectionsOf s.world id) ≠ []
      · exact .inr (.inl ⟨hruns, (if_pos hruns).trans (if_pos hseen)⟩)
      · exact .inr (.inr (.inl ⟨hruns, (if_pos hruns).trans (if_neg hseen)⟩))
    · exact .inr (.inr (.inr ⟨hruns, if_neg hruns⟩))

theorem inv_restoreTurn {outcome : Outcome} (h : Inv settings start disturbed s)
    (hphase : s.phase = .restoreProfiles outcome) (himp : disturbed → disturbed')
    (hfails : ∀ finished, answer = .fails finished → disturbed') :
    Inv settings start disturbed' (restoreTurn settings s outcome answer) := by
  have hstage := h.stage
  rw [hphase] at hstage
  obtain ⟨hown, hunder⟩ := hstage
  have hended (henabled : s.world.profileEnabled = start.profileEnabled) :
      Inv settings start disturbed' (s.goTo (.ended outcome)) :=
    ⟨h.others, hown.imp himp fun hnone => ⟨hnone, henabled⟩⟩
  unfold restoreTurn
  by_cases hrestore : s.profilesToRestore = []
  · rw [if_neg (by simp [hrestore])]
    refine hended (funext fun profile => hunder.outside profile ?_)
    rw [hrestore]
    exact List.not_mem_nil
  by_cases hforbidden : settings.temporarilyEnableFirewallProfiles = false
  · rw [if_neg (by simp [hforbidden])]
    exact hended (hunder.untouched hforbidden)
  rw [if_pos ⟨hrestore, by simpa using hforbidden⟩]
  cases answer with
  | fails finished => exact ⟨h.others, .inl (hfails finished rfl)⟩
  | succeeds | declines =>
    exact ⟨h.others, hown.imp himp fun hnone => ⟨hnone, hunder.restored⟩⟩

theorem Inv.imp (h : Inv settings start disturbed s) (himp : disturbed → disturbed') :
    Inv settings start disturbed' s := by
  refine ⟨h.others, ?_⟩
  have hstage := h.stage
  revert hstage
  cases s.phase with
  | restoreProfiles outcome => exact fun hstage => ⟨hstage.1.imp_left himp, hstage.2⟩
  | ended outcome => exact fun hstage => hstage.imp_left himp
  | _ => exact id

theorem stage_isolating {own : List Rule} {phase : Phase} (hown : own = blockRules settings)
    (hunder : Underway settings start enabled restore)
    (hall : ∀ profile, enabled profile = true)
    (hphase : phase.Isolating ∨ ∃ outcome, phase = .removeRules outcome) :
    Stage settings start disturbed enabled own restore phase := by
  rcases hphase with hphase | ⟨outcome, rfl⟩
  · cases phase with
    | listClients | launch | awaitClient | openClient _ | watch _ => exact ⟨hown, hunder, hall⟩
    | _ => exact hphase.elim
  · exact ⟨hown ▸ List.prefix_rfl, hunder⟩

theorem Inv.isolating (h : Inv settings start disturbed s) (hphase : s.phase.Isolating) :
    s.world.ownRules settings.ruleGroup = blockRules settings ∧
      Underway settings start s.world.profileEnabled s.profilesToRestore ∧
        ∀ profile, s.world.profileEnabled profile = true := by
  have hstage := h.stage
  revert hstage hphase
  cases s.phase with
  | listClients | launch | awaitClient | openClient _ | watch _ => exact fun _ hstage => hstage
  | _ => exact fun hphase => hphase.elim

/-- The turns from the listing of the clients to the end of the client leave the machine alone,
unless they stop a process. -/
theorem isolating_turn (settings : Settings) (answer : Answer) (hphase : s.phase.Isolating) :
    (turn settings s answer).profilesToRestore = s.profilesToRestore ∧
    (turn settings s answer).world.profileEnabled = s.world.profileEnabled ∧
    (turn settings s answer).world.rules = s.world.rules ∧
    ((turn settings s answer).phase.Isolating ∨
      ∃ outcome, (turn settings s answer).phase = .removeRules outcome) := by
  cases hplace : s.phase with
  | listClients | launch =>
    cases answer <;> simp [turn, hplace, State.goTo, State.leave, Phase.Isolating]
  | openClient id =>
    cases answer <;> simp only [turn, hplace] <;> try split
    all_goals simp [State.goTo, State.leave, Phase.Isolating]
  | awaitClient =>
    cases answer <;> simp only [turn, hplace] <;> try split
    all_goals simp [State.goTo, State.leave, Phase.Isolating, hplace]
  | watch id =>
    have hturn : turn settings s answer = watchTurn settings s id answer := by
      simp only [turn, hplace]
    rw [hturn]
    rcases watchTurn_cases settings s id answer with hturn | ⟨-, hturn⟩ | ⟨-, hturn⟩ | ⟨-, hturn⟩ <;>
      rw [hturn]
    · exact ⟨rfl, rfl, rfl, .inr ⟨_, rfl⟩⟩
    · exact ⟨rfl, rfl, rfl, .inr ⟨_, rfl⟩⟩
    · exact ⟨rfl, rfl, rfl, .inl hphase⟩
    · exact ⟨rfl, rfl, rfl, .inr ⟨_, rfl⟩⟩
  | _ => exact absurd hphase (by rw [hplace]; exact id)

/-- What every turn keeps, whatever the cmdlet answers. -/
theorem inv_turn (h : Inv settings start disturbed s) (himp : disturbed → disturbed')
    (hfails : ∀ finished, answer = .fails finished → s.phase.CleansUp → disturbed') :
    Inv settings start disturbed' (turn settings s answer) := by
  have hlater := h.imp himp
  obtain ⟨hothers, hstage⟩ := hlater
  have hnil : [] <+: blockRules settings := List.nil_prefix
  cases hphase : s.phase with
  | preflight =>
    rw [hphase] at hstage
    cases answer with
    | fails finished =>
      simp only [turn, hphase]
      exact ⟨hothers, .inr hstage⟩
    | succeeds | declines =>
      simp only [turn, hphase]
      cases hcheck : check settings with
      | error e => exact ⟨hothers, .inr hstage⟩
      | ok _ => exact ⟨hothers, hstage.1, hstage.2, clientExe_mem_of_check hcheck⟩
  | readProfiles =>
    rw [hphase] at hstage
    obtain ⟨hown, henabled, hclient⟩ := hstage
    cases answer with
    | fails finished =>
      simp only [turn, hphase]
      exact ⟨hothers, .inr ⟨hown, henabled⟩⟩
    | succeeds | declines =>
      simp only [turn, hphase]
      have hread : disabledProfiles s.world = disabledProfiles start := by
        simp only [disabledProfiles, henabled]
      exact ⟨hothers, hown, henabled, hclient, hread, fun profile _ => congrFun henabled profile,
        fun _ => henabled⟩
  | enableProfiles =>
    have hturn : turn settings s answer = enableTurn settings s answer := by simp only [turn, hphase]
    rw [hturn]
    exact (inv_enableTurn h hphase).imp himp
  | confirmProfiles =>
    rw [hphase] at hstage
    obtain ⟨hown, hunder⟩ := hstage
    rw [← hown] at hnil
    cases answer with
    | fails finished =>
      simp only [turn, hphase]
      exact ⟨hothers, hnil, hunder⟩
    | succeeds | declines =>
      simp only [turn, hphase]
      split
      · exact ⟨hothers, hnil, hunder⟩
      · rename_i hconfirmed
        refine ⟨hothers, hown, hunder, hunder.all_enabled fun profile hmem => ?_⟩
        rw [not_not, List.filter_eq_nil_iff] at hconfirmed
        simpa using hconfirmed profile hmem
  | testServer =>
    rw [hphase] at hstage
    obtain ⟨hown, hunder, hall⟩ := hstage
    rw [← hown] at hnil
    cases answer <;> simp only [turn, hphase]
    · exact ⟨hothers, hown, hunder, hall⟩
    · exact ⟨hothers, hnil, hunder⟩
    · exact ⟨hothers, hnil, hunder⟩
  | listExecutables =>
    rw [hphase] at hstage
    obtain ⟨hown, hunder, hall⟩ := hstage
    rw [← hown] at hnil
    cases answer with
    | fails finished =>
      simp only [turn, hphase]
      exact ⟨hothers, hnil, hunder⟩
    | succeeds | declines =>
      simp only [turn, hphase]
      split
      · exact ⟨hothers, hnil, hunder⟩
      · exact ⟨hothers, congrArg (· ++ blockRules settings) hown, hunder, hall⟩
  | addRules left =>
    rw [hphase] at hstage
    obtain ⟨hown, hunder, hall⟩ := hstage
    cases left with
    | nil =>
      have hturn : turn settings s answer = s.goTo .listClients := by simp only [turn, hphase]
      rw [hturn]
      exact ⟨hothers, (List.append_nil _).symm.trans hown, hunder, hall⟩
    | cons rule left =>
      have hgroup : ∀ rules : List Rule, rules ⊆ [rule] →
          ∀ rule' ∈ rules, rule'.group = settings.ruleGroup := by
        intro rules hsubset rule' hmem
        obtain rfl := List.mem_singleton.mp (hsubset hmem)
        refine group_of_mem_blockRules ?_
        rw [← hown]
        exact List.mem_append_right _ List.mem_cons_self
      cases answer with
      | fails finished =>
        simp only [turn, hphase]
        have hmade := hgroup (List.take finished [rule]) (List.take_subset _ _)
        refine ⟨(World.otherRules_addRules hmade).trans hothers, ?_, hunder⟩
        rw [State.leave, State.goTo, State.inWorld, World.ownRules_addRules hmade, ← hown]
        exact (List.prefix_append_right_inj _).mpr
          ((List.take_prefix finished [rule]).trans (List.prefix_append [rule] left))
      | succeeds | declines =>
        simp only [turn, hphase]
        have hmade := hgroup [rule] (List.Subset.refl _)
        refine ⟨(World.otherRules_addRules hmade).trans hothers, ?_, hunder, hall⟩
        rw [State.goTo, State.inWorld, World.ownRules_addRules hmade, List.append_assoc]
        exact hown
  | listClients | launch | awaitClient | openClient _ | watch _ =>
    have hisolating : s.phase.Isolating := by
      rw [hphase]
      trivial
    obtain ⟨hown, hunder, hall⟩ := h.isolating hisolating
    obtain ⟨hrestore, henabled, hrules, hnext⟩ := isolating_turn settings answer hisolating
    have hsame : ∀ keep : Rule → Bool,
        (turn settings s answer).world.rules.filter keep = s.world.rules.filter keep := by
      intro keep
      rw [hrules]
    refine ⟨(hsame _).trans hothers, ?_⟩
    rw [hrestore, henabled]
    exact stage_isolating ((hsame _).trans hown) hunder hall hnext
  | removeRules outcome =>
    rw [hphase] at hstage
    obtain ⟨hpart, hunder⟩ := hstage
    have hgroup : ∀ left : List Rule, left ⊆ s.world.ownRules settings.ruleGroup →
        ∀ rule ∈ left, rule.group = settings.ruleGroup :=
      fun left hleft rule hrule => (World.mem_ownRules.mp (hleft hrule)).2
    cases answer with
    | fails finished =>
      simp only [turn, hphase]
      have hleft := hgroup _ (List.drop_subset finished _)
      refine ⟨(World.otherRules_removeGroup hleft).trans hothers, .inl ?_, hunder⟩
      refine hfails finished rfl ?_
      rw [hphase]
      trivial
    | succeeds | declines =>
      simp only [turn, hphase]
      have hleft := hgroup [] (List.nil_subset _)
      exact ⟨(World.otherRules_removeGroup hleft).trans hothers,
        .inr (World.ownRules_removeGroup hleft), hunder⟩
  | restoreProfiles outcome =>
    have hturn : turn settings s answer = restoreTurn settings s outcome answer := by
      simp only [turn, hphase]
    rw [hturn]
    exact inv_restoreTurn h hphase himp fun finished hanswer => hfails finished hanswer
      (by rw [hphase]; trivial)
  | ended outcome =>
    have hturn : turn settings s answer = s := by simp only [turn, hphase]
    rw [hturn]
    exact ⟨hothers, hstage⟩

end

/-! ### Whole runs -/

/-- Nobody uses the new group of rules yet, nothing has ended since the run began, and the table of
connections agrees with that of processes. -/
structure Begins (settings : Settings) (s : State) : Prop where
  phase : s.phase = .preflight
  fresh : s.world.ownRules settings.ruleGroup = []
  ended : s.world.ended = []
  nodup : s.world.seen.Nodup
  owned : ∀ connection ∈ s.world.connections,
    connection.owningProcess ∈ s.world.processes.map Process.id

/-- A cmdlet of the `finally` block fails. -/
def Disturbed (settings : Settings) (s : State) (events : List Event) : Prop :=
  ∃ done finished, done ++ [.turn (.fails finished)] <+: events ∧
    (run (step settings) s done).phase.CleansUp

theorem World.happen_firewall (world : World) (event : Event) :
    (world.happen event).profileEnabled = world.profileEnabled ∧
      (world.happen event).rules = world.rules := by
  cases event with
  | connects connection profile =>
    simp only [World.happen]
    split
    · split <;> exact ⟨rfl, rfl⟩
    · exact ⟨rfl, rfl⟩
  | starts process => exact ⟨by simp only [World.happen]; split <;> rfl,
      by simp only [World.happen]; split <;> rfl⟩
  | exits id code => exact ⟨by simp only [World.happen]; split <;> rfl,
      by simp only [World.happen]; split <;> rfl⟩
  | turn answer | moves connection state | closes connection => exact ⟨rfl, rfl⟩

variable {s : State} {events : List Event}

theorem inv_happen {start : World} {disturbed : Prop} (h : Inv settings start disturbed s)
    (event : Event) : Inv settings start disturbed (s.inWorld (s.world.happen event)) := by
  obtain ⟨henabled, hrules⟩ := s.world.happen_firewall event
  have hsame : ∀ keep : Rule → Bool,
      (s.world.happen event).rules.filter keep = s.world.rules.filter keep := by
    intro keep
    rw [hrules]
  refine ⟨(hsame _).trans h.others, ?_⟩
  change Stage settings start disturbed (s.world.happen event).profileEnabled
    ((s.world.happen event).rules.filter _) s.profilesToRestore s.phase
  rw [henabled, hsame]
  exact h.stage

theorem step_cases (settings : Settings) (s : State) (event : Event) :
    (∃ answer, event = .turn answer ∧ step settings s event = turn settings s answer) ∨
      step settings s event = s.inWorld (s.world.happen event) := by
  cases event with
  | turn answer => exact .inl ⟨answer, rfl, rfl⟩
  | _ => exact .inr rfl

theorem inv_run (h : Begins settings s) (events : List Event) :
    Inv settings s.world (Disturbed settings s events) (run (step settings) s events) := by
  induction events using List.reverseRecOn with
  | nil =>
    refine ⟨rfl, ?_⟩
    rw [show (run (step settings) s []).phase = .preflight from h.phase]
    exact ⟨h.fresh, rfl⟩
  | append_singleton events event ih =>
    have himp : Disturbed settings s events → Disturbed settings s (events ++ [event]) := by
      rintro ⟨done, finished, hdone, hphase⟩
      exact ⟨done, finished, hdone.trans (List.prefix_append _ _), hphase⟩
    rw [run_concat]
    rcases step_cases settings (run (step settings) s events) event with
      ⟨answer, rfl, hstep⟩ | hstep <;> rw [hstep]
    · refine inv_turn ih himp ?_
      rintro finished rfl hphase
      exact ⟨events, finished, List.prefix_rfl, hphase⟩
    · exact inv_happen (ih.imp himp) event

theorem Inv.blocks_iff {start : World} {disturbed : Prop} (h : Inv settings start disturbed s)
    (hfresh : start.ownRules settings.ruleGroup = []) (hphase : s.phase.Isolating)
    {traffic : Traffic} : s.world.Blocks traffic ↔
      (traffic.program ∈ settings.executables ∧ ¬ traffic.remoteAddress.Loopback) ∨
        ∃ rule ∈ start.rules, rule.Blocks traffic := by
  obtain ⟨hown, -, hall⟩ := h.isolating hphase
  have hothers : s.world.otherRules settings.ruleGroup = start.rules :=
    h.others.trans (World.rules_of_ownRules_eq_nil hfresh).symm
  have hsplit : ∀ rule, rule ∈ s.world.rules ↔ rule ∈ blockRules settings ∨ rule ∈ start.rules := by
    intro rule
    rw [← hown, ← hothers, World.mem_ownRules, World.otherRules, List.mem_filter, decide_eq_true_eq]
    tauto
  rw [World.Blocks, ← exists_blockRules_blocks]
  simp only [hall, true_and, hsplit, or_and_right, exists_or]

/-- In any run, from the listing of the clients until the script leaves the `try` block, the
firewall blocks every program of the copy from every address that is not loopback, and otherwise
blocks exactly what the rules of before the run block. -/
theorem isolation_exact (h : Begins settings s)
    (hphase : (run (step settings) s events).phase.Isolating) (traffic : Traffic) :
    (run (step settings) s events).world.Blocks traffic ↔
      (traffic.program ∈ settings.executables ∧ ¬ traffic.remoteAddress.Loopback) ∨
        ∃ rule ∈ s.world.rules, rule.Blocks traffic :=
  (inv_run h events).blocks_iff h.fresh hphase

/-- Wherever a run fails or is interrupted, once the script has ended the rules and the profiles
are those of before it, if no cmdlet of the `finally` block fails. -/
theorem firewall_restored (h : Begins settings s) (hclean : ¬ Disturbed settings s events)
    {outcome : Outcome} (hended : (run (step settings) s events).phase = .ended outcome) :
    (run (step settings) s events).world.rules = s.world.rules ∧
      (run (step settings) s events).world.profileEnabled = s.world.profileEnabled := by
  obtain ⟨hothers, hstage⟩ := inv_run h events
  rw [hended] at hstage
  obtain ⟨hown, henabled⟩ := hstage.resolve_left hclean
  refine ⟨?_, henabled⟩
  rw [World.rules_of_ownRules_eq_nil hown, hothers, ← World.rules_of_ownRules_eq_nil h.fresh]

/-! A run on a machine whose public profile is off: the client starts, talks to the local server
and exits. -/

def localCopy : Settings where
  buildRootPath := "build"
  clientRootPath := "build\\army3-local-client"
  relativeToBuild := "army3-local-client"
  executables := ["build\\army3-local-client" ++ "\\" ++ "Mobi Army 3 HA.exe"]
  markerPresent := true
  pythonFound := true
  verifyExitCode := 0
  serverPort := 19150
  temporarilyEnableFirewallProfiles := true
  ruleGroup := "Army3LocalIsolation-7"

def publicProfileOff : State where
  world := ⟨fun profile => profile ≠ .publicProfile, [], [⟨4, "System"⟩], [], []⟩
  phase := .preflight
  profilesToRestore := []
  knownClientIds := []
  observedAuxLoopback := []

def launchEvents : List Event :=
  List.replicate 11 (.turn .succeeds) ++
    [.starts ⟨77, localCopy.clientExe⟩, .turn .succeeds, .turn .succeeds]

def quietEvents : List Event :=
  launchEvents ++ [.connects ⟨77, .v4 (ipv4 127 0 0 1), 19150, .established⟩ .publicProfile,
    .turn .succeeds, .exits 77 3, .turn .succeeds, .turn .succeeds, .turn .succeeds]

theorem begins_localCopy : Begins localCopy publicProfileOff := ⟨rfl, rfl, rfl, by decide, by decide⟩

theorem quiet_ended : (run (step localCopy) publicProfileOff quietEvents).phase = .ended (.ok 3) := rfl

theorem isolation_exact_launched :
    let traffic : Traffic := ⟨.publicProfile, localCopy.clientExe, 6, .v4 (ipv4 8 8 8 8)⟩
    (run (step localCopy) publicProfileOff launchEvents).world.Blocks traffic ↔
      (traffic.program ∈ localCopy.executables ∧ ¬ traffic.remoteAddress.Loopback) ∨
        ∃ rule ∈ publicProfileOff.world.rules, rule.Blocks traffic :=
  have hphase : (run (step localCopy) publicProfileOff launchEvents).phase = .watch 77 := rfl
  isolation_exact begins_localCopy (hphase ▸ trivial) _

theorem firewall_restored_quiet :
    (run (step localCopy) publicProfileOff quietEvents).world.rules = publicProfileOff.world.rules ∧
      (run (step localCopy) publicProfileOff quietEvents).world.profileEnabled =
        publicProfileOff.world.profileEnabled := by
  refine firewall_restored begins_localCopy ?_ quiet_ended
  rintro ⟨done, finished, hdone, -⟩
  have hmem := hdone.subset (List.mem_append_right done List.mem_cons_self)
  simp [quietEvents, launchEvents] at hmem

end IsolatedRun
end Army3
