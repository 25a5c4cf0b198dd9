import Army3.Scripts.MapTargets

/-! What it means that a case of the jump table is printed in no line. -/

namespace Army3
namespace MapTargets

open BreadthFirst

variable {Address : Type} [LinearOrder Address]

namespace CaseWalk

/-- The walk met no undecodable instruction and no computed jump, and left no address unvisited. -/
structure Conclusive (w : CaseWalk Address) : Prop where
  decoded : w.errors = 0
  direct : w.indirect = 0
  exhausted : ∀ a ∈ w.queue, a ∈ w.seen

/-- What holds between the turns of a walk from `start`. -/
structure Sound (disassemble : PseudoDisassembler Address) (range : CodeRange Address)
    (targets : List Address) (start : Address) (w : CaseWalk Address) : Prop where
  walk : RangeWalk disassemble range limitPerCase start w.seen w.queue
  reached : ∀ a, a ∈ w.reached ↔ a ∈ w.seen ∧ a ∈ targets
  sites : ∀ a, a ∈ w.indirectSites ↔ a ∈ w.seen ∧ IsIndirectSite disassemble a
  errors : w.errors = 0 ↔ ∀ a ∈ w.seen, (decode disassemble a).isSome
  indirect : w.indirect = 0 ↔ ∀ a ∈ w.seen, ¬ IsIndirectSite disassemble a

variable {disassemble : PseudoDisassembler Address} {range : CodeRange Address}
  {targets : List Address} {monitor : Monitor} {start here : Address} {w w' : CaseWalk Address}

theorem sound_initial (h : range.Inside start) :
    (initial start).Sound disassemble range targets start where
  walk := rangeWalk_start h
  reached a := by simp [initial]
  sites a := by simp [initial]
  errors := by simp [initial]
  indirect := by simp [initial]

theorem Sound.visit (h : w.Sound disassemble range targets start) {queue : List Address}
    (hqueue : w.queue = here :: queue) (hlimit : w.seen.length < limitPerCase)
    (hnew : here ∉ w.seen) : ((w.removeFirst queue).visit disassemble range targets here).Sound
      disassemble range targets start := by
  constructor
  · rw [visit_seen, visit_queue]
    exact (hqueue ▸ h.walk).visit hlimit hnew
  · intro a
    have hreached := h.reached a
    rw [visit_reached, visit_seen, removeFirst_seen, removeFirst_reached, List.mem_append,
      List.mem_singleton]
    by_cases hah : a = here
    · subst hah
      have hold : a ∉ w.reached := fun hmem => hnew (hreached.mp hmem).1
      by_cases htarget : a ∈ targets
      · rw [if_pos ⟨htarget, hold⟩]
        simp [htarget]
      · rw [if_neg fun hadd => htarget hadd.1]
        simp [hold, htarget]
    · split_ifs with hadd
      · rw [List.mem_append, List.mem_singleton]
        simp [hreached, hah]
      · simp [hreached, hah]
  · intro a
    rw [visit_seen, removeFirst_seen, List.mem_append, List.mem_singleton]
    by_cases hsite : IsIndirectSite disassemble here
    · rw [(visit_indirect hsite).2, Std.TreeSet.mem_insert, compare_eq_iff_eq,
        removeFirst_indirectSites, h.sites]
      grind
    · rw [(visit_not_indirect hsite).2, removeFirst_indirectSites, h.sites]
      grind
  · rw [visit_seen, visit_errors, List.forall_mem_append, List.forall_mem_singleton]
    by_cases hdecodes : (decode disassemble here).isSome
    · rw [if_pos hdecodes, and_iff_left hdecodes]
      exact h.errors
    · rw [if_neg hdecodes]
      exact iff_of_false (Nat.succ_ne_zero _) fun hall => hdecodes hall.2
  · rw [visit_seen, List.forall_mem_append, List.forall_mem_singleton]
    by_cases hsite : IsIndirectSite disassemble here
    · rw [(visit_indirect hsite).1]
      exact iff_of_false (Nat.succ_ne_zero _) fun hall => hall.2 hsite
    · rw [(visit_not_indirect hsite).1, and_iff_left hsite]
      exact h.indirect

theorem Sound.turn (h : w.Sound disassemble range targets start)
    (hturn : (loop disassemble range targets monitor).turn w = some w') :
    w'.Sound disassemble range targets start := by
  obtain ⟨here, queue, hqueue, hlimit, -, hcases⟩ :=
    (loop disassemble range targets monitor).turn_cases hturn
  change w.queue = here :: queue at hqueue
  rcases hcases with ⟨hskip, rfl⟩ | ⟨-, hnew, rfl⟩
  · exact ⟨(hqueue ▸ h.walk).skip hskip, h.reached, h.sites, h.errors, h.indirect⟩
  · exact h.visit hqueue hlimit hnew

/-- A walk that is printed in no line. -/
structure Silent (w : CaseWalk Address) : Prop where
  nothing_reached : w.reached = []
  no_sites : w.indirectSites.isEmpty = true

theorem Sound.silent_iff (h : w.Sound disassemble range targets start) :
    w.Silent ↔ ∀ a ∈ w.seen, a ∉ targets ∧ ¬ IsIndirectSite disassemble a := by
  constructor
  · intro ⟨hreached, hsites⟩ a ha
    constructor
    · intro htarget
      have hmem := (h.reached a).mpr ⟨ha, htarget⟩
      rw [hreached] at hmem
      cases hmem
    · intro hsite
      exact Std.TreeSet.isEmpty_iff_forall_not_mem.mp hsites a ((h.sites a).mpr ⟨ha, hsite⟩)
  · intro hall
    constructor
    · refine List.eq_nil_iff_forall_not_mem.mpr fun a ha => ?_
      obtain ⟨hseen, htarget⟩ := (h.reached a).mp ha
      exact (hall a hseen).1 htarget
    · refine Std.TreeSet.isEmpty_iff_forall_not_mem.mpr fun a ha => ?_
      obtain ⟨hseen, hsite⟩ := (h.sites a).mp ha
      exact (hall a hseen).2 hsite

end CaseWalk

variable (program : Program Address) (arguments : Arguments Address) (monitor : Address → Monitor)

/-- The jumps and fall-throughs that lead from a case entry to an address. -/
def LeadsTo : Address → Address → Prop := Reaches (edges program.disassemble arguments.range)

/-- The entry of the table points to a stub that is an `E9` jump to the destination. -/
def LeadsFrom (index : Nat) (destination : Address) : Prop :=
  ∃ slot raw stub jump, program.add arguments.table (4 * index) = .ok slot ∧
    program.getBytes slot 4 = .ok raw ∧
    program.add program.imageBase (LittleEndian.ofBytes raw.toList) = .ok stub ∧
    program.getBytes stub 5 = .ok jump ∧ jump[0]? = some 0xE9 ∧
    program.add stub (5 + LittleEndian.signed 32 (LittleEndian.ofBytes jump.toList.tail)) =
      .ok destination

theorem isSome_resolveEntry {cases cases' : Cases Address} {index : Nat} {destination : Address}
    (h : resolveEntry program arguments cases index = .ok cases') :
    (cases'[destination]?).isSome ↔
      (cases[destination]?).isSome ∨ LeadsFrom program arguments index destination := by
  rw [resolveEntry] at h
  obtain ⟨slot, hslot, h⟩ := Raising.except_bind_eq_ok.mp h
  obtain ⟨raw, hraw, h⟩ := Raising.except_bind_eq_ok.mp h
  obtain ⟨stub, hstub, h⟩ := Raising.except_bind_eq_ok.mp h
  obtain ⟨jump, hjump, h⟩ := Raising.except_bind_eq_ok.mp h
  simp only [LeadsFrom, hslot, Except.ok.injEq, exists_and_left, exists_eq_left', hraw, hstub,
    hjump]
  split_ifs at h with hother
  · cases h
    simp [hother]
  · obtain ⟨found, hfound, h⟩ := Raising.except_bind_eq_ok.mp h
    cases h
    rw [not_not] at hother
    have hfirst : jump[0]? = some 0xE9 := by simp [hother]
    rw [Std.TreeMap.getElem?_alter, hfound, Except.ok.injEq, and_iff_right hfirst]
    by_cases hsame : found = destination
    · rw [if_pos (compare_eq_iff_eq.mpr hsame)]
      exact iff_of_true rfl (.inr hsame)
    · rw [if_neg (mt compare_eq_iff_eq.mp hsame), or_iff_left hsame]

/-- The cases are where the `E9` stubs of the table lead to. -/
theorem isSome_resolveCases {cases : Cases Address} {destination : Address}
    (h : resolveCases program arguments = .ok cases) : (cases[destination]?).isSome ↔
      ∃ index < arguments.count.toNat, LeadsFrom program arguments index destination := by
  have hgathers := Raising.foldlM_gathers
    (fun cases : Cases Address => (cases[destination]?).isSome = true)
    (fun index => LeadsFrom program arguments index destination)
    (fun _ _ _ hentry => isSome_resolveEntry program arguments hentry) h
  have hempty : ¬ ((∅ : Cases Address)[destination]?).isSome := by
    rw [Std.TreeMap.getElem?_emptyc]
    exact Bool.false_ne_true
  simp only [List.mem_range] at hgathers
  exact hgathers.trans (or_iff_right hempty)

/-- Either a target or a computed jump is among the first addresses in breadth-first order, as many
as a walk may visit; or everything that can be reached decodes and is not more than that. -/
def Settled (start : Address) : Prop :=
  (∃ a, AmongFirst (edges program.disassemble arguments.range) start limitPerCase a ∧
    (a ∈ arguments.targets ∨ IsIndirectSite program.disassemble a)) ∨
  ((∀ a, LeadsTo program arguments start a → (decode program.disassemble a).isSome) ∧
    AtMost (edges program.disassemble arguments.range) start limitPerCase)

variable {start : Address}

theorem caseWalk_sound (hinside : arguments.range.Inside start) :
    (caseWalk program arguments monitor start).Sound program.disassemble arguments.range
      arguments.targets start :=
  RangeLoop.finish_of_invariant _ (fun _ _ h hturn => h.turn hturn)
    (CaseWalk.sound_initial hinside)

variable {program arguments monitor}

/-- The reached targets that are printed can be reached. -/
theorem leadsTo_of_mem_reached (hinside : arguments.range.Inside start) {a : Address}
    (h : a ∈ (caseWalk program arguments monitor start).reached) :
    a ∈ arguments.targets ∧ LeadsTo program arguments start a := by
  have hsound := caseWalk_sound program arguments monitor hinside
  obtain ⟨hseen, htarget⟩ := (hsound.reached a).mp h
  exact ⟨htarget, hsound.walk.walked.reaches_of_mem_seen hseen⟩

/-- A walk that stays silent ends with its queue empty or at the limit. -/
theorem silent_ends (huncancelled : ∀ turn, monitor start turn = false)
    (htargets : arguments.targets ≠ [])
    (hsilent : (caseWalk program arguments monitor start).Silent) :
    limitPerCase ≤ (caseWalk program arguments monitor start).seen.length ∨
      (caseWalk program arguments monitor start).queue = [] := by
  rcases (CaseWalk.loop program.disassemble arguments.range arguments.targets
    (monitor start)).finish_cases (CaseWalk.initial start) with hqueue | hlimit | hstops
  · exact .inr hqueue
  · exact .inl hlimit
  · change (decide ((caseWalk program arguments monitor start).reached.length <
      arguments.targets.length) && !monitor start _) = false at hstops
    rw [huncancelled, Bool.not_false, Bool.and_true, decide_eq_false_iff_not, not_lt,
      hsilent.nothing_reached] at hstops
    exact absurd (List.length_eq_zero_iff.mp (Nat.le_zero.mp hstops)) htargets

theorem silent_conclusive_iff (hinside : arguments.range.Inside start)
    (huncancelled : ∀ turn, monitor start turn = false) (htargets : arguments.targets ≠ []) :
    ((caseWalk program arguments monitor start).Silent →
      (caseWalk program arguments monitor start).Conclusive ∧
        ∀ target ∈ arguments.targets, ¬ LeadsTo program arguments start target) ↔
    Settled program arguments start := by
  have hsound := caseWalk_sound program arguments monitor hinside
  have hends : (caseWalk program arguments monitor start).Silent → _ :=
    silent_ends huncancelled htargets
  generalize caseWalk program arguments monitor start = w at hsound hends ⊢
  constructor
  · intro h
    by_cases hsilent : w.Silent
    · obtain ⟨⟨hdecoded, -, hexhausted⟩, -⟩ := h hsilent
      refine .inr ⟨fun a ha => ?_, ?_⟩
      · exact hsound.errors.mp hdecoded a ((hsound.walk.walked.mem_seen_iff hexhausted).mpr ha)
      · exact (hsound.walk.walked.atMost_iff hsound.walk.bounded (hends hsilent)).mpr hexhausted
    · rw [hsound.silent_iff, not_forall] at hsilent
      obtain ⟨a, ha⟩ := hsilent
      rw [Classical.not_imp, not_and_or, not_not, not_not] at ha
      obtain ⟨hseen, hspeaks⟩ := ha
      exact .inl ⟨a, hsound.walk.walked.amongFirst hsound.walk.bounded hseen, hspeaks⟩
  · intro h hsilent
    have hquiet := hsound.silent_iff.mp hsilent
    rcases h with ⟨a, hfirst, hspeaks⟩ | ⟨hdecodes, hmost⟩
    · have hend : limitPerCase ≤ w.seen.length ∨ ∀ b ∈ w.queue, b ∈ w.seen := by
        refine (hends hsilent).imp_right fun hempty b hb => ?_
        rw [hempty] at hb
        cases hb
      have hseen := hsound.walk.walked.mem_of_amongFirst hend hfirst
      exact absurd hspeaks (not_or.mpr (hquiet a hseen))
    · have hexhausted :=
        (hsound.walk.walked.atMost_iff hsound.walk.bounded (hends hsilent)).mp hmost
      refine ⟨⟨?_, ?_, hexhausted⟩, fun target htarget hleads => ?_⟩
      · exact hsound.errors.mpr fun a ha => hdecodes a (hsound.walk.walked.reaches_of_mem_seen ha)
      · exact hsound.indirect.mpr fun a ha => (hquiet a ha).2
      · exact (hquiet target ((hsound.walk.walked.mem_seen_iff hexhausted).mpr hleads)).1 htarget

theorem caseLines_eq_nil_iff (commands : List String) (start : Address) {w : CaseWalk Address} :
    caseLines commands start w = [] ↔ w.Silent := by
  rw [caseLines]
  constructor
  · intro h
    split_ifs at h with hreached hsites
    exact ⟨not_not.mp hreached, hsites⟩
  · intro h
    rw [if_neg (not_not_intro h.nothing_reached), if_neg (not_not_intro h.no_sites)]

theorem entry_of_mem_caseLines {commands : List String} {w : CaseWalk Address}
    {line : Line Address} (h : line ∈ caseLines commands start w) : line.entry = start := by
  simp only [caseLines] at h
  split_ifs at h with hreached hsites
  · rw [List.mem_singleton.mp h]
    rfl
  · cases h
  · rw [List.mem_singleton.mp h]
    rfl

/-- An entry of the table is in no line exactly when its walk has been silent. -/
theorem run_silent_iff (monitor : Address → Monitor) {cases : Cases Address}
    {commands : List String} (hcases : resolveCases program arguments = .ok cases)
    (hentry : cases[start]? = some commands)
    (hinside : arguments.range.Inside start) :
    ∃ lines, run program arguments monitor = .ok lines ∧
      ((∀ line ∈ lines, line.entry ≠ start) ↔
        (caseWalk program arguments monitor start).Silent) := by
  refine ⟨_, by rw [run, hcases]; rfl, ?_⟩
  rw [← caseLines_eq_nil_iff commands start]
  constructor
  · intro hnone
    refine List.eq_nil_iff_forall_not_mem.mpr fun line hline => ?_
    refine hnone line (List.mem_flatMap.mpr ⟨(start, commands), ?_, ?_⟩)
      (entry_of_mem_caseLines hline)
    · exact Std.TreeMap.mem_toList_iff_getElem?_eq_some.mpr hentry
    · dsimp only
      rw [if_pos hinside]
      exact hline
  · intro hnil line hline hsame
    obtain ⟨⟨entry, others⟩, -, hmem⟩ := List.mem_flatMap.mp hline
    dsimp only at hmem
    split_ifs at hmem with hrange
    · obtain rfl : entry = start := (entry_of_mem_caseLines hmem).symm.trans hsame
      have hsilent := (caseLines_eq_nil_iff commands entry).mp hnil
      rw [(caseLines_eq_nil_iff others entry).mpr hsilent] at hmem
      cases hmem
    · cases hmem

/-- When the silence about a case entry means that its walk was conclusive and that no target can
be reached. -/
theorem silence_means_unreachable_iff {cases : Cases Address} {commands : List String}
    (hcases : resolveCases program arguments = .ok cases) (hentry : cases[start]? = some commands)
    (hinside : arguments.range.Inside start) (htargets : arguments.targets ≠ [])
    (huncancelled : ∀ turn, monitor start turn = false) :
    ∃ lines, run program arguments monitor = .ok lines ∧
      (((∀ line ∈ lines, line.entry ≠ start) →
          (caseWalk program arguments monitor start).Conclusive ∧
            ∀ target ∈ arguments.targets, ¬ LeadsTo program arguments start target) ↔
        Settled program arguments start) := by
  obtain ⟨lines, hrun, hsilent⟩ := run_silent_iff monitor hcases hentry hinside
  refine ⟨lines, hrun, ?_⟩
  rw [hsilent]
  exact silent_conclusive_iff hinside huncancelled htargets

/-- A table of one entry, whose stub jumps to an address that does not decode. -/
def undecodableCase : Program Nat where
  imageBase := 0
  add address offset := .ok (address + offset).toNat
  getBytes address length := .ok (Vector.ofFn fun index : Fin length =>
    if address = 100 then [10, 0, 0, 0].getD index 0 else [0xE9, 5, 0, 0, 0].getD index 0)
  disassemble _ := .error "Unable to disassemble"

def undecodableArguments : Arguments Nat where
  table := 100
  count := 1
  bias := 0
  range := ⟨20, 30⟩
  targets := [25]
  distinct := List.nodup_singleton 25

/-- The case of byte 00, at address 20. -/
theorem resolveCases_undecodable : resolveCases undecodableCase undecodableArguments =
    .ok ((∅ : Cases Nat).insert 20 ["00"]) := rfl

theorem silence_means_unreachable_undecodable :
    ∃ lines, run undecodableCase undecodableArguments (fun _ _ => false) = .ok lines ∧
      (((∀ line ∈ lines, line.entry ≠ 20) →
          (caseWalk undecodableCase undecodableArguments (fun _ _ => false) 20).Conclusive ∧
            ∀ target ∈ undecodableArguments.targets,
              ¬ LeadsTo undecodableCase undecodableArguments 20 target) ↔
        Settled undecodableCase undecodableArguments 20) :=
  silence_means_unreachable_iff resolveCases_undecodable rfl (by decide) (by decide) fun _ => rfl

theorem silence_inconclusive : ¬ ∀ (program : Program Nat) (arguments : Arguments Nat)
    (monitor : Nat → Monitor) (cases : Cases Nat) (start : Nat) (commands : List String)
    (lines : List (Line Nat)), resolveCases program arguments = .ok cases →
      cases[start]? = some commands → arguments.range.Inside start → arguments.targets ≠ [] →
      (∀ turn, monitor start turn = false) → run program arguments monitor = .ok lines →
      (∀ line ∈ lines, line.entry ≠ start) →
      (caseWalk program arguments monitor start).Conclusive ∧
        ∀ target ∈ arguments.targets, ¬ LeadsTo program arguments start target := by
  intro hclaim
  have hwalk : caseWalk undecodableCase undecodableArguments (fun _ _ => false) 20 =
      ⟨[], [20], [], ∅, 1, 0, 1⟩ := StepLoop.finish_eq_after _ 1 rfl
  have hsilent : (caseWalk undecodableCase undecodableArguments (fun _ _ => false) 20).Silent := by
    rw [hwalk]
    exact ⟨rfl, rfl⟩
  have hentry : ((∅ : Cases Nat).insert 20 ["00"])[20]? = some ["00"] := rfl
  obtain ⟨lines, hrun, hlines⟩ := run_silent_iff (fun _ _ => false) resolveCases_undecodable
    hentry (by decide)
  have hconclusive := (hclaim undecodableCase undecodableArguments (fun _ _ => false) _ 20 _ lines
    resolveCases_undecodable rfl (by decide) (by decide) (fun _ => rfl) hrun
    (hlines.mpr hsilent)).1
  rw [hwalk] at hconclusive
  exact absurd hconclusive.decoded (by decide)

end MapTargets
end Army3
