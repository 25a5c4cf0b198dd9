import Army3.Framework.Grouping
import Army3.Scripts.CaseSilence

/-! What the lines say that are printed for the cases of a jump table. -/

namespace Army3
namespace MapTargets

open BreadthFirst

variable {Address : Type}

/-- What is read for an entry of the table: where its stub is, and where that leads to if it is an
`E9` jump. -/
structure TableEntry (Address : Type) where
  index : Nat
  stub : Address
  destination : Option Address
  deriving DecidableEq, Repr

/-- `(jump[0] & 0xff) == 0xe9` -/
def isE9 (jump : Vector UInt8 5) : Bool := jump.get 0 = 0xE9

def readEntry (program : Program Address) (table : Address) (index : Nat) :
    Except String (TableEntry Address) := do
  let slot ← program.add table (4 * index)
  let raw ← program.getBytes slot 4
  let stub ← program.add program.imageBase (LittleEndian.ofBytes raw.toList)
  let jump ← program.getBytes stub 5
  if !isE9 jump then pure ⟨index, stub, none⟩
  else do
    let displacement := LittleEndian.signed 32 (LittleEndian.ofBytes jump.toList.tail)
    let destination ← program.add stub (5 + displacement)
    pure ⟨index, stub, some destination⟩

def readTable (program : Program Address) (table : Address) (count : Int) :
    Except String (List (TableEntry Address)) :=
  (List.range count.toNat).mapM (readEntry program table)

variable [LinearOrder Address]

/-- The command bytes of the entries that lead to a destination, in the order of the table. -/
def commandsTo (bias : Int) (entries : List (TableEntry Address)) (destination : Address) :
    List String :=
  Grouping.group TableEntry.destination (fun entry => commandText entry.index bias) entries destination

def addEntry (bias : Int) (cases : Cases Address) (entry : TableEntry Address) : Cases Address :=
  Grouping.add TableEntry.destination (fun entry => commandText entry.index bias) cases entry

variable {program : Program Address} {arguments : Arguments Address} {monitor : Address → Monitor}
  {bias : Int} {entries : List (TableEntry Address)} {start : Address}

theorem resolveEntry_eq (program : Program Address) (arguments : Arguments Address)
    (cases : Cases Address) (index : Nat) : resolveEntry program arguments cases index =
      (readEntry program arguments.table index).map (addEntry arguments.bias cases) := by
  rw [resolveEntry, readEntry]
  cases program.add arguments.table (4 * index) with
  | error e => rfl
  | ok slot =>
    change (program.getBytes slot 4 >>= _) = Except.map _ (program.getBytes slot 4 >>= _)
    cases program.getBytes slot 4 with
    | error e => rfl
    | ok raw =>
      change (program.add program.imageBase _ >>= _) =
        Except.map _ (program.add program.imageBase _ >>= _)
      cases program.add program.imageBase (LittleEndian.ofBytes raw.toList) with
      | error e => rfl
      | ok stub =>
        change (program.getBytes stub 5 >>= _) = Except.map _ (program.getBytes stub 5 >>= _)
        cases program.getBytes stub 5 with
        | error e => rfl
        | ok jump =>
          have hnot : (!isE9 jump) = true ↔ jump[0] ≠ 0xE9 := by
            rw [isE9, Bool.not_eq_true', decide_eq_false_iff_not]
            rfl
          simp only [bind, Except.bind, hnot]
          split_ifs
          · rfl
          · cases program.add stub
              (5 + LittleEndian.signed 32 (LittleEndian.ofBytes jump.toList.tail)) with
            | error e => rfl
            | ok destination => rfl

theorem resolveCases_eq (program : Program Address) (arguments : Arguments Address) :
    resolveCases program arguments =
      (readTable program arguments.table arguments.count).map fun entries =>
        entries.foldl (addEntry arguments.bias) ∅ :=
  Raising.foldlM_eq_mapM (resolveEntry_eq program arguments) _ _

/-- The commands of a case are those of the entries that lead there. -/
theorem getElem?_cases {commands : List String} :
    (entries.foldl (addEntry bias) (∅ : Cases Address))[start]? = some commands ↔
      commands = commandsTo bias entries start ∧ commands ≠ [] :=
  Grouping.getElem?_groups

/-- A target within the first addresses that a walk from a case may visit. -/
def Hits (program : Program Address) (arguments : Arguments Address) (start target : Address) :
    Prop :=
  target ∈ arguments.targets ∧
    AmongFirst (edges program.disassemble arguments.range) start limitPerCase target

namespace CaseWalk

variable {disassemble : PseudoDisassembler Address} {range : CodeRange Address}
  {targets : List Address} {monitor : Monitor} {w w' : CaseWalk Address}

theorem nodup_reached_turn (h : w.reached.Nodup)
    (hturn : (loop disassemble range targets monitor).turn w = some w') : w'.reached.Nodup := by
  obtain ⟨here, rest, -, -, -, ⟨-, rfl⟩ | ⟨-, -, rfl⟩⟩ :=
    (loop disassemble range targets monitor).turn_cases hturn
  · exact h
  · change ((w.removeFirst rest).visit disassemble range targets here).reached.Nodup
    rw [visit_reached]
    split_ifs with hadd
    · refine List.nodup_append.mpr ⟨h, List.nodup_singleton here, fun a ha b hb hab => ?_⟩
      rw [List.mem_singleton.mp hb] at hab
      exact hadd.2 (hab ▸ ha)
    · exact h

end CaseWalk

/-- A walk that nobody cancels reaches just the targets that it may reach: it ends early only when it
has reached them all. -/
theorem mem_reached_iff (monitor : Address → Monitor) (hinside : arguments.range.Inside start)
    (huncancelled : ∀ turn, monitor start turn = false) {a : Address} :
    a ∈ (caseWalk program arguments monitor start).reached ↔ Hits program arguments start a := by
  have hsound := caseWalk_sound program arguments monitor hinside
  have hnodup : (caseWalk program arguments monitor start).reached.Nodup :=
    RangeLoop.finish_of_invariant _ (fun _ _ h hturn => CaseWalk.nodup_reached_turn h hturn)
      List.nodup_nil
  have hends := (CaseWalk.loop program.disassemble arguments.range arguments.targets
    (monitor start)).finish_cases (CaseWalk.initial start)
  change (caseWalk program arguments monitor start).queue = [] ∨
    limitPerCase ≤ (caseWalk program arguments monitor start).seen.length ∨
    (decide ((caseWalk program arguments monitor start).reached.length < arguments.targets.length) &&
      !monitor start (caseWalk program arguments monitor start).polls) = false at hends
  generalize caseWalk program arguments monitor start = w at hsound hnodup hends ⊢
  have hvisited := hsound.walk.walked
  constructor
  · intro ha
    obtain ⟨hseen, htarget⟩ := (hsound.reached a).mp ha
    exact ⟨htarget, hvisited.amongFirst hsound.walk.bounded hseen⟩
  · rintro ⟨htarget, hfirst⟩
    have hsubset : w.reached ⊆ arguments.targets := fun b hb => ((hsound.reached b).mp hb).2
    rcases hends with hempty | hlimit | hstops
    · refine (hsound.reached a).mpr ⟨hvisited.mem_of_amongFirst (.inr fun b hb => ?_) hfirst, htarget⟩
      rw [hempty] at hb
      cases hb
    · exact (hsound.reached a).mpr ⟨hvisited.mem_of_amongFirst (.inl hlimit) hfirst, htarget⟩
    · rw [huncancelled, Bool.not_false, Bool.and_true, decide_eq_false_iff_not, not_lt] at hstops
      have hall := (List.subperm_of_subset hnodup hsubset).perm_of_length_le hstops
      exact hall.mem_iff.mpr htarget

theorem mem_caseLines {commands commands' : List String} {w : CaseWalk Address} {entry : Address}
    {reached sites : List Address} {visited errors indirect : Nat} :
    .caseBytes commands' entry reached visited errors indirect sites ∈ caseLines commands start w ↔
      w.reached ≠ [] ∧ commands' = commands ∧ entry = start ∧ reached = w.reached ∧
        visited = w.seen.length ∧ errors = w.errors ∧ indirect = w.indirect ∧
        sites = w.indirectSites.toList := by
  rw [caseLines]
  split_ifs with hreached hsites
  · simp only [List.mem_singleton, Line.caseBytes.injEq, ne_eq, hreached, not_false_iff, true_and]
  · simp [hreached]
  · simp [hreached]

/-- At most one line is printed for a case. -/
theorem caseLines_pairwise (commands : List String) (w : CaseWalk Address) :
    (caseLines commands start w).Pairwise fun line later => line.entry < later.entry := by
  rw [caseLines]
  split_ifs
  · exact List.pairwise_singleton _ _
  · exact List.Pairwise.nil
  · exact List.pairwise_singleton _ _

/-- What the lines of a run say that nobody cancels: they come in the order of the case addresses,
one for each. A `CASE_BYTES` line has the command bytes of all the entries whose stubs lead to its
case, in the order of the table, and all targets among the first 30000 addresses that direct flow
reaches from there; and every case of the range from which a target is reached so has a line. -/
theorem case_bytes_exact (program : Program Address) (arguments : Arguments Address)
    (monitor : Address → Monitor) {lines : List (Line Address)}
    (hrun : run program arguments monitor = .ok lines)
    (huncancelled : ∀ start turn, monitor start turn = false) :
    ∃ entries, readTable program arguments.table arguments.count = .ok entries ∧
      lines.Pairwise (fun line later => line.entry < later.entry) ∧
      (∀ commands start reached visited errors indirect sites,
        .caseBytes commands start reached visited errors indirect sites ∈ lines →
          arguments.range.Inside start ∧ commands = commandsTo arguments.bias entries start ∧
          ∀ a, a ∈ reached ↔ Hits program arguments start a) ∧
      ∀ start target, (∃ entry ∈ entries, entry.destination = some start) →
        arguments.range.Inside start → Hits program arguments start target →
          ∃ commands reached visited errors indirect sites,
            .caseBytes commands start reached visited errors indirect sites ∈ lines ∧
              target ∈ reached := by
  rw [run, resolveCases_eq] at hrun
  cases hentries : readTable program arguments.table arguments.count with
  | error e =>
    rw [hentries] at hrun
    cases hrun
  | ok entries =>
    rw [hentries] at hrun
    cases hrun
    refine ⟨entries, rfl, ?_, ?_, ?_⟩
    · refine List.pairwise_flatMap.mpr ⟨fun case hcase => ?_, ?_⟩
      · dsimp only
        split_ifs
        · exact caseLines_pairwise case.2 _
        · exact List.Pairwise.nil
      · refine Std.TreeMap.ordered_keys_toList.imp fun {case later} hless line hline other hother => ?_
        dsimp only at hline hother
        split_ifs at hline hother with hcase hlater
        · rw [entry_of_mem_caseLines hline, entry_of_mem_caseLines hother]
          exact compare_lt_iff_lt.mp hless
        · cases hother
        · cases hline
        · cases hline
    · intro commands start reached visited errors indirect sites hmem
      obtain ⟨⟨entry, found⟩, hcase, hline⟩ := List.mem_flatMap.mp hmem
      dsimp only at hline
      split_ifs at hline with hinside
      · obtain ⟨-, rfl, rfl, rfl, -⟩ := mem_caseLines.mp hline
        have hcommands := getElem?_cases.mp (Std.TreeMap.mem_toList_iff_getElem?_eq_some.mp hcase)
        exact ⟨hinside, hcommands.1, fun a => mem_reached_iff monitor hinside (huncancelled start)⟩
      · cases hline
    · rintro start target ⟨entry, hentry, hdestination⟩ hinside hhits
      have hmem := (mem_reached_iff monitor hinside (huncancelled start)).mpr hhits
      have hne : commandsTo arguments.bias entries start ≠ [] :=
        (Grouping.group_ne_nil _).mpr ⟨entry, hentry, hdestination⟩
      have hcommands : (entries.foldl (addEntry arguments.bias) (∅ : Cases Address))[start]? =
          some (commandsTo arguments.bias entries start) := getElem?_cases.mpr ⟨rfl, hne⟩
      have hcase := Std.TreeMap.mem_toList_iff_getElem?_eq_some.mpr hcommands
      let w := caseWalk program arguments monitor start
      refine ⟨commandsTo arguments.bias entries start, w.reached, w.seen.length, w.errors, w.indirect,
        w.indirectSites.toList, List.mem_flatMap.mpr ⟨_, hcase, ?_⟩, hmem⟩
      dsimp only
      rw [if_pos hinside]
      exact mem_caseLines.mpr ⟨List.ne_nil_of_mem hmem, rfl, rfl, rfl, rfl, rfl, rfl, rfl⟩

/-- A table of one entry, whose stub jumps to a case that falls through to its target. -/
def fallingCase : Program Nat where
  imageBase := 0
  add address offset := .ok (address + offset).toNat
  getBytes address length := .ok (Vector.ofFn fun index : Fin length =>
    if address = 100 then [10, 0, 0, 0].getD index 0 else [0xE9, 5, 0, 0, 0].getD index 0)
  disassemble address :=
    if address = 20 then .ok (some ⟨5, false, false, false, [], some 25, "NOP"⟩) else .ok none

theorem nodup_25 : [25].Nodup := List.nodup_singleton 25

def fallingArguments : Arguments Nat where
  table := 100
  count := 1
  bias := 0
  range := ⟨20, 30⟩
  targets := [25]
  distinct := nodup_25

theorem resolveCases_falling :
    resolveCases fallingCase fallingArguments = .ok ((∅ : Cases Nat).insert 20 ["00"]) := rfl

theorem case_bytes_exact_falling : ∃ lines commands reached visited errors indirect sites,
    run fallingCase fallingArguments (fun _ _ => false) = .ok lines ∧
      .caseBytes commands 20 reached visited errors indirect sites ∈ lines ∧ 25 ∈ reached := by
  have hentry : ((∅ : Cases Nat).insert 20 ["00"])[20]? = some ["00"] := rfl
  obtain ⟨lines, hrun, -⟩ := run_silent_iff (fun _ _ => false) resolveCases_falling hentry (by decide)
  have htable : readTable fallingCase fallingArguments.table fallingArguments.count =
      .ok [⟨0, 10, some 20⟩] := rfl
  obtain ⟨entries, hentries, -, -, hreached⟩ := case_bytes_exact fallingCase fallingArguments
    (fun _ _ => false) hrun fun _ _ => rfl
  cases htable.symm.trans hentries
  have hhits : Hits fallingCase fallingArguments 20 25 := by
    refine ⟨by decide, 1, ?_⟩
    decide +kernel
  obtain ⟨commands, reached, visited, errors, indirect, sites, hline, hmem⟩ :=
    hreached 20 25 ⟨_, List.mem_singleton_self _, rfl⟩ (by decide) hhits
  exact ⟨lines, commands, reached, visited, errors, indirect, sites, hrun, hline, hmem⟩

end MapTargets
end Army3
