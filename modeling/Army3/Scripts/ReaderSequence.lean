import Army3.Scripts.RangeSearch

/-! `SummarizeReaderSequence.java`: the calls of chosen functions in a range, in the order of their
addresses. -/

namespace Army3
namespace ReaderSequence

/-- `LIMIT` -/
def limit : Nat := 20000

/-- A printed line. -/
inductive Line (Address : Type) where
  | summary (start stop : Address) (visited found limit : Nat)
  | read (ordinal : Nat) (site : Address) (label : String) (target : Address)
  deriving DecidableEq, Repr

/-- `split(":", 2)`, none if there is no colon. -/
def splitPair (argument : String) : Option (String × String) :=
  match argument.toList.span (· ≠ ':') with
  | (_, []) => none
  | (address, _ :: label) => some (String.ofList address, String.ofList label)

section
variable {Address : Type} (getAddress : String → Except String Address)

/-- `parse`; the texts are ASCII. -/
def parse (value : String) : Except String Address :=
  let lower := value.toList.map Char.toLower
  getAddress (String.ofList (if ['0', 'x'].isPrefixOf lower then lower.drop 2 else lower))

def parseTarget (argument : String) : Except String (Address × String) :=
  match splitPair argument with
  | none => .error ("Target must use ADDRESS:LABEL: " ++ argument)
  | some (text, label) =>
    if label = "" then .error ("Target must use ADDRESS:LABEL: " ++ argument)
    else do
      let address ← parse getAddress text
      return (address, label)

variable [LinearOrder Address]

/-- The range and the labels of the targets. -/
def parseArguments : List String →
    Except String (CodeRange Address × Std.TreeMap Address String)
  | start :: stop :: first :: others => do
    let start ← parse getAddress start
    let stop ← parse getAddress stop
    let targets ← (first :: others).mapM (parseTarget getAddress)
    return (⟨start, stop⟩,
      targets.foldl (fun targets target => targets.insert target.1 target.2) ∅)
  | _ => .error "Pass START END and one or more ADDRESS:LABEL targets"

end

variable {Address : Type} [LinearOrder Address]

/-- The state of the walk. What is thrown ends it. -/
structure ReaderWalk (Address : Type) [LinearOrder Address] where
  queue : List Address
  seen : List Address
  found : Std.TreeMap Address (String × Address)
  thrown : Option String
  polls : Nat

namespace ReaderWalk

def initial (start : Address) : ReaderWalk Address := ⟨[start], [], ∅, none, 0⟩

/-- The first address is taken from the queue. -/
def removeFirst (queue : List Address) (w : ReaderWalk Address) : ReaderWalk Address :=
  { w with queue := queue, polls := w.polls + 1 }

variable (disassemble : PseudoDisassembler Address) (range : CodeRange Address)
  (targets : Std.TreeMap Address String) (monitor : Monitor) (here : Address)

def followFlow (instruction : PseudoInstruction Address) (w : ReaderWalk Address) (flow : Address) :
    ReaderWalk Address :=
  if instruction.isCall then
    match targets[flow]? with
    | some label => { w with found := w.found.insert here (label, flow) }
    | none => w
  else { w with queue := w.queue ++ [flow] }

def followFallThrough (instruction : PseudoInstruction Address) (w : ReaderWalk Address) :
    ReaderWalk Address :=
  match instruction.fallThrough with
  | some fallThrough => { w with queue := w.queue ++ [fallThrough] }
  | none => w

/-- An address that is visited for the first time. -/
def visit (w : ReaderWalk Address) : ReaderWalk Address :=
  let w := { w with seen := w.seen ++ [here] }
  match disassemble here with
  | .error e => { w with thrown := some e }
  | .ok none => w
  | .ok (some instruction) =>
    if instruction.length < 1 then w
    else instruction.flows.foldl (followFlow targets here instruction)
      (w.followFallThrough instruction)

variable {disassemble range targets monitor here} {w w' : ReaderWalk Address}
  {instruction : PseudoInstruction Address}

/-- The last of the flows that has a label, with the label. -/
def labelled (targets : Std.TreeMap Address String) (flows : List Address) :
    Option (String × Address) :=
  flows.reverse.findSome? fun flow => targets[flow]?.map fun label => (label, flow)

/-- What two states share that differ in the queue and the calls found only. -/
structure SameVisits (w w' : ReaderWalk Address) : Prop where
  seen : w'.seen = w.seen
  thrown : w'.thrown = w.thrown

variable (targets here instruction) in
theorem sameVisits_foldl (flows : List Address) (w : ReaderWalk Address) :
    SameVisits w (flows.foldl (followFlow targets here instruction) w) := by
  induction flows generalizing w with
  | nil => exact ⟨rfl, rfl⟩
  | cons flow flows ih =>
    have hone : SameVisits w (w.followFlow targets here instruction flow) := by
      rw [followFlow]
      split_ifs
      · split <;> exact ⟨rfl, rfl⟩
      · exact ⟨rfl, rfl⟩
    have hrest := ih (w.followFlow targets here instruction flow)
    exact ⟨hrest.seen.trans hone.seen, hrest.thrown.trans hone.thrown⟩

theorem followFallThrough_eq (w : ReaderWalk Address) : w.followFallThrough instruction =
    { w with queue := w.queue ++ instruction.fallThrough.toList } := by
  rw [followFallThrough]
  cases instruction.fallThrough with
  | some fallThrough => rfl
  | none => simp

theorem queue_foldl (flows : List Address) (w : ReaderWalk Address) :
    (flows.foldl (followFlow targets here instruction) w).queue =
      w.queue ++ if instruction.isCall then [] else flows := by
  induction flows generalizing w with
  | nil => simp
  | cons flow flows ih =>
    rw [List.foldl_cons, ih, followFlow]
    by_cases hcall : instruction.isCall = true
    · simp only [hcall, if_true]
      split <;> rfl
    · simp only [hcall, if_false, Bool.false_eq_true, List.append_assoc, List.singleton_append]

/-- The calls of an instruction leave one entry, for the last flow that has a label. -/
theorem found_foldl_of_isCall (hcall : instruction.isCall = true) (flows : List Address)
    (w : ReaderWalk Address) (a : Address) :
    (flows.foldl (followFlow targets here instruction) w).found[a]? =
      if here = a then (labelled targets flows).or w.found[a]? else w.found[a]? := by
  induction flows generalizing w with
  | nil =>
    rw [List.foldl_nil, labelled, List.reverse_nil, List.findSome?_nil, Option.none_or, ite_self]
  | cons flow flows ih =>
    have hlabelled : labelled targets (flow :: flows) = (labelled targets flows).or
        (targets[flow]?.map fun label => (label, flow)) := by
      rw [labelled, List.reverse_cons, List.findSome?_append, List.findSome?_singleton, labelled]
    rw [List.foldl_cons, ih, followFlow, if_pos hcall, hlabelled]
    cases hlabel : targets[flow]? with
    | none => rw [Option.map_none, Option.or_none]
    | some label =>
      dsimp only
      rw [Std.TreeMap.getElem?_insert, Option.map_some, Option.or_assoc, Option.some_or]
      by_cases ha : here = a
      · rw [if_pos ha, if_pos ha, if_pos (compare_eq_iff_eq.mpr ha)]
      · rw [if_neg ha, if_neg ha, if_neg (mt compare_eq_iff_eq.mp ha)]

theorem found_foldl_of_not_isCall (hcall : ¬ instruction.isCall = true) (flows : List Address)
    (w : ReaderWalk Address) :
    (flows.foldl (followFlow targets here instruction) w).found = w.found := by
  induction flows generalizing w with
  | nil => rfl
  | cons flow flows ih => rw [List.foldl_cons, ih, followFlow, if_neg hcall]

theorem visit_seen : (w.visit disassemble targets here).seen = w.seen ++ [here] := by
  rw [visit]
  split
  · rfl
  · rfl
  · split_ifs
    · rfl
    · rw [(sameVisits_foldl _ _ _ _ _).seen, followFallThrough_eq]

variable (disassemble range targets monitor) in
/-- The loop over the queue. -/
def loop : RangeLoop Address (ReaderWalk Address) where
  queue := ReaderWalk.queue
  seen := ReaderWalk.seen
  range := range
  limit := limit
  goesOn w := w.thrown.isNone && !monitor w.polls
  removeFirst := removeFirst
  visit := visit disassemble targets
  queue_removeFirst _ _ := rfl
  seen_removeFirst _ _ := rfl
  seen_visit _ _ := visit_seen

end ReaderWalk

variable (disassemble : PseudoDisassembler Address) (range : CodeRange Address)
  (targets : Std.TreeMap Address String) (monitor : Monitor)

/-- The walk, at its end. -/
def walk : ReaderWalk Address :=
  (ReaderWalk.loop disassemble range targets monitor).finish (ReaderWalk.initial range.start)

def readLine (entry : (Address × String × Address) × Nat) : Line Address :=
  .read entry.2 entry.1.1 entry.1.2.1 entry.1.2.2

/-- What is printed after the walk, unless it has thrown. -/
def report (w : ReaderWalk Address) : Except String (List (Line Address)) :=
  match w.thrown with
  | some e => .error e
  | none => .ok (.summary range.start range.limit w.seen.length w.found.size limit ::
      w.found.toList.zipIdx.map readLine)

/-- `run`: the lines printed, or the exception thrown. -/
def run (getAddress : String → Except String Address) (arguments : List String) :
    Except String (List (Line Address)) := do
  let (range, targets) ← parseArguments getAddress arguments
  report range (walk disassemble range targets monitor)

/-- The addresses in the range at which the walk goes on. -/
def readerEdges (here : Address) : List Address :=
  match decode disassemble here with
  | none => []
  | some instruction => (instruction.fallThrough.toList ++
      if instruction.isCall then [] else instruction.flows).filter range.Inside

/-- The walk visits the address: it is among the first that can be reached. -/
def Visits (a : Address) : Prop :=
  range.start < range.limit ∧
    BreadthFirst.AmongFirst (readerEdges disassemble range) range.start limit a

/-- There is a call of a labelled function at the address. -/
def ReadsAt (site : Address) (read : String × Address) : Prop :=
  ∃ instruction, decode disassemble site = some instruction ∧ instruction.isCall = true ∧
    ReaderWalk.labelled targets instruction.flows = some read

variable {disassemble range targets monitor}

namespace ReaderWalk

variable {w w' : ReaderWalk Address} {here : Address} {instruction : PseudoInstruction Address}

theorem visit_of_error {e : String} (h : disassemble here = .error e) :
    w.visit disassemble targets here = { w with seen := w.seen ++ [here], thrown := some e } := by
  rw [visit, h]

theorem visit_of_none (hread : ∃ result, disassemble here = .ok result)
    (h : decode disassemble here = none) :
    w.visit disassemble targets here = { w with seen := w.seen ++ [here] } := by
  obtain ⟨result, hresult⟩ := hread
  rw [visit, hresult]
  cases result with
  | none => rfl
  | some instruction =>
    rw [decode, hresult] at h
    dsimp only at h
    split_ifs at h with hshort
    exact if_pos hshort

theorem visit_of_some (h : decode disassemble here = some instruction) :
    w.visit disassemble targets here = instruction.flows.foldl (followFlow targets here instruction)
      (({ w with seen := w.seen ++ [here] } : ReaderWalk Address).followFallThrough
        instruction) := by
  have hresult := disassemble_of_decode h
  rw [decode, hresult] at h
  dsimp only at h
  split_ifs at h with hshort
  rw [visit, hresult]
  exact if_neg hshort

omit [LinearOrder Address] in
/-- The three ways a visit can go. -/
theorem visit_cases (disassemble : PseudoDisassembler Address) (here : Address) :
    (∃ e, disassemble here = .error e ∧ decode disassemble here = none) ∨
      ((∃ result, disassemble here = .ok result) ∧ decode disassemble here = none) ∨
      ∃ instruction, decode disassemble here = some instruction := by
  cases hdecode : decode disassemble here with
  | some instruction => exact .inr (.inr ⟨instruction, rfl⟩)
  | none =>
    cases hresult : disassemble here with
    | error e => exact .inl ⟨e, rfl, rfl⟩
    | ok result => exact .inr (.inl ⟨⟨result, rfl⟩, rfl⟩)

theorem loop_follows :
    (loop disassemble range targets monitor).Follows (readerEdges disassemble range) := by
  intro here w
  change ((w.visit disassemble targets here).queue).filter range.Inside =
    w.queue.filter range.Inside ++ _
  rcases visit_cases disassemble here with ⟨e, hthrows, hnone⟩ | ⟨hread, hnone⟩ | ⟨instruction, h⟩
  · rw [visit_of_error hthrows, readerEdges, hnone, List.append_nil]
  · rw [visit_of_none hread hnone, readerEdges, hnone, List.append_nil]
  · rw [visit_of_some h, readerEdges, h, queue_foldl, followFallThrough_eq]
    dsimp only
    rw [List.append_assoc, List.filter_append]

/-- What holds of the visited addresses between the turns. -/
structure Sound (disassemble : PseudoDisassembler Address) (targets : Std.TreeMap Address String)
    (w : ReaderWalk Address) : Prop where
  found : ∀ a read, w.found[a]? = some read ↔ a ∈ w.seen ∧ ReadsAt disassemble targets a read
  thrown : w.thrown.isSome ↔ ∃ a ∈ w.seen, ∃ e, disassemble a = .error e

theorem sound_initial (start : Address) : (initial start).Sound disassemble targets where
  found a read := by
    rw [initial, Std.TreeMap.getElem?_emptyc]
    simp
  thrown := by simp [initial]

theorem not_readsAt (h : decode disassemble here = none) (read : String × Address) :
    ¬ ReadsAt disassemble targets here read := by
  rintro ⟨instruction, hinstruction, -⟩
  rw [h] at hinstruction
  cases hinstruction

theorem Sound.visit (h : w.Sound disassemble targets) (hnew : here ∉ w.seen) :
    (w.visit disassemble targets here).Sound disassemble targets := by
  have hkept : decode disassemble here = none → ∀ a read, w.found[a]? = some read ↔
      a ∈ w.seen ++ [here] ∧ ReadsAt disassemble targets a read := by
    intro hnone a read
    rw [h.found, List.mem_append, List.mem_singleton]
    refine and_congr_left fun hreads => (or_iff_left ?_).symm
    rintro rfl
    exact not_readsAt hnone read hreads
  have hsame : (∃ result, disassemble here = .ok result) → (w.thrown.isSome ↔
      ∃ a ∈ w.seen ++ [here], ∃ e, disassemble a = .error e) := by
    rintro ⟨result, hresult⟩
    simp [h.thrown, hresult, or_and_right, exists_or]
  rcases visit_cases disassemble here with ⟨e, hthrows, hnone⟩ | ⟨hread, hnone⟩ |
    ⟨instruction, hinstruction⟩
  · rw [visit_of_error hthrows]
    exact ⟨hkept hnone, iff_of_true rfl ⟨here, by simp, e, hthrows⟩⟩
  · rw [visit_of_none hread hnone]
    exact ⟨hkept hnone, hsame hread⟩
  · have hvisits := sameVisits_foldl targets here instruction instruction.flows
      (({ w with seen := w.seen ++ [here] } : ReaderWalk Address).followFallThrough instruction)
    rw [visit_of_some hinstruction]
    constructor
    · intro a read
      rw [hvisits.seen, followFallThrough_eq, List.mem_append, List.mem_singleton]
      have hhere : ∀ found : Option (String × Address), w.found[here]? = found → found = none := by
        intro found hfound
        by_contra hsome
        obtain ⟨other, rfl⟩ := Option.ne_none_iff_exists'.mp hsome
        exact hnew ((h.found here other).mp hfound).1
      by_cases hcall : instruction.isCall = true
      · rw [found_foldl_of_isCall hcall]
        by_cases ha : here = a
        · subst ha
          rw [if_pos rfl, hhere _ rfl, Option.or_none]
          constructor
          · intro hread
            exact ⟨.inr rfl, instruction, hinstruction, hcall, hread⟩
          · rintro ⟨-, other, hother, -, hread⟩
            cases hinstruction.symm.trans hother
            exact hread
        · rw [if_neg ha, h.found]
          exact and_congr_left fun _ => (or_iff_left (Ne.symm ha)).symm
      · rw [found_foldl_of_not_isCall hcall, h.found]
        refine and_congr_left fun hreads => (or_iff_left ?_).symm
        rintro rfl
        obtain ⟨other, hother, hiscall, -⟩ := hreads
        cases hinstruction.symm.trans hother
        exact hcall hiscall
    · rw [hvisits.seen, hvisits.thrown, followFallThrough_eq]
      exact hsame ⟨_, disassemble_of_decode hinstruction⟩

theorem Sound.turn (h : w.Sound disassemble targets)
    (hturn : (loop disassemble range targets monitor).turn w = some w') :
    w'.Sound disassemble targets := by
  obtain ⟨here, rest, -, -, -, ⟨-, rfl⟩ | ⟨-, hnew, rfl⟩⟩ :=
    (loop disassemble range targets monitor).turn_cases hturn
  · exact ⟨h.found, h.thrown⟩
  · exact Sound.visit (w := w.removeFirst rest) ⟨h.found, h.thrown⟩ hnew

end ReaderWalk

open ReaderWalk

variable (disassemble range targets monitor) in
theorem walk_sound : (walk disassemble range targets monitor).Sound disassemble targets :=
  (ReaderWalk.loop disassemble range targets monitor).finish_of_invariant
    (fun _ _ h hturn => h.turn hturn) (sound_initial range.start)

theorem searching_initial (h : range.start < range.limit) :
    (ReaderWalk.loop disassemble range targets monitor).Searching (readerEdges disassemble range)
      range.start (ReaderWalk.initial range.start) :=
  RangeLoop.searching_start rfl rfl ⟨le_refl _, h⟩

/-- An empty range is not entered. -/
theorem seen_walk_of_empty (h : ¬ range.start < range.limit) :
    (walk disassemble range targets monitor).seen = [] := by
  have houtside : ¬ (ReaderWalk.loop disassemble range targets monitor).range.Inside range.start :=
    fun hinside => h hinside.2
  exact RangeLoop.seen_finish_of_outside rfl rfl houtside

theorem visits_of_mem_seen {a : Address}
    (ha : a ∈ (walk disassemble range targets monitor).seen) : Visits disassemble range a := by
  by_cases hstart : range.start < range.limit
  · exact ⟨hstart, (searching_initial hstart).amongFirst_of_mem_seen loop_follows ha⟩
  · rw [seen_walk_of_empty hstart] at ha
    cases ha

/-- A walk that nobody cancels and that does not throw has visited all it may visit. -/
theorem mem_seen_iff (huncancelled : ∀ turn, monitor turn = false)
    (hthrown : (walk disassemble range targets monitor).thrown = none) {a : Address} :
    a ∈ (walk disassemble range targets monitor).seen ↔ Visits disassemble range a := by
  refine ⟨visits_of_mem_seen, fun ⟨hstart, hfirst⟩ => ?_⟩
  refine ((searching_initial hstart).mem_seen_iff loop_follows ?_).mpr hfirst
  change ((walk disassemble range targets monitor).thrown.isNone && !monitor _) = true
  rw [hthrown, huncancelled]
  rfl

theorem nodup_seen : (walk disassemble range targets monitor).seen.Nodup := by
  by_cases hstart : range.start < range.limit
  · exact (RangeLoop.finish_searching loop_follows (searching_initial hstart)).walked.nodup
  · rw [seen_walk_of_empty hstart]
    exact List.nodup_nil

/-- A summary that nobody cancels throws exactly if the disassembler throws at an address that it
visits. Otherwise it lists, by address and numbered from 0, the calls of labelled functions at the
addresses it visits, which are the first 20000 that can be reached. -/
theorem reader_sequence_exact (disassemble : PseudoDisassembler Address) (monitor : Monitor)
    (getAddress : String → Except String Address) (arguments : List String)
    {range : CodeRange Address} {targets : Std.TreeMap Address String}
    (harguments : parseArguments getAddress arguments = .ok (range, targets))
    (huncancelled : ∀ turn, monitor turn = false) :
    ((∃ e, run disassemble monitor getAddress arguments = .error e) ↔
      ∃ a, Visits disassemble range a ∧ ∃ e, disassemble a = .error e) ∧
    ∀ lines, run disassemble monitor getAddress arguments = .ok lines →
      ∃ (seen : List Address) (reads : List (Address × String × Address)),
        seen.Nodup ∧ (∀ a, a ∈ seen ↔ Visits disassemble range a) ∧
        (reads.map Prod.fst).Pairwise (· < ·) ∧
        (∀ site read, (site, read) ∈ reads ↔
          Visits disassemble range site ∧ ReadsAt disassemble targets site read) ∧
        lines = .summary range.start range.limit seen.length reads.length limit ::
          reads.zipIdx.map readLine := by
  have hrun : run disassemble monitor getAddress arguments =
      report range (walk disassemble range targets monitor) := by
    rw [run, harguments]
    rfl
  have hsound := walk_sound disassemble range targets monitor
  rw [hrun, report]
  cases hthrown : (walk disassemble range targets monitor).thrown with
  | some e =>
    obtain ⟨a, ha, hthrows⟩ := hsound.thrown.mp (by rw [hthrown]; rfl)
    exact ⟨iff_of_true ⟨e, rfl⟩ ⟨a, visits_of_mem_seen ha, hthrows⟩, fun lines hlines => nomatch hlines⟩
  | none =>
    have hseen : ∀ a, a ∈ (walk disassemble range targets monitor).seen ↔
        Visits disassemble range a := fun a => mem_seen_iff huncancelled hthrown
    refine ⟨iff_of_false (fun ⟨e, he⟩ => nomatch he) ?_, fun lines hlines => ?_⟩
    · rintro ⟨a, ha, hthrows⟩
      have hsome := hsound.thrown.mpr ⟨a, (hseen a).mpr ha, hthrows⟩
      rw [hthrown] at hsome
      cases hsome
    · refine ⟨_, (walk disassemble range targets monitor).found.toList, nodup_seen, hseen, ?_, ?_, ?_⟩
      · rw [Std.TreeMap.map_fst_toList_eq_keys]
        exact Std.TreeMap.ordered_keys.imp fun h => compare_lt_iff_lt.mp h
      · intro site read
        rw [Std.TreeMap.mem_toList_iff_getElem?_eq_some, hsound.found, hseen]
      · rw [Std.TreeMap.length_toList]
        exact (Except.ok.inj hlines).symm

/-- A call at 0x10 of the function at 0x30, then a return. -/
theorem reader_sequence_exact_one_call :
    let disassemble : PseudoDisassembler Nat := fun address =>
      if address = 0x10 then .ok (some ⟨2, false, true, false, [0x30], some 0x12, "CALL 0x30"⟩)
      else .ok (some ⟨1, false, false, false, [], none, "RET"⟩)
    let getAddress : String → Except String Nat := fun text =>
      .ok (text.toList.foldl (fun n c => 16 * n + (c.toNat - 48)) 0)
    ∀ lines, run disassemble (fun _ => false) getAddress ["0x10", "20", "30:u8"] = .ok lines →
      ∃ ordinal, Line.read ordinal 0x10 "u8" 0x30 ∈ lines := by
  intro disassemble getAddress lines hlines
  have harguments : parseArguments getAddress ["0x10", "20", "30:u8"] =
      .ok (⟨0x10, 0x20⟩, (∅ : Std.TreeMap Nat String).insert 0x30 "u8") := rfl
  obtain ⟨-, hlisted⟩ := reader_sequence_exact disassemble (fun _ => false) getAddress _ harguments
    fun _ => rfl
  obtain ⟨seen, reads, -, -, -, hreads, rfl⟩ := hlisted lines hlines
  have hvisits : Visits disassemble ⟨0x10, 0x20⟩ 0x10 := by
    refine ⟨by decide, 0, ?_⟩
    simp [BreadthFirst.order, BreadthFirst.layers, limit]
  have hmem := (hreads 0x10 ("u8", 0x30)).mpr ⟨hvisits, _, rfl, rfl, rfl⟩
  obtain ⟨ordinal, hordinal⟩ := List.getElem?_of_mem hmem
  have hnumbered := List.mk_mem_zipIdx_iff_getElem?.mpr hordinal
  exact ⟨ordinal, List.mem_cons_of_mem _ (List.mem_map.mpr ⟨_, hnumbered, rfl⟩)⟩

end ReaderSequence
end Army3
