import Army3.Framework.Grouping
import Army3.Scripts.CfgExits
import Army3.Scripts.RangeSearch
import Mathlib.Algebra.GroupWithZero.Nat

/-! What else a summary lists: the calls, the memory accesses and what could not be followed. -/

namespace Army3
namespace SummarizeCfg

open BreadthFirst

variable {Address : Type}

/-- The targets of a call that are known. -/
def directCalls (instruction : PseudoInstruction Address) : List Address :=
  if instruction.isCall then
    if instruction.flows.isEmpty || instruction.isComputed then [] else instruction.flows
  else []

/-- How often the walk counts the instruction as one whose targets are not known. -/
def indirectTurns (instruction : PseudoInstruction Address) : Nat :=
  if instruction.flows.isEmpty || instruction.isComputed then
    instruction.isCall.toNat + instruction.isJump.toNat
  else 0

def writtenText (instruction : PseudoInstruction Address) : Option String :=
  if startsWithAny writeMnemonics instruction.text && firstOperandIsMemory instruction.text then
    some instruction.text
  else none

def comparedText (instruction : PseudoInstruction Address) : Option String :=
  if startsWithAny compareMnemonics instruction.text then some instruction.text else none

section

variable (disassemble : PseudoDisassembler Address) (here : Address)

/-- The calls at an address, each with the address. -/
def callsAt : List (Address × Address) :=
  ((decode disassemble here).elim [] directCalls).map fun target => (target, here)

def indirectAt : Nat := (decode disassemble here).elim 0 indirectTurns

def writtenAt : Option String := (decode disassemble here).bind writtenText

def comparedAt : Option String := (decode disassemble here).bind comparedText

end

variable [LinearOrder Address]

/-- The sites of the calls, by their targets. -/
def addCalls (calls : Std.TreeMap Address (List Address)) (sites : List (Address × Address)) :
    Std.TreeMap Address (List Address) :=
  sites.foldl (Grouping.add (fun site => some site.1) Prod.snd) calls

/-- A text is put under an address, if there is one. -/
def put (here : Address) (text : Option String) (texts : Std.TreeMap Address String) :
    Std.TreeMap Address String :=
  text.elim texts (texts.insert here)

theorem getElem?_put {here a : Address} {text : Option String}
    {texts : Std.TreeMap Address String} : (put here text texts)[a]? =
      if here = a then text.or texts[a]? else texts[a]? := by
  cases text with
  | none => simp [put]
  | some text => simp [put, Std.TreeMap.getElem?_insert, Std.LawfulEqCmp.compare_eq_iff_eq]

namespace CfgWalk

variable {disassemble : PseudoDisassembler Address} {range : CodeRange Address} {monitor : Monitor}
  {here : Address} {instruction : PseudoInstruction Address} {w w' : CfgWalk Address}

theorem noteAccess_eq : w.noteAccess here instruction = { w with
    writes := put here (writtenText instruction) w.writes
    compares := put here (comparedText instruction) w.compares } := by
  rw [noteAccess, writtenText, comparedText]
  split_ifs <;> rfl

theorem noteCall_eq : w.noteCall here instruction = { w with
    calls := addCalls w.calls ((directCalls instruction).map fun target => (target, here))
    indirect := w.indirect +
      if instruction.isCall && (instruction.flows.isEmpty || instruction.isComputed) then 1
      else 0 } := by
  rw [noteCall, directCalls]
  by_cases hcall : instruction.isCall = true
  · by_cases hunknown : (instruction.flows.isEmpty || instruction.isComputed) = true
    · simp [hcall, hunknown, addCalls]
    · simp only [hcall, hunknown, addCalls, List.foldl_map]
      rfl
  · simp [hcall, addCalls]

variable (range here instruction w) in
theorem followJump_eq : ∃ queue exits, w.followJump range here instruction = { w with
    queue := queue
    exits := exits
    indirect := w.indirect +
      if instruction.isJump && (instruction.flows.isEmpty || instruction.isComputed) then 1
      else 0 } := by
  rw [followJump]
  by_cases hjump : instruction.isJump = true
  · by_cases hunknown : (instruction.flows.isEmpty || instruction.isComputed) = true
    · exact ⟨w.queue, w.exits, by simp [hjump, hunknown]⟩
    · have hsame : instruction.flows.foldl (jumpTo range here instruction) w = { w with
          queue := (instruction.flows.foldl (jumpTo range here instruction) w).queue
          exits := (instruction.flows.foldl (jumpTo range here instruction) w).exits } := by
        rw [foldl_jumpTo]
      rw [if_pos hjump, if_neg hunknown, hsame, Bool.eq_false_of_not_eq_true hunknown,
        Bool.and_false]
      exact ⟨_, _, rfl⟩
  · exact ⟨w.queue, w.exits, by simp [hjump]⟩

variable (range here instruction w) in
theorem followFallThrough_eq : ∃ queue exits, w.followFallThrough range here instruction =
    { w with queue := queue, exits := exits } := by
  rw [followFallThrough]
  cases instruction.fallThrough with
  | none => exact ⟨w.queue, w.exits, rfl⟩
  | some fall =>
    dsimp only
    split_ifs
    · exact ⟨_, w.exits, rfl⟩
    · exact ⟨w.queue, w.exits, rfl⟩
    · exact ⟨w.queue, _, rfl⟩

omit [LinearOrder Address] in
theorem indirectTurns_eq : indirectTurns instruction =
    (if instruction.isCall && (instruction.flows.isEmpty || instruction.isComputed) then 1 else 0) +
      if instruction.isJump && (instruction.flows.isEmpty || instruction.isComputed) then 1
      else 0 := by
  rw [indirectTurns]
  cases instruction.isCall <;> cases instruction.isJump <;>
    cases instruction.flows.isEmpty || instruction.isComputed <;> rfl

variable (disassemble range here w) in
theorem visit_eq : ∃ queue exits, w.visit disassemble range here = { w with
    queue := queue
    seen := w.seen ++ [here]
    calls := addCalls w.calls (callsAt disassemble here)
    writes := put here (writtenAt disassemble here) w.writes
    compares := put here (comparedAt disassemble here) w.compares
    exits := exits
    errors := w.errors + if decode disassemble here = none then 1 else 0
    indirect := w.indirect + indirectAt disassemble here } := by
  rw [visit]
  cases hdecode : decode disassemble here with
  | none =>
    refine ⟨w.queue, w.exits, ?_⟩
    simp only [callsAt, writtenAt, comparedAt, indirectAt, hdecode, Option.elim_none,
      Option.bind_none, List.map_nil]
    rfl
  | some instruction =>
    dsimp only
    obtain ⟨jumpQueue, jumpExits, hjump⟩ := followJump_eq range here instruction
      (({ w with seen := w.seen ++ [here] }.noteAccess here instruction).noteCall here instruction)
    rw [hjump]
    obtain ⟨queue, exits, hfall⟩ := followFallThrough_eq range here instruction _
    refine ⟨queue, exits, hfall.trans ?_⟩
    rw [noteCall_eq, noteAccess_eq]
    simp only [callsAt, writtenAt, comparedAt, indirectAt, hdecode, Option.elim_some,
      Option.bind_some, indirectTurns_eq, reduceCtorEq, if_false, Nat.add_zero, Nat.add_assoc]

/-- What the walk has noted of the addresses that it has visited. -/
structure Summed (disassemble : PseudoDisassembler Address) (w : CfgWalk Address) : Prop where
  calls : w.calls = addCalls ∅ (w.seen.flatMap (callsAt disassemble))
  writes : ∀ a, w.writes[a]? = if a ∈ w.seen then writtenAt disassemble a else none
  compares : ∀ a, w.compares[a]? = if a ∈ w.seen then comparedAt disassemble a else none
  errors : w.errors = w.seen.countP fun a => decode disassemble a = none
  indirect : w.indirect = (w.seen.map (indirectAt disassemble)).sum

theorem summed_initial {start : Address} : (initial start).Summed disassemble where
  calls := rfl
  writes _ := Std.TreeMap.getElem?_emptyc
  compares _ := Std.TreeMap.getElem?_emptyc
  errors := rfl
  indirect := rfl

/-- The texts of the addresses visited, when one more is. -/
theorem getElem?_put_visited {texts : Std.TreeMap Address String} {textAt : Address → Option String}
    {seen : List Address} (h : ∀ a, texts[a]? = if a ∈ seen then textAt a else none)
    (hnew : here ∉ seen) (a : Address) : (put here (textAt here) texts)[a]? =
      if a ∈ seen ++ [here] then textAt a else none := by
  rw [getElem?_put, h a]
  by_cases hah : here = a
  · subst hah
    simp [hnew]
  · simp [hah, Ne.symm hah]

theorem Summed.visit (h : w.Summed disassemble) (hnew : here ∉ w.seen) :
    (w.visit disassemble range here).Summed disassemble := by
  obtain ⟨queue, exits, hvisit⟩ := visit_eq disassemble range here w
  rw [hvisit]
  constructor
  · dsimp only
    rw [h.calls, List.flatMap_append, List.flatMap_singleton, addCalls, addCalls, addCalls,
      List.foldl_append]
  · exact getElem?_put_visited h.writes hnew
  · exact getElem?_put_visited h.compares hnew
  · dsimp only
    rw [h.errors, List.countP_append, List.countP_singleton]
    simp only [decide_eq_true_eq]
  · dsimp only
    rw [h.indirect, List.map_append, List.sum_append, List.map_singleton, List.sum_singleton]

theorem Summed.removeFirst (h : w.Summed disassemble) (queue : List Address) :
    (w.removeFirst queue).Summed disassemble := ⟨h.calls, h.writes, h.compares, h.errors, h.indirect⟩

theorem Summed.turn (h : w.Summed disassemble)
    (hturn : (loop disassemble range monitor).turn w = some w') : w'.Summed disassemble := by
  obtain ⟨here, queue, -, -, -, ⟨-, rfl⟩ | ⟨-, hnew, rfl⟩⟩ :=
    (loop disassemble range monitor).turn_cases hturn
  · exact h.removeFirst queue
  · exact (h.removeFirst queue).visit hnew

theorem follows_edges : (loop disassemble range monitor).Follows (edges disassemble range) := by
  intro a w
  change (w.visit disassemble range a).queue.filter range.Inside = _
  rw [visit_queue, List.filter_append]
  refine congrArg (w.queue.filter range.Inside ++ ·) (List.filter_eq_self.mpr fun next hnext => ?_)
  exact decide_eq_true (inside_of_mem_edges hnext)

variable (disassemble monitor) in
theorem searching_initial (hrange : range.start < range.limit) :
    (loop disassemble range monitor).Searching (edges disassemble range) range.start
      (initial range.start) :=
  RangeLoop.searching_start rfl rfl ⟨le_refl _, hrange⟩

end CfgWalk

open CfgWalk

/-- The sites of the calls of a target at these addresses, in their order. -/
def sitesOf (disassemble : PseudoDisassembler Address) (seen : List Address) (target : Address) :
    List Address :=
  Grouping.group (fun site => some site.1) Prod.snd (seen.flatMap (callsAt disassemble)) target

/-- The kind of a line, and its address among those of its kind. -/
def Line.key (start : Address) : Line Address → Nat × Address
  | .summary _ _ _ _ _ _ => (0, start)
  | .callTarget target _ _ => (1, target)
  | .write address _ => (2, address)
  | .compare address _ => (3, address)
  | .exit address _ => (4, address)

def Line.Before (start : Address) (line later : Line Address) : Prop :=
  Prod.Lex (· < ·) (· < ·) (line.key start) (later.key start)

variable {disassemble : PseudoDisassembler Address} {range : CodeRange Address} {monitor : Monitor}

/-- Lines in order, all of them of an earlier kind. -/
def OrderedBelow (start : Address) (kind : Nat) (lines : List (Line Address)) : Prop :=
  lines.Pairwise (Line.Before start) ∧ ∀ line ∈ lines, (line.key start).1 < kind

/-- The lines of a map come in its order. -/
theorem OrderedBelow.append {α : Type} {start : Address} {kind : Nat} {lines : List (Line Address)}
    (h : OrderedBelow start kind lines) (entries : Std.TreeMap Address α)
    (line : Address × α → Line Address) (hkey : ∀ entry, (line entry).key start = (kind, entry.1)) :
    OrderedBelow start (kind + 1) (lines ++ entries.toList.map line) := by
  refine ⟨List.pairwise_append.mpr ⟨h.1, List.pairwise_map.mpr ?_, ?_⟩, ?_⟩
  · refine Std.TreeMap.ordered_keys_toList.imp fun {entry later} hless => ?_
    rw [Line.Before, hkey, hkey]
    exact .right _ (compare_lt_iff_lt.mp hless)
  · intro first hfirst later hlater
    obtain ⟨entry, -, rfl⟩ := List.mem_map.mp hlater
    have hkind := h.2 first hfirst
    rw [Line.Before, hkey, Prod.lex_iff]
    exact .inl hkind
  · intro later hlater
    rcases List.mem_append.mp hlater with hold | hnew
    · exact Nat.lt_succ_of_lt (h.2 later hold)
    · obtain ⟨entry, -, rfl⟩ := List.mem_map.mp hnew
      rw [hkey]
      exact Nat.lt_succ_self kind

theorem report_pairwise (w : CfgWalk Address) :
    (report range w).Pairwise (Line.Before range.start) := by
  have hsummary : OrderedBelow range.start 1
      [.summary range.start range.limit w.seen.length w.errors w.indirect limit] :=
    ⟨List.pairwise_singleton _ _, fun line hline => by
      rw [List.mem_singleton.mp hline]
      exact Nat.zero_lt_one⟩
  have hcalls := hsummary.append w.calls
    (fun entry => .callTarget entry.1 entry.2.length entry.2) fun _ => rfl
  have hwrites := hcalls.append w.writes (fun entry => .write entry.1 entry.2) fun _ => rfl
  have hcompares := hwrites.append w.compares (fun entry => .compare entry.1 entry.2) fun _ => rfl
  have hexits := hcompares.append w.exits (fun entry => .exit entry.1 entry.2) fun _ => rfl
  exact hexits.1

theorem callTarget_mem_report {w : CfgWalk Address} {target : Address} {count : Nat}
    {sites : List Address} : .callTarget target count sites ∈ report range w ↔
      w.calls[target]? = some sites ∧ count = sites.length := by
  rw [← Std.TreeMap.mem_toList_iff_getElem?_eq_some]
  simp [report, eq_comm]

theorem write_mem_report {w : CfgWalk Address} {address : Address} {text : String} :
    .write address text ∈ report range w ↔ w.writes[address]? = some text := by
  rw [← Std.TreeMap.mem_toList_iff_getElem?_eq_some]
  simp [report]

theorem compare_mem_report {w : CfgWalk Address} {address : Address} {text : String} :
    .compare address text ∈ report range w ↔ w.compares[address]? = some text := by
  rw [← Std.TreeMap.mem_toList_iff_getElem?_eq_some]
  simp [report]

variable (disassemble range) in
/-- The lines say, in order, what is at the visited addresses, and nothing else. -/
structure Describes (seen : List Address) (lines : List (Line Address)) : Prop where
  ordered : lines.Pairwise (Line.Before range.start)
  summary : ∀ start stop visited errors indirect bound,
    .summary start stop visited errors indirect bound ∈ lines ↔
      start = range.start ∧ stop = range.limit ∧ visited = seen.length ∧
      errors = (seen.countP fun a => decode disassemble a = none) ∧
      indirect = (seen.map (indirectAt disassemble)).sum ∧ bound = limit
  callTarget : ∀ target count sites, .callTarget target count sites ∈ lines ↔
    sites = sitesOf disassemble seen target ∧ sites ≠ [] ∧ count = sites.length
  write : ∀ a text, .write a text ∈ lines ↔ a ∈ seen ∧ writtenAt disassemble a = some text
  compare : ∀ a text, .compare a text ∈ lines ↔ a ∈ seen ∧ comparedAt disassemble a = some text
  exit : ∀ a exit, .exit a exit ∈ lines ↔
    a ∈ seen ∧ ((decode disassemble a).elim [] (exitsOf range)).getLast? = some exit

theorem describes_walk (hrange : range.start < range.limit) :
    Describes disassemble range (walk disassemble range monitor).seen
      (report range (walk disassemble range monitor)) := by
  have hsummed : (walk disassemble range monitor).Summed disassemble :=
    RangeLoop.finish_of_invariant _ (fun _ _ hw hturn => hw.turn hturn) summed_initial
  have hsound : (walk disassemble range monitor).Sound disassemble range :=
    walk_sound monitor hrange
  refine ⟨report_pairwise _, ?_, ?_, ?_, ?_, ?_⟩
  · intro start stop visited errors indirect bound
    rw [← hsummed.errors, ← hsummed.indirect]
    simp [report]
  · intro target count sites
    rw [callTarget_mem_report, hsummed.calls, addCalls, Grouping.getElem?_groups, and_assoc]
    rfl
  · intro a text
    rw [write_mem_report, hsummed.writes a, Option.ite_none_right_eq_some]
  · intro a text
    rw [compare_mem_report, hsummed.compares a, Option.ite_none_right_eq_some]
  · intro a exit
    rw [exit_mem_report, hsound.exits a, Option.ite_none_right_eq_some]

/-- A walk that nobody cancels visits the addresses that come first in breadth-first order, and what
is printed describes just them. -/
theorem summary_exact (hrange : range.start < range.limit)
    (huncancelled : ∀ turn, monitor turn = false) :
    ∃ lines seen, run disassemble range monitor = .ok lines ∧
      (∃ n, seen <+: order (edges disassemble range) range.start n) ∧
      (∀ a, a ∈ seen ↔ AmongFirst (edges disassemble range) range.start limit a) ∧
      Describes disassemble range seen lines := by
  have hinitial := searching_initial disassemble monitor hrange
  have hsearching := RangeLoop.finish_searching follows_edges hinitial
  have hgoes : (loop disassemble range monitor).goesOn (walk disassemble range monitor) = true := by
    change (!monitor _) = true
    rw [huncancelled]
    rfl
  refine ⟨report range (walk disassemble range monitor), (walk disassemble range monitor).seen,
    if_pos hrange, hsearching.walked.prefix_order, fun a => ?_, describes_walk hrange⟩
  exact hinitial.mem_seen_iff follows_edges hgoes

/-- A call of a function outside of the range. -/
def callOut (here : Nat) : PseudoInstruction Nat :=
  ⟨5, false, true, false, [100], some (here + 5), "CALL 0x64"⟩

theorem summary_exact_callOut : ∃ lines seen,
    run (fun here => .ok (some (callOut here))) ⟨0, 20⟩ (fun _ => false) = .ok lines ∧
      (∃ n, seen <+: order (edges (fun here => .ok (some (callOut here))) ⟨0, 20⟩) 0 n) ∧
      (∀ a, a ∈ seen ↔
        AmongFirst (edges (fun here => .ok (some (callOut here))) ⟨0, 20⟩) 0 limit a) ∧
      Describes (fun here => .ok (some (callOut here))) ⟨0, 20⟩ seen lines :=
  summary_exact (by decide) fun _ => rfl

end SummarizeCfg
end Army3
