import Army3.Framework.Digits
import Army3.Scripts.CaseBytes
import Mathlib.Data.List.Dedup

/-! `InspectJumpTable.java`: what the entries of a jump table point to, and that the other script
makes the same cases of them. -/

namespace Army3
namespace JumpTable

open BreadthFirst MapTargets

variable {Address : Type}

/-- What is asked about an address to print it. -/
structure Listing (Address : Type) where
  contains : Address → Bool
  hasInstruction : Address → Bool
  functionName : Address → Option String
  toText : Address → String

/-- What is printed of an entry. -/
structure EntryLine (Address : Type) where
  index : Nat
  command : String
  target : Address
  destination : Option Address
  mapped : Bool
  instruction : Bool
  function : Option String
  deriving DecidableEq, Repr

inductive Line (Address : Type) where
  | entry (line : EntryLine Address)
  | summary (count : Int) (unique mapped decoded stubs uniqueDestinations : Nat)
      (imageBase : Address)
  deriving DecidableEq, Repr

/-- The state of the loop. The two sets are in the order of their additions. -/
structure Inspection (Address : Type) where
  uniqueTargets : List String := []
  uniqueDestinations : List String := []
  mapped : Nat := 0
  decoded : Nat := 0
  directStubs : Nat := 0
  lines : List (EntryLine Address) := []

/-- `HashSet.add`. -/
def add (texts : List String) (text : String) : List String :=
  if texts.contains text then texts else texts ++ [text]

variable (program : Program Address) (listing : Listing Address)

def printEntry (bias : Int) (s : Inspection Address) (index : Nat) (target : Address)
    (destination : Option Address) : Inspection Address :=
  { s with lines := s.lines ++ [⟨index, commandText index bias, target, destination,
    listing.contains target, listing.hasInstruction target, listing.functionName target⟩] }

def countTarget (s : Inspection Address) (target : Address) : Inspection Address :=
  { s with
    uniqueTargets := add s.uniqueTargets (listing.toText target)
    mapped := if listing.contains target then s.mapped + 1 else s.mapped
    decoded := if listing.hasInstruction target then s.decoded + 1 else s.decoded }

/-- One entry of the table. -/
def inspectEntry (table : Address) (bias : Int) (s : Inspection Address) (index : Nat) :
    Except String (Inspection Address) := do
  let slot ← program.add table (4 * index)
  let raw ← program.getBytes slot 4
  let target ← program.add program.imageBase (LittleEndian.ofBytes raw.toList)
  let s := countTarget listing s target
  let stub ← program.getBytes target 5
  if !isE9 stub then pure (printEntry listing bias s index target none)
  else do
    let displacement := LittleEndian.signed 32 (LittleEndian.ofBytes stub.toList.tail)
    let destination ← program.add target (5 + displacement)
    let s := { s with
      uniqueDestinations := add s.uniqueDestinations (listing.toText destination)
      directStubs := s.directStubs + 1 }
    pure (printEntry listing bias s index target (some destination))

/-- The loop over the table, which the monitor may end. -/
def inspectAll (table : Address) (bias : Int) (monitor : Monitor) :
    List Nat → Inspection Address → Except String (Inspection Address)
  | [], s => .ok s
  | index :: indices, s =>
    if monitor index then .ok s
    else do
      let s ← inspectEntry program listing table bias s index
      inspectAll table bias monitor indices s

/-- `run`, with the arguments parsed: the lines printed, or the exception thrown. -/
def run (table : Address) (count bias : Int) (monitor : Monitor) :
    Except String (List (Line Address)) :=
  if count < 1 ∨ 512 < count then .error "Count must be 1..512"
  else do
    let s ← inspectAll program listing table bias monitor (List.range count.toNat) {}
    return s.lines.map .entry ++ [.summary count s.uniqueTargets.length s.mapped s.decoded
      s.directStubs s.uniqueDestinations.length program.imageBase]

/-- What is done with an entry once it has been read. -/
def record (bias : Int) (s : Inspection Address) (entry : TableEntry Address) :
    Inspection Address :=
  let s := countTarget listing s entry.stub
  match entry.destination with
  | none => printEntry listing bias s entry.index entry.stub none
  | some destination => printEntry listing bias { s with
      uniqueDestinations := add s.uniqueDestinations (listing.toText destination)
      directStubs := s.directStubs + 1 } entry.index entry.stub (some destination)

variable {program listing} {table : Address} {count bias : Int} {monitor : Monitor}

variable (program listing table bias) in
theorem inspectEntry_eq (s : Inspection Address) (index : Nat) :
    inspectEntry program listing table bias s index =
      (readEntry program table index).map (record listing bias s) := by
  rw [inspectEntry, readEntry]
  cases program.add table (4 * index) with
  | error e => rfl
  | ok slot =>
    change (program.getBytes slot 4 >>= _) = Except.map _ (program.getBytes slot 4 >>= _)
    cases program.getBytes slot 4 with
    | error e => rfl
    | ok raw =>
      change (program.add program.imageBase _ >>= _) =
        Except.map _ (program.add program.imageBase _ >>= _)
      cases program.add program.imageBase (LittleEndian.ofBytes raw.toList) with
      | error e => rfl
      | ok target =>
        change (program.getBytes target 5 >>= _) = Except.map _ (program.getBytes target 5 >>= _)
        cases program.getBytes target 5 with
        | error e => rfl
        | ok stub =>
          simp only [bind, Except.bind]
          split_ifs
          · rfl
          · cases program.add target
              (5 + LittleEndian.signed 32 (LittleEndian.ofBytes stub.toList.tail)) with
            | error e => rfl
            | ok destination => rfl

theorem inspectAll_uncancelled (huncancelled : ∀ turn, monitor turn = false) (indices : List Nat)
    (s : Inspection Address) : inspectAll program listing table bias monitor indices s =
      indices.foldlM (inspectEntry program listing table bias) s := by
  induction indices generalizing s with
  | nil => rfl
  | cons index indices ih =>
    rw [inspectAll, huncancelled, if_neg Bool.false_ne_true, List.foldlM_cons]
    exact congrArg _ (funext ih)

/-- What is printed for an entry. -/
def entryLine (listing : Listing Address) (bias : Int) (entry : TableEntry Address) :
    EntryLine Address :=
  ⟨entry.index, commandText entry.index bias, entry.stub, entry.destination,
    listing.contains entry.stub, listing.hasInstruction entry.stub, listing.functionName entry.stub⟩

theorem foldl_add (texts known : List String) :
    texts.foldl add known = known ++ fresh known texts := by
  induction texts generalizing known with
  | nil => exact (List.append_nil known).symm
  | cons text texts ih =>
    rw [List.foldl_cons, ih, add]
    by_cases hknown : text ∈ known
    · rw [if_pos (by simpa using hknown), fresh_cons_of_mem hknown]
    · rw [if_neg (by simpa using hknown), fresh_cons_of_notMem hknown, List.append_assoc,
        List.singleton_append]

variable (listing bias) in
/-- The loop over what has been read, field by field. -/
theorem foldl_record (entries : List (TableEntry Address)) (s : Inspection Address) :
    let s' := entries.foldl (record listing bias) s
    s'.lines = s.lines ++ entries.map (entryLine listing bias) ∧
    s'.uniqueTargets = (entries.map fun entry => listing.toText entry.stub).foldl add
      s.uniqueTargets ∧
    s'.uniqueDestinations = ((entries.filterMap TableEntry.destination).map listing.toText).foldl add
      s.uniqueDestinations ∧
    s'.mapped = s.mapped + entries.countP (fun entry => listing.contains entry.stub) ∧
    s'.decoded = s.decoded + entries.countP (fun entry => listing.hasInstruction entry.stub) ∧
    s'.directStubs = s.directStubs + (entries.filterMap TableEntry.destination).length := by
  induction entries generalizing s with
  | nil => simp
  | cons entry entries ih =>
    intro s'
    have hrest := ih (record listing bias s entry)
    obtain ⟨hlines, htargets, hdestinations, hmapped, hdecoded, hstubs⟩ := hrest
    simp only [s', List.foldl_cons, hlines, htargets, hdestinations, hmapped, hdecoded, hstubs,
      List.map_cons, List.countP_cons]
    cases hdestination : entry.destination with
    | none =>
      rw [List.filterMap_cons_none hdestination]
      simp only [record, hdestination, countTarget, printEntry, entryLine, List.append_assoc,
        List.singleton_append, true_and]
      refine ⟨?_, ?_, trivial⟩
      · split_ifs <;> omega
      · split_ifs <;> omega
    | some destination =>
      rw [List.filterMap_cons_some hdestination]
      simp only [record, hdestination, countTarget, printEntry, entryLine, List.append_assoc,
        List.singleton_append, List.map_cons, List.foldl_cons, List.length_cons, true_and]
      refine ⟨?_, ?_, ?_⟩
      · split_ifs <;> omega
      · split_ifs <;> omega
      · omega

theorem readEntry_index {index : Nat} {entry : TableEntry Address}
    (h : readEntry program table index = .ok entry) : entry.index = index := by
  rw [readEntry] at h
  obtain ⟨slot, -, h⟩ := Raising.except_bind_eq_ok.mp h
  obtain ⟨raw, -, h⟩ := Raising.except_bind_eq_ok.mp h
  obtain ⟨stub, -, h⟩ := Raising.except_bind_eq_ok.mp h
  obtain ⟨jump, -, h⟩ := Raising.except_bind_eq_ok.mp h
  split_ifs at h
  · cases h
    rfl
  · obtain ⟨destination, -, h⟩ := Raising.except_bind_eq_ok.mp h
    cases h
    rfl

theorem run_uncancelled (hcount : 1 ≤ count ∧ count ≤ 512)
    (huncancelled : ∀ turn, monitor turn = false) :
    run program listing table count bias monitor =
      (readTable program table count).map fun entries =>
        (entries.map fun entry => .entry (entryLine listing bias entry)) ++
          [.summary count (((entries.map fun entry => listing.toText entry.stub).foldl add []).length)
            (entries.countP fun entry => listing.contains entry.stub)
            (entries.countP fun entry => listing.hasInstruction entry.stub)
            (entries.filterMap TableEntry.destination).length
            (((entries.filterMap TableEntry.destination).map listing.toText).foldl add []).length
            program.imageBase] := by
  rw [run, if_neg (by omega), inspectAll_uncancelled huncancelled,
    Raising.foldlM_eq_mapM (inspectEntry_eq program listing table bias), readTable]
  cases (List.range count.toNat).mapM (readEntry program table) with
  | error e => rfl
  | ok entries =>
    obtain ⟨hlines, htargets, hdestinations, hmapped, hdecoded, hstubs⟩ :=
      foldl_record listing bias entries {}
    simp only [Except.map, bind, Except.bind, pure, Except.pure, hlines, htargets, hdestinations,
      hmapped, hdecoded, hstubs, List.nil_append, Nat.zero_add, List.map_map]
    rfl

section

variable [LinearOrder Address]

/-- The cases are the destinations. -/
theorem mem_cases {entries : List (TableEntry Address)} {destination : Address} :
    destination ∈ entries.foldl (addEntry bias) (∅ : Cases Address) ↔
      destination ∈ entries.filterMap TableEntry.destination :=
  Grouping.mem_groups.trans List.mem_filterMap.symm

/-- Texts are counted like the addresses that they stand for. -/
theorem length_foldl_add (htext : Function.Injective listing.toText) (addresses : List Address) :
    ((addresses.map listing.toText).foldl add []).length = addresses.dedup.length := by
  rw [foldl_add, List.nil_append, ← List.length_map listing.toText]
  have hnodup := nodup_append_fresh (l := addresses.map listing.toText)
    (List.nodup_nil (α := String))
  have hdedup := (List.nodup_dedup addresses).map htext
  refine ((List.perm_ext_iff_of_nodup hnodup hdedup).mpr fun text => ?_).length_eq
  rw [List.nil_append, mem_fresh, List.mem_map, List.mem_map]
  simp only [List.not_mem_nil, not_false_eq_true, and_true, List.mem_dedup]

/-- There are as many cases as destinations. -/
theorem size_cases (entries : List (TableEntry Address)) :
    (entries.foldl (addEntry bias) (∅ : Cases Address)).size =
      (entries.filterMap TableEntry.destination).dedup.length := by
  rw [← Std.TreeMap.length_keys]
  refine ((List.perm_ext_iff_of_nodup Std.TreeMap.nodup_keys (List.nodup_dedup _)).mpr
    fun destination => ?_).length_eq
  rw [Std.TreeMap.mem_keys, List.mem_dedup, mem_cases]

/-- The two scripts on one table, with a monitor that does not end the loop. They fail alike. If
they do not, an entry is printed for every index; a case has the commands that are printed before
its address as destination, in their order, and there are no other cases; and the numbers in the
summary are those of the entries printed, the last of them that of the cases. -/
theorem jump_table_agrees (program : Program Address) (listing : Listing Address)
    (arguments : Arguments Address) (monitor : Monitor)
    (hcount : 1 ≤ arguments.count ∧ arguments.count ≤ 512)
    (huncancelled : ∀ turn, monitor turn = false) (htext : Function.Injective listing.toText) :
    (∀ e, run program listing arguments.table arguments.count arguments.bias monitor = .error e ↔
      resolveCases program arguments = .error e) ∧
    ∀ lines, run program listing arguments.table arguments.count arguments.bias monitor =
        .ok lines →
      ∃ (entries : List (EntryLine Address)) (cases : Cases Address),
        resolveCases program arguments = .ok cases ∧
        lines = entries.map .entry ++ [.summary arguments.count
          (entries.map EntryLine.target).dedup.length (entries.countP EntryLine.mapped)
          (entries.countP EntryLine.instruction)
          (entries.countP fun line => line.destination.isSome) cases.size program.imageBase] ∧
        entries.map EntryLine.index = List.range arguments.count.toNat ∧
        ∀ destination commands, cases[destination]? = some commands ↔
          commands ≠ [] ∧ commands = (entries.filter fun line =>
            line.destination = some destination).map EntryLine.command := by
  rw [run_uncancelled hcount huncancelled, resolveCases_eq]
  cases hentries : readTable program arguments.table arguments.count with
  | error e =>
    refine ⟨fun e' => ?_, nofun⟩
    simp only [Except.map, Except.error.injEq]
  | ok entries =>
    refine ⟨fun e => iff_of_false nofun nofun, fun lines hlines => ?_⟩
    cases hlines
    refine ⟨entries.map (entryLine listing arguments.bias), _, rfl, ?_, ?_, ?_⟩
    · have htargets := length_foldl_add htext (entries.map TableEntry.stub)
      have hdestinations := length_foldl_add htext (entries.filterMap TableEntry.destination)
      rw [List.map_map] at htargets
      simp only [Function.comp_def] at htargets
      dsimp only
      rw [htargets, hdestinations, size_cases, List.length_filterMap_eq_countP, List.map_map,
        List.map_map, List.countP_map, List.countP_map, List.countP_map]
      rfl
    · rw [List.map_map]
      exact Raising.map_of_mapM (fun index entry => readEntry_index) hentries
    · intro destination commands
      rw [getElem?_cases, and_comm, List.filter_map, List.map_map]
      rfl

/-- `Address.toString` of an address of four bytes. -/
def addressText (address : Nat) : String :=
  let digits := Nat.toDigits 16 address
  String.ofList (List.replicate (8 - digits.length) '0' ++ digits)

theorem addressText_injective : Function.Injective addressText := by
  refine Function.LeftInverse.injective (g := fun text =>
    Digits.number 16 (fun c => if c.isDigit then c.toNat - 48 else c.toNat - 87) text.toList)
    fun address => ?_
  dsimp only [addressText]
  rw [String.toList_ofList, Digits.number_leading_zeros rfl]
  exact Digits.number_toDigits (by decide) (by decide) address

def fallingListing : Listing Nat where
  contains _ := true
  hasInstruction address := address = 20
  functionName _ := none
  toText := addressText

theorem jump_table_agrees_falling :
    run fallingCase fallingListing 100 1 0 (fun _ => false) =
      .ok [.entry ⟨0, "00", 10, some 20, true, false, none⟩, .summary 1 1 1 0 1 1 0] ∧
    ∃ cases, resolveCases fallingCase fallingArguments = .ok cases ∧ cases[20]? = some ["00"] := by
  have hrun : run fallingCase fallingListing 100 1 0 (fun _ => false) =
      .ok [.entry ⟨0, "00", 10, some 20, true, false, none⟩, .summary 1 1 1 0 1 1 0] := by
    decide +kernel
  obtain ⟨-, hok⟩ := jump_table_agrees fallingCase fallingListing fallingArguments (fun _ => false)
    (by decide) (fun _ => rfl) addressText_injective
  obtain ⟨entries, cases, hcases, hlines, -, hcommands⟩ := hok _ hrun
  cases entries with
  | nil => cases hlines
  | cons entry entries =>
    cases entries with
    | cons => cases hlines
    | nil =>
      have hentry := Line.entry.inj (List.cons.inj hlines).1
      subst hentry
      exact ⟨hrun, cases, hcases, (hcommands 20 ["00"]).mpr ⟨by decide, rfl⟩⟩

end

end JumpTable
end Army3
