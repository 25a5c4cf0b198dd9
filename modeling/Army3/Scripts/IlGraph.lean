import Army3.Framework.Digits
import Army3.Framework.Grouping
import Army3.Scripts.CallPaths
import Army3.Scripts.IlDump

/-! The call graph that `trace-il-reachability.ps1` makes of a file of `inspect-il-calls.ps1`. -/

namespace Army3

section

variable {width : Nat} {n : Int}

theorem paddedHex_toList : (paddedHex width n).toList =
    List.replicate (width - (Nat.toDigits 16 (n % 0x100000000).toNat).length) '0' ++
      (Nat.toDigits 16 (n % 0x100000000).toNat).map Char.toUpper := by
  rw [paddedHex, String.toList_ofList, List.length_map]

theorem length_paddedHex : (paddedHex 8 n).toList.length = 8 := by
  have hlength : (Nat.toDigits 16 (n % 0x100000000).toNat).length ≤ 8 :=
    (Nat.length_toDigits_le_iff (by decide) (by decide)).mpr (by omega)
  rw [paddedHex_toList, List.length_append, List.length_replicate, List.length_map]
  omega

theorem exists_of_mem_paddedHex {c : Char} (h : c ∈ (paddedHex width n).toList) :
    ∃ d < 16, c = d.digitChar.toUpper := by
  rw [paddedHex_toList, List.mem_append, List.mem_map] at h
  rcases h with hzero | ⟨digit, hdigit, rfl⟩
  · exact ⟨0, by decide, List.eq_of_mem_replicate hzero⟩
  · obtain ⟨d, hd, rfl⟩ := Digits.exists_of_mem_toDigits (by decide) hdigit
    exact ⟨d, hd, rfl⟩

theorem isHexDigit_of_mem {c : Char} (h : c ∈ (paddedHex width n).toList) :
    IlReachability.isHexDigit c = true := by
  obtain ⟨d, hd, rfl⟩ := exists_of_mem_paddedHex h
  have hall : ∀ d < 16, IlReachability.isHexDigit d.digitChar.toUpper = true := by decide
  exact hall d hd

theorem number_paddedHex :
    Digits.number 16 IlReachability.hexDigitValue (paddedHex 8 n).toList =
      (n % 0x100000000).toNat := by
  rw [paddedHex_toList, Digits.number_leading_zeros (by decide), Digits.number_map]
  exact Digits.number_toDigits (by decide) (by decide) _

end

namespace IlReachability

/-- `Convert-Token` reads back the tokens that the scripts write. -/
theorem convertToken_paddedHex {n : Int} (h : IsInt32 n) :
    convertToken ("0x" ++ paddedHex 8 n) = .ok n := by
  have htext : ("0x" ++ paddedHex 8 n).toList = '0' :: 'x' :: (paddedHex 8 n).toList := by
    rw [String.toList_append]
    rfl
  have hdigits : ((paddedHex 8 n).toList).take 8 = (paddedHex 8 n).toList :=
    List.take_of_length_le length_paddedHex.le
  have hrest : ((paddedHex 8 n).toList).drop 8 = [] :=
    List.drop_of_length_le length_paddedHex.le
  rw [convertToken, htext]
  simp only [List.take_succ_cons, List.take_zero, List.drop_succ_cons, List.drop_zero, hdigits, hrest]
  rw [if_pos ⟨.inl trivial, length_paddedHex, List.all_eq_true.mpr fun c => isHexDigit_of_mem,
    .inl trivial⟩, if_pos trivial]
  have hnumber := number_paddedHex (n := n)
  rw [Digits.number] at hnumber
  obtain ⟨hlow, hhigh⟩ := h
  have hnat : (((n % 0x100000000).toNat : Nat) : Int) = n % (2 ^ 32 : Nat) :=
    Int.toNat_of_nonneg (Int.emod_nonneg n (by decide))
  rw [hnumber, LittleEndian.signed, BitVec.toInt_ofNat', hnat, Int.emod_bmod,
    Int.bmod_eq_of_le (by omega) (by omega)]

variable (tokensByName : String → Option (List Int)) (caller : Int) (row : CallRow)

/-- The row is a call from the method. -/
def IsCallFrom : Prop :=
  callOpcodes.any (sameText row.opcode) = true ∧ convertToken row.methodToken = .ok caller

instance : Decidable (IsCallFrom caller row) := inferInstanceAs (Decidable (_ ∧ _))

/-- What a row adds to the calls of a method. -/
def rowEdges : List Edge :=
  if IsCallFrom caller row then
    ((tokensByName row.target).getD []).map fun callee => ⟨callee, row.ilOffset, row.opcode⟩
  else []

/-- A target that is neither a method of the assembly nor one of the two libraries. -/
def isUnknown (target : String) : Bool :=
  (tokensByName target).isNone && !isLike target "System." && !isLike target "UnityEngine."

variable {tokensByName caller row} {graph graph' : CallGraph} {rows : List CallRow}

theorem getD_alter_succ (counts : Std.TreeMap Int Nat) (source caller : Int) :
    ((counts.alter source fun old => some (old.getD 0 + 1))[caller]?).getD 0 =
      (counts[caller]?).getD 0 + if source = caller then 1 else 0 := by
  rw [Std.TreeMap.getElem?_alter]
  by_cases hsame : source = caller
  · rw [if_pos (compare_eq_iff_eq.mpr hsame), if_pos hsame, hsame, Option.getD_some]
  · rw [if_neg (mt compare_eq_iff_eq.mp hsame), if_neg hsame, Nat.add_zero]

variable (caller) in
theorem calls_addRow (h : addRow tokensByName graph row = .ok graph') :
    graph'.calls caller = graph.calls caller ++ rowEdges tokensByName caller row ∧
    graph'.unresolved[caller]?.getD 0 = graph.unresolved[caller]?.getD 0 +
      if IsCallFrom caller row ∧ isUnknown tokensByName row.target = true then 1 else 0 := by
  rw [addRow] at h
  by_cases hcall : callOpcodes.any (sameText row.opcode) = true
  · rw [if_neg (not_not_intro hcall)] at h
    obtain ⟨source, hsource, h⟩ := Raising.except_bind_eq_ok.mp h
    have hfrom : IsCallFrom caller row ↔ source = caller := by
      rw [IsCallFrom, hsource, Except.ok.injEq]
      exact and_iff_right hcall
    rw [rowEdges, isUnknown]
    simp only [hfrom]
    cases hcallees : tokensByName row.target with
    | some callees =>
      rw [hcallees] at h
      cases h
      rw [CallGraph.calls, getD_alter_append]
      exact ⟨rfl, by simp⟩
    | none =>
      have hkept := getD_alter_append graph.edges source caller []
      simp only [List.append_nil, ite_self] at hkept
      rw [hcallees] at h
      dsimp only at h
      rw [CallGraph.calls, CallGraph.calls]
      split_ifs at h with hlike
      · cases h
        rw [hkept, getD_alter_succ]
        simp [hlike]
      · cases h
        rw [hkept]
        refine ⟨by simp, ?_⟩
        rw [if_neg fun hunknown => hlike ?_, Nat.add_zero]
        simpa using hunknown.2
  · rw [if_pos hcall] at h
    cases h
    have hother : ¬ IsCallFrom caller row := fun hfrom => hcall hfrom.1
    rw [rowEdges, if_neg hother, List.append_nil, if_neg fun hfrom => hother hfrom.1]
    exact ⟨rfl, rfl⟩

variable (caller) in
theorem calls_foldlM_addRow (h : rows.foldlM (addRow tokensByName) graph = .ok graph') :
    graph'.calls caller = graph.calls caller ++ rows.flatMap (rowEdges tokensByName caller) ∧
    graph'.unresolved[caller]?.getD 0 = graph.unresolved[caller]?.getD 0 +
      rows.countP fun row => IsCallFrom caller row ∧ isUnknown tokensByName row.target = true := by
  induction rows generalizing graph with
  | nil =>
    cases h
    exact ⟨(List.append_nil _).symm, rfl⟩
  | cons row rows ih =>
    rw [List.foldlM_cons] at h
    obtain ⟨middle, hfirst, hlater⟩ := Raising.except_bind_eq_ok.mp h
    obtain ⟨hcalls, hunknown⟩ := calls_addRow caller hfirst
    obtain ⟨hmore, hrest⟩ := ih hlater
    rw [hmore, hcalls, hrest, hunknown, List.flatMap_cons, List.append_assoc, List.countP_cons]
    refine ⟨rfl, ?_⟩
    simp only [decide_eq_true_eq]
    omega

variable (caller) in
/-- The calls of a method are those of its rows, in their order. -/
theorem calls_buildGraph (h : buildGraph tokensByName rows = .ok graph) :
    graph.calls caller = rows.flatMap (rowEdges tokensByName caller) ∧
    graph.unresolved[caller]?.getD 0 =
      rows.countP fun row => IsCallFrom caller row ∧ isUnknown tokensByName row.target = true := by
  obtain ⟨hcalls, hunknown⟩ := calls_foldlM_addRow caller h
  rw [hcalls, hunknown, CallGraph.calls, Std.TreeMap.getElem?_emptyc, Std.TreeMap.getElem?_emptyc]
  exact ⟨rfl, Nat.zero_add _⟩

variable (tokensByName) in
/-- Only a token that cannot be read stops the script here. -/
theorem buildGraph_ok (h : ∀ row ∈ rows, callOpcodes.any (sameText row.opcode) = true →
    ∃ caller, convertToken row.methodToken = .ok caller) (graph : CallGraph) :
    ∃ graph', rows.foldlM (addRow tokensByName) graph = .ok graph' := by
  induction rows generalizing graph with
  | nil => exact ⟨graph, rfl⟩
  | cons row rows ih =>
    obtain ⟨hrow, hrows⟩ := List.forall_mem_cons.mp h
    have hfirst : ∃ middle, addRow tokensByName graph row = .ok middle := by
      rw [addRow]
      by_cases hcall : callOpcodes.any (sameText row.opcode) = true
      · obtain ⟨caller, hcaller⟩ := hrow hcall
        rw [if_neg (not_not_intro hcall), hcaller]
        simp only [bind, Except.bind]
        cases tokensByName row.target with
        | some callees => exact ⟨_, rfl⟩
        | none =>
          dsimp only
          split_ifs <;> exact ⟨_, rfl⟩
      · exact ⟨graph, if_pos hcall⟩
    obtain ⟨middle, hmiddle⟩ := hfirst
    obtain ⟨graph', hgraph'⟩ := ih hrows middle
    refine ⟨graph', ?_⟩
    rw [List.foldlM_cons, hmiddle]
    exact hgraph'

end IlReachability

namespace IlDump

open IlReachability

def isPlain (c : Char) : Bool := 0x20 ≤ c.toNat && c.toNat ≤ 0x7E && c ≠ '"'

/-- A text that a tab-separated file keeps as it is. -/
def Plain (field : String) : Prop :=
  field ≠ "" ∧ field.toList.all isPlain = true ∧ field.toList.head? ≠ some ' ' ∧
    field.toList.getLast? ≠ some ' '

instance (field : String) : Decidable (Plain field) := inferInstanceAs (Decidable (_ ∧ _))

/-- A text that begins a quoted field. -/
def Quoted (field : String) : Prop := (field.toList.dropWhile (· = ' ')).head? = some '"'

instance (field : String) : Decidable (Quoted field) := inferInstanceAs (Decidable (_ = _))

/-- `Import-Csv` with tabs between the fields, for lines in which no quoted field begins: what it
makes of a line. -/
structure ImportCsv where
  row : String → CallRow
  plain : ∀ methodToken methodName ilOffset opcode target, Plain methodToken → Plain methodName →
    Plain ilOffset → Plain opcode → Plain target →
      row (methodToken ++ "\t" ++ methodName ++ "\t" ++ ilOffset ++ "\t" ++ opcode ++ "\t" ++ target) =
        ⟨opcode, methodToken, target, ilOffset⟩
  opcode : ∀ methodToken methodName ilOffset opcode target, Plain methodToken → Plain methodName →
    Plain ilOffset → Plain opcode → ¬ Quoted target →
      (row (methodToken ++ "\t" ++ methodName ++ "\t" ++ ilOffset ++ "\t" ++ opcode ++ "\t" ++
        target)).opcode = opcode

/-- The rows after the header. -/
def ImportCsv.rows (csv : ImportCsv) (lines : List String) : List CallRow := lines.tail.map csv.row

/-- `Get-TypeName` -/
def getTypeName : TypeDefinition → String
  | .topLevel namespaceName name =>
    if namespaceName ≠ "" then namespaceName ++ "." ++ name else name
  | .nested _ name declaringType => getTypeName declaringType ++ "+" ++ name

/-- A key of a hashtable, which does not tell capitals apart. -/
def lower (text : String) : String := String.ofList (text.toList.map Char.toLower)

def nameKey (entry : String × Int) : Option String := some (lower entry.1)

namespace Assembly

variable (a : Assembly)

/-- The names of the methods, with their tokens. -/
def methodNames : List (String × Int) :=
  a.members.map fun (type, method) => (getTypeName type ++ "::" ++ method.name, method.token)

def nameByToken : Std.TreeMap Int String := Std.TreeMap.ofList (a.methodNames.map Prod.swap) compare

def tokensByName (name : String) : Option (List Int) :=
  (a.methodNames.foldl (Grouping.add nameKey Prod.snd) (∅ : Std.TreeMap String (List Int)))[lower name]?

/-- The edges that the instruction gives. -/
def edgesOf (bytes : Bytes) (instruction : Instruction) : List Edge :=
  (((a.calledName bytes instruction).bind a.tokensByName).getD []).map fun callee =>
    ⟨callee, "0x" ++ paddedHex 4 instruction.offset.value, instruction.opcode.name⟩

/-- The instruction calls something that is not known. -/
def unresolvedAt (bytes : Bytes) (instruction : Instruction) : Bool :=
  (a.calledName bytes instruction).any (isUnknown a.tokensByName)

/-- The texts of the assembly do not disturb the file. The opcodes are those of .NET. -/
structure PlainTexts (table : OpcodeTable) : Prop where
  opcodes : ∀ value opcode, table value = some opcode → Plain opcode.name
  methods : ∀ member ∈ a.members, Plain member.2.name
  targets : ∀ token target, a.resolveMethodToken token = .ok target → Plain target
  strings : ∀ row text, a.userString row = .ok text → ¬ Quoted (safe text)

end Assembly

variable {a : Assembly} {table : OpcodeTable} {csv : ImportCsv} {method : MethodDefinition}
  {bytes : Bytes} {instruction : Instruction} {target : String} {type : TypeDefinition}

theorem plain_append {first second : String} (hfirst : Plain first) (hsecond : Plain second) :
    Plain (first ++ second) := by
  obtain ⟨hne, hchars, hhead, hlast⟩ := hfirst
  obtain ⟨hne', hchars', hhead', hlast'⟩ := hsecond
  have hfirst : first.toList ≠ [] := mt String.toList_eq_nil_iff.mp hne
  have hsecond : second.toList ≠ [] := mt String.toList_eq_nil_iff.mp hne'
  refine ⟨?_, ?_, ?_, ?_⟩
  · exact fun hempty => hne (String.append_eq_empty_iff.mp hempty).1
  · rw [String.toList_append, List.all_append, hchars, hchars']
    rfl
  · rw [String.toList_append, List.head?_append_of_ne_nil _ hfirst]
    exact hhead
  · rw [String.toList_append, List.getLast?_append_of_ne_nil _ hsecond]
    exact hlast'

theorem plain_paddedHex {width : Nat} {n : Int} : Plain (paddedHex width n) := by
  have hchar : ∀ c ∈ (paddedHex width n).toList, isPlain c = true ∧ c ≠ ' ' := by
    intro c hc
    obtain ⟨d, hd, rfl⟩ := exists_of_mem_paddedHex hc
    have hall : ∀ d < 16, isPlain d.digitChar.toUpper = true ∧ d.digitChar.toUpper ≠ ' ' := by
      decide
    exact hall d hd
  refine ⟨fun hempty => ?_, List.all_eq_true.mpr fun c hc => (hchar c hc).1, fun hhead => ?_,
    fun hlast => ?_⟩
  · have htext := @paddedHex_toList width n
    rw [hempty] at htext
    have hdigits := List.append_eq_nil_iff.mp htext.symm
    exact Nat.toDigits_ne_nil (List.map_eq_nil_iff.mp hdigits.2)
  · exact (hchar _ (List.mem_of_head? hhead)).2 rfl
  · exact (hchar _ (List.mem_of_getLast? hlast)).2 rfl

theorem plain_hex {width : Nat} {n : Int} : Plain ("0x" ++ paddedHex width n) :=
  plain_append (by decide) plain_paddedHex

theorem safe_of_plain (h : Plain target) : safe target = target := by
  apply String.toList_inj.mp
  rw [safe, String.toList_map]
  have hkept : ∀ c ∈ target.toList,
      (if c = '\r' ∨ c = '\n' ∨ c = '\t' then ' ' else c) = id c := by
    intro c hc
    have hlow := List.all_eq_true.mp h.2.1 c hc
    rw [if_neg, id]
    rintro (rfl | rfl | rfl) <;> exact absurd hlow (by decide)
  rw [List.map_congr_left hkept, List.map_id]

/-- A call instruction that is resolved. -/
theorem calledName_eq_some : a.calledName bytes instruction = some target ↔
    instruction.opcode.name ∈ callOpcodes ∧ ∃ token, toInt32 bytes instruction.operand = .ok token ∧
      a.resolveMethodToken token = .ok target := by
  rw [Assembly.calledName]
  by_cases hcall : instruction.opcode.name ∈ callOpcodes
  · rw [if_pos hcall, and_iff_right hcall]
    cases htoken : toInt32 bytes instruction.operand with
    | error e => simp
    | ok token =>
      dsimp only
      cases hresolved : a.resolveMethodToken token with
      | error e => simp [hresolved, Except.toOption]
      | ok name => simp [hresolved, Except.toOption]
  · rw [if_neg hcall]
    exact iff_of_false (fun h => by cases h) fun h => hcall h.1

theorem loadedString_ok {text : String} (h : a.loadedString bytes instruction = some text) :
    instruction.opcode.name = "ldstr" ∧ ∃ row, a.userString row = .ok text := by
  rw [Assembly.loadedString] at h
  split_ifs at h with hstring
  cases htoken : toInt32 bytes instruction.operand with
  | error e =>
    rw [htoken] at h
    cases h
  | ok token =>
    rw [htoken] at h
    dsimp only at h
    cases hloaded : a.userString (tokenRow token) with
    | error e =>
      rw [hloaded] at h
      cases h
    | ok loaded =>
      rw [hloaded] at h
      cases h
      exact ⟨hstring, _, hloaded⟩

theorem any_sameText {name : String} (h : name ∈ callOpcodes) :
    callOpcodes.any (sameText name) = true :=
  List.any_eq_true.mpr ⟨name, h, decide_eq_true rfl⟩

variable (csv) in
/-- What the second script reads of a row that the first has written. -/
theorem row_read (hplain : a.PlainTexts table) (hmember : (type, method) ∈ a.members)
    (hopcode : ∃ value, table value = some instruction.opcode) {row : Row}
    (hrow : a.rowOf method bytes instruction = some row) :
    (∃ target, a.calledName bytes instruction = some target ∧
      csv.row row.line = ⟨instruction.opcode.name, "0x" ++ paddedHex 8 method.token, target,
        "0x" ++ paddedHex 4 instruction.offset.value⟩) ∨
    (a.calledName bytes instruction = none ∧ (csv.row row.line).opcode = "ldstr") := by
  obtain ⟨value, hvalue⟩ := hopcode
  have hname := hplain.opcodes value _ hvalue
  have hmethod := hplain.methods _ hmember
  obtain ⟨text, htext, rfl⟩ := Option.map_eq_some_iff.mp hrow
  cases hcalled : a.calledName bytes instruction with
  | some target =>
    rw [hcalled, Option.some_or] at htext
    cases htext
    obtain ⟨-, token, -, hresolved⟩ := calledName_eq_some.1 hcalled
    have htarget := hplain.targets token text hresolved
    refine .inl ⟨text, rfl, ?_⟩
    rw [safe_of_plain htarget]
    exact csv.plain _ _ _ _ _ plain_hex hmethod plain_hex hname htarget
  | none =>
    rw [hcalled, Option.none_or] at htext
    obtain ⟨hstring, row, hloaded⟩ := loadedString_ok htext
    have hsafe := hplain.strings row text hloaded
    refine .inr ⟨rfl, ?_⟩
    rw [← hstring]
    exact csv.opcode _ _ _ _ _ plain_hex hmethod plain_hex hname hsafe

theorem members_snd (a : Assembly) : a.members.map Prod.snd = a.types.flatMap Prod.snd := by
  rw [Assembly.members, List.map_flatMap]
  refine congrArg (List.flatMap · a.types) (funext fun entry => ?_)
  rw [List.map_map]
  exact List.map_id _

theorem mem_types (hmember : (type, method) ∈ a.members) : method ∈ a.types.flatMap Prod.snd := by
  rw [← members_snd]
  exact List.mem_map_of_mem hmember

theorem nodup_tokens (a : Assembly) :
    ((a.members.map Prod.snd).map MethodDefinition.token).Nodup := by
  rw [members_snd]
  refine List.Nodup.of_map (fun token => (token - 0x06000000).toNat) ?_
  rw [List.map_map]
  convert a.distinct using 2
  funext method
  simp only [Function.comp_apply, MethodDefinition.token]
  omega

theorem isInt32_token (hmember : (type, method) ∈ a.members) : IsInt32 method.token := by
  have hsmall := a.small method (mem_types hmember)
  rw [IsInt32, MethodDefinition.token]
  omega

variable (csv) in
/-- What the graph gets from a row. -/
theorem added_of_row (hplain : a.PlainTexts table) (hmember : (type, method) ∈ a.members)
    (hopcode : ∃ value, table value = some instruction.opcode) {row : Row}
    (hrow : a.rowOf method bytes instruction = some row) (caller : Int) :
    rowEdges a.tokensByName caller (csv.row row.line) =
      (if method.token = caller then a.edgesOf bytes instruction else []) ∧
    ((IsCallFrom caller (csv.row row.line) ∧
        isUnknown a.tokensByName (csv.row row.line).target = true) ↔
      method.token = caller ∧ a.unresolvedAt bytes instruction = true) := by
  rcases row_read csv hplain hmember hopcode hrow with ⟨target, hcalled, hread⟩ | ⟨hnone, hread⟩
  · have hfrom : IsCallFrom caller (csv.row row.line) ↔ method.token = caller := by
      rw [IsCallFrom, hread, convertToken_paddedHex (isInt32_token hmember), Except.ok.injEq]
      exact and_iff_right (any_sameText (calledName_eq_some.1 hcalled).1)
    refine ⟨?_, ?_⟩
    · rw [rowEdges, Assembly.edgesOf, hcalled, hread, Option.bind_some]
      rw [hread] at hfrom
      simp only [hfrom]
    · rw [hfrom, hread, Assembly.unresolvedAt, hcalled]
      rfl
  · have hother : ¬ IsCallFrom caller (csv.row row.line) := by
      rw [IsCallFrom, hread]
      exact fun h => absurd h.1 (by decide)
    rw [rowEdges, if_neg hother, Assembly.edgesOf, Assembly.unresolvedAt, hnone]
    refine ⟨?_, iff_of_false (fun h => hother h.1) (fun h => nomatch h.2)⟩
    split_ifs <;> rfl

theorem nothing_of_rowOf (h : a.rowOf method bytes instruction = none) :
    a.edgesOf bytes instruction = [] ∧ a.unresolvedAt bytes instruction = false := by
  have hcalled : a.calledName bytes instruction = none := by
    rw [Assembly.rowOf, Option.map_eq_none_iff, Option.or_eq_none_iff] at h
    exact h.1
  rw [Assembly.edgesOf, Assembly.unresolvedAt, hcalled]
  exact ⟨rfl, rfl⟩

variable {instructions : List Instruction} {rows : List Row} {methods : List MethodDefinition}
  {caller : Int}

variable (csv) in
/-- The instructions of a method give what its rows give. -/
theorem added_of_rows (hplain : a.PlainTexts table) (hmember : (type, method) ∈ a.members)
    (hopcodes : ∀ instruction ∈ instructions, ∃ value, table value = some instruction.opcode) :
    ((instructions.filterMap (a.rowOf method bytes)).map fun row => csv.row row.line).flatMap
        (rowEdges a.tokensByName method.token) = instructions.flatMap (a.edgesOf bytes) ∧
    ((instructions.filterMap (a.rowOf method bytes)).map fun row => csv.row row.line).countP
        (fun row => IsCallFrom method.token row ∧ isUnknown a.tokensByName row.target = true) =
      instructions.countP (a.unresolvedAt bytes) := by
  induction instructions with
  | nil => exact ⟨rfl, rfl⟩
  | cons instruction instructions ih =>
    obtain ⟨hopcode, hlater⟩ := List.forall_mem_cons.mp hopcodes
    obtain ⟨hedges, hunknown⟩ := ih hlater
    rw [List.flatMap_cons, List.countP_cons]
    cases hrow : a.rowOf method bytes instruction with
    | none =>
      obtain ⟨hnone, hknown⟩ := nothing_of_rowOf hrow
      rw [List.filterMap_cons_none hrow, hnone, hknown, hedges, hunknown]
      exact ⟨rfl, rfl⟩
    | some row =>
      obtain ⟨hfirst, hcounts⟩ := added_of_row csv hplain hmember hopcode hrow method.token
      rw [if_pos rfl] at hfirst
      rw [List.filterMap_cons_some hrow, List.map_cons, List.flatMap_cons, List.countP_cons, hfirst,
        hedges, hunknown]
      simp only [decide_eq_true_eq, hcounts, true_and]

variable (csv) in
/-- A row adds nothing to the calls of other methods. -/
theorem not_isCallFrom (hplain : a.PlainTexts table)
    (hdumped : Dumped a table (a.members.map Prod.snd) rows) {row : Row} (hrow : row ∈ rows)
    (hother : row.token ≠ caller) : ¬ IsCallFrom caller (csv.row row.line) := by
  obtain ⟨method, hmethod, bytes, instructions, -, hdecodes, instruction, hmem, hinstruction⟩ :=
    hdumped.origin hrow
  obtain ⟨⟨type, method'⟩, hmember, rfl⟩ := List.mem_map.mp hmethod
  rw [token_of_rowOf hinstruction] at hother
  rcases row_read csv hplain hmember (hdecodes.opcode hmem) hinstruction with
    ⟨target, -, hread⟩ | ⟨-, hread⟩
  · rw [IsCallFrom, hread, convertToken_paddedHex (isInt32_token hmember), Except.ok.injEq]
    exact fun h => hother h.2
  · rw [IsCallFrom, hread]
    exact fun h => absurd h.1 (by decide)

theorem convertToken_row (hplain : a.PlainTexts table)
    (hdumped : Dumped a table (a.members.map Prod.snd) rows) {row : Row} (hrow : row ∈ rows)
    (hcall : callOpcodes.any (sameText (csv.row row.line).opcode) = true) :
    ∃ caller, convertToken (csv.row row.line).methodToken = .ok caller := by
  obtain ⟨method, hmethod, bytes, instructions, -, hdecodes, instruction, hmem, hinstruction⟩ :=
    hdumped.origin hrow
  obtain ⟨⟨type, method'⟩, hmember, rfl⟩ := List.mem_map.mp hmethod
  rcases row_read csv hplain hmember (hdecodes.opcode hmem) hinstruction with
    ⟨target, -, hread⟩ | ⟨-, hread⟩
  · rw [hread]
    exact ⟨_, convertToken_paddedHex (isInt32_token hmember)⟩
  · rw [hread] at hcall
    exact absurd hcall (by decide)

variable (csv caller) in
/-- What a method gets from the file it gets from its own rows. -/
theorem added_of_own (hplain : a.PlainTexts table)
    (hdumped : Dumped a table (a.members.map Prod.snd) rows) (part : List Row)
    (hpart : ∀ row ∈ part, row ∈ rows) :
    (part.map fun row => csv.row row.line).flatMap (rowEdges a.tokensByName caller) =
      ((part.filter (·.token = caller)).map fun row => csv.row row.line).flatMap
        (rowEdges a.tokensByName caller) ∧
    (part.map fun row => csv.row row.line).countP
        (fun row => IsCallFrom caller row ∧ isUnknown a.tokensByName row.target = true) =
      ((part.filter (·.token = caller)).map fun row => csv.row row.line).countP
        fun row => IsCallFrom caller row ∧ isUnknown a.tokensByName row.target = true := by
  induction part with
  | nil => exact ⟨rfl, rfl⟩
  | cons row others ih =>
    obtain ⟨hrow, hothers⟩ := List.forall_mem_cons.mp hpart
    obtain ⟨hedges, hunknown⟩ := ih hothers
    rw [List.map_cons, List.flatMap_cons, List.countP_cons, hedges, hunknown]
    by_cases hown : row.token = caller
    · rw [List.filter_cons, if_pos (decide_eq_true hown), List.map_cons, List.flatMap_cons,
        List.countP_cons]
      exact ⟨rfl, rfl⟩
    · have hother := not_isCallFrom csv hplain hdumped hrow hown
      rw [List.filter_cons, if_neg (by simpa using hown), rowEdges, if_neg hother, List.nil_append,
        if_neg (by simp [hother])]
      exact ⟨rfl, rfl⟩

variable (csv) in
/-- The graph is that of the instructions. -/
theorem graph_of_dumped (hplain : a.PlainTexts table)
    (hdumped : Dumped a table (a.members.map Prod.snd) rows) :
    ∃ graph, buildGraph a.tokensByName (rows.map fun row => csv.row row.line) = .ok graph ∧
      (∀ type method bytes instructions, (type, method) ∈ a.members → method.body = some bytes →
        Decodes table bytes method.name (.ofInt 0) instructions →
          graph.calls method.token = instructions.flatMap (a.edgesOf bytes) ∧
          graph.unresolved[method.token]?.getD 0 = instructions.countP (a.unresolvedAt bytes)) ∧
      ∀ caller, (∀ type method, (type, method) ∈ a.members → method.body ≠ none →
          method.token ≠ caller) →
        graph.calls caller = [] ∧ graph.unresolved[caller]?.getD 0 = 0 := by
  have hreadable : ∀ row ∈ rows.map fun row => csv.row row.line,
      callOpcodes.any (sameText row.opcode) = true →
        ∃ caller, convertToken row.methodToken = .ok caller := by
    intro row hrow hcall
    obtain ⟨written, hwritten, rfl⟩ := List.mem_map.mp hrow
    exact convertToken_row hplain hdumped hwritten hcall
  obtain ⟨graph, hgraph⟩ := buildGraph_ok a.tokensByName hreadable ⟨∅, ∅⟩
  refine ⟨graph, hgraph, ?_, ?_⟩
  · intro type method bytes instructions hmember hbody hdecodes
    obtain ⟨hcalls, hunknown⟩ := calls_buildGraph method.token hgraph
    obtain ⟨hown, hcounted⟩ := added_of_own csv method.token hplain hdumped rows fun _ hrow => hrow
    obtain ⟨hedges, hcount⟩ := added_of_rows csv hplain hmember fun _ => hdecodes.opcode
    rw [hdumped.filter_token (nodup_tokens a) (List.mem_map_of_mem hmember) hbody hdecodes]
      at hown hcounted
    exact ⟨hcalls.trans (hown.trans hedges), hunknown.trans (hcounted.trans hcount)⟩
  · intro caller hnobody
    obtain ⟨hcalls, hunknown⟩ := calls_buildGraph caller hgraph
    obtain ⟨hown, hcounted⟩ := added_of_own csv caller hplain hdumped rows fun _ hrow => hrow
    have hnone : rows.filter (·.token = caller) = [] := by
      refine List.filter_eq_nil_iff.mpr fun row hrow => ?_
      obtain ⟨method, hmethod, bytes, instructions, hbody, -, instruction, -, hinstruction⟩ :=
        hdumped.origin hrow
      obtain ⟨⟨type, method'⟩, hmember, rfl⟩ := List.mem_map.mp hmethod
      rw [decide_eq_true_eq, token_of_rowOf hinstruction]
      exact hnobody type _ hmember (by rw [hbody]; exact Option.some_ne_none bytes)
    rw [hnone] at hown hcounted
    exact ⟨hcalls.trans hown, hunknown.trans hcounted⟩

theorem targetMethods_star (a : Assembly) : a.targetMethods "*" = a.members.map Prod.snd := by
  rw [Assembly.targetMethods, List.filter_eq_self.mpr]
  intro member hmember
  rfl

theorem dumped_of_dumps {isMatch : Matches} {lines : List String}
    (h : a.Dumps table isMatch "" "" "*" lines) :
    ∃ rows, Dumped a table (a.members.map Prod.snd) rows ∧
      lines = Assembly.headerLine :: rows.map Row.line := by
  obtain ⟨fuel, h⟩ := h
  rw [Assembly.dump, targetMethods_star] at h
  split_ifs at h with hnone
  · cases h
  · obtain ⟨result, hresult, h⟩ := Option.map_eq_some_iff.mp h
    cases result with
    | error e => cases h
    | ok later =>
      obtain ⟨rows, hrows, rfl⟩ := dumped_of_dumpMethods hresult
      exact ⟨rows, hrows, (Except.ok.inj h).symm⟩

/-- A line is split at its tabs. -/
def tabRow (line : String) : CallRow :=
  let fields := (line.toList.splitOn '\t').map String.ofList
  ⟨fields.getD 3 "", fields.getD 0 "", fields.getD 4 "", fields.getD 2 ""⟩

theorem tab_notMem {field : String} (h : Plain field) : '\t' ∉ field.toList :=
  fun hmem => absurd (List.all_eq_true.mp h.2.1 _ hmem) (by decide)

theorem splitOn_line {methodToken methodName ilOffset opcode : String} (htoken : Plain methodToken)
    (hname : Plain methodName) (hoffset : Plain ilOffset) (hopcode : Plain opcode) (target : String) :
    (methodToken ++ "\t" ++ methodName ++ "\t" ++ ilOffset ++ "\t" ++ opcode ++ "\t" ++
        target).toList.splitOn '\t' =
      methodToken.toList :: methodName.toList :: ilOffset.toList :: opcode.toList ::
        target.toList.splitOn '\t' := by
  have htab : "\t".toList = ['\t'] := rfl
  simp only [String.toList_append, htab, List.append_assoc, List.cons_append, List.nil_append]
  rw [List.splitOn_append_cons_self_of_not_mem (tab_notMem htoken),
    List.splitOn_append_cons_self_of_not_mem (tab_notMem hname),
    List.splitOn_append_cons_self_of_not_mem (tab_notMem hoffset),
    List.splitOn_append_cons_self_of_not_mem (tab_notMem hopcode)]

def tabs : ImportCsv where
  row := tabRow
  plain methodToken methodName ilOffset opcode target htoken hname hoffset hopcode htarget := by
    rw [tabRow, splitOn_line htoken hname hoffset hopcode,
      List.splitOn_eq_singleton (tab_notMem htarget)]
    simp
  opcode methodToken methodName ilOffset opcode target htoken hname hoffset hopcode _ := by
    rw [tabRow, splitOn_line htoken hname hoffset hopcode]
    simp

/-- `Menu.Open` calls `Screen.Show`. -/
def menuTypes : List (TypeDefinition × List MethodDefinition) :=
  [(.topLevel "Game" "Menu", [⟨1, "Open", some [0x28, 2, 0, 0, 6, 0x2A]⟩]),
    (.topLevel "Game" "Screen", [⟨2, "Show", some [0x2A]⟩])]

def menuAssembly : Assembly where
  types := menuTypes
  methodName row :=
    if row = 1 then .ok "Open" else if row = 2 then .ok "Show" else .error (.metadata "no method")
  memberReference _ := .error (.metadata "no reference")
  methodSpecification _ := .error (.metadata "no specification")
  userString _ := .error (.metadata "no string")
  distinct := by decide
  small := by decide
  named := by decide

def callTable : OpcodeTable := fun value =>
  if value = 0x28 then some ⟨"call", .inlineMethod⟩
  else if value = 0x2A then some ⟨"ret", .inlineNone⟩
  else none

theorem menuAssembly_plain : menuAssembly.PlainTexts callTable where
  opcodes value opcode h := by
    rw [callTable] at h
    split_ifs at h
    · cases h
      decide
    · cases h
      decide
  methods := by decide
  targets token target h := by
    rw [Assembly.resolveMethodToken] at h
    split_ifs at h
    · obtain ⟨name, hname, h⟩ := Raising.except_bind_eq_ok.mp h
      change (if tokenRow token = 1 then _ else if tokenRow token = 2 then _ else _) = _ at hname
      split_ifs at hname with hfirst hsecond
      · rw [hfirst] at h
        cases hname
        cases h
        decide +kernel
      · rw [hsecond] at h
        cases hname
        cases h
        decide +kernel
    · cases h
    · cases h
    · cases h
      exact plain_append (by decide) plain_paddedHex
  strings row text h := nomatch h

theorem menuAssembly_dumps : menuAssembly.Dumps callTable (fun _ _ => true) "" "" "*"
    [Assembly.headerLine, "0x06000001\tOpen\t0x0000\tcall\tGame.Screen::Show"] :=
  ⟨3, by decide +kernel⟩

end IlDump
end Army3
