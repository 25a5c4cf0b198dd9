import Army3.Scripts.IlReachability

/-! `inspect-il-calls.ps1` on an assembly: the rows that it writes for the calls and strings. -/

namespace Army3
namespace IlDump

open IlReachability

inductive TypeDefinition where
  | topLevel (namespaceName name : String)
  | nested (namespaceName name : String) (declaringType : TypeDefinition)
  deriving DecidableEq, Repr

namespace TypeDefinition

def namespaceName : TypeDefinition → String
  | topLevel namespaceName _ | nested namespaceName _ _ => namespaceName

def name : TypeDefinition → String
  | topLevel _ name | nested _ name _ => name

/-- `$fullName` -/
def fullName (type : TypeDefinition) : String := type.namespaceName ++ "." ++ type.name

end TypeDefinition

/-- A method and its IL, if it has any. -/
structure MethodDefinition where
  row : Nat
  name : String
  body : Option Bytes
  deriving DecidableEq, Repr

/-- `MetadataTokens.GetToken` -/
def MethodDefinition.token (method : MethodDefinition) : Int := 0x06000000 + method.row

/-- The parent of a member reference. Other kinds than the two types are only named. -/
inductive EntityHandle where
  | typeReference (namespaceName name : String)
  | typeDefinition (type : TypeDefinition)
  | other (kind : String)
  deriving DecidableEq, Repr

/-- What a method specification is one of. -/
inductive MethodDefOrRef where
  | definition (row : Nat)
  | reference (row : Nat)
  deriving DecidableEq, Repr

/-- What the scripts ask of the metadata. -/
structure Assembly where
  types : List (TypeDefinition × List MethodDefinition)
  methodName : Nat → Except ScanError String
  memberReference : Nat → Except ScanError (EntityHandle × String)
  methodSpecification : Nat → Except ScanError MethodDefOrRef
  userString : Nat → Except ScanError String
  distinct : ((types.flatMap Prod.snd).map MethodDefinition.row).Nodup
  small : ∀ method ∈ types.flatMap Prod.snd, method.row < 0x1000000
  named : ∀ method ∈ types.flatMap Prod.snd, methodName method.row = .ok method.name

/-- `Get-TypeNameFromHandle` -/
def getTypeNameFromHandle : EntityHandle → String
  | .typeReference namespaceName name => namespaceName ++ "." ++ name
  | .typeDefinition type => type.namespaceName ++ "." ++ type.name
  | .other kind => "[" ++ kind ++ "]"

/-- `($Token -shr 24) -band 0xff` -/
def tokenKind (token : Int) : Int := token / 0x1000000 % 0x100

namespace Assembly

/-- The methods, each with its type, in the order of the two loops. -/
def members (a : Assembly) : List (TypeDefinition × MethodDefinition) :=
  a.types.flatMap fun (type, methods) => methods.map (Prod.mk type)

def ownerByToken (a : Assembly) : Std.TreeMap Int String :=
  Std.TreeMap.ofList (a.members.map fun (type, method) => (method.token, type.fullName)) compare

variable (a : Assembly)

/-- `Resolve-MethodToken`, from the row on. -/
def resolveRow : MethodDefOrRef → Except ScanError String
  | .definition row => do
    let name ← a.methodName row
    .ok (a.ownerByToken[(0x06000000 + row : Int)]?.getD "" ++ "::" ++ name)
  | .reference row => do
    let (parent, name) ← a.memberReference row
    .ok (getTypeNameFromHandle parent ++ "::" ++ name)

/-- `Resolve-MethodToken`. It calls itself for a specification; the token that it passes is one of
a definition or a reference. -/
def resolveMethodToken (token : Int) : Except ScanError String :=
  if tokenKind token = 0x06 then a.resolveRow (.definition (tokenRow token))
  else if tokenKind token = 0x0A then a.resolveRow (.reference (tokenRow token))
  else if tokenKind token = 0x2B then do
    let method ← a.methodSpecification (tokenRow token)
    a.resolveRow method
  else .ok ("token:0x" ++ paddedHex 8 token)

def callMetadata : CallMetadata := ⟨a.resolveMethodToken, a.userString⟩

/-- `$targetHandles` -/
def targetMethods (typeName : String) : List MethodDefinition :=
  (a.members.filter fun (type, _) => sameText typeName "*" || sameText type.fullName typeName).map
    Prod.snd

variable (table : OpcodeTable) (isMatch : Matches) (stringPattern targetPattern : String)

/-- The loop over the methods, with a bound on the turns of each scan. -/
def dumpMethods (fuel : Nat) : List MethodDefinition → Option (Except ScanError (List String))
  | [] => some (.ok [])
  | method :: methods =>
    match method.body with
    | none => dumpMethods fuel methods
    | some bytes =>
      let examine :=
        examineCall isMatch method.token method.name a.callMetadata stringPattern targetPattern
      match scan table bytes method.name examine fuel with
      | none => none
      | some (.error e) => some (.error e)
      | some (.ok visits) =>
        (dumpMethods fuel methods).map fun result =>
          result.map fun later => visits.flatMap Prod.snd ++ later

def headerLine : String :=
  "method_token" ++ "\t" ++ "method_name" ++ "\t" ++ "il_offset" ++ "\t" ++ "opcode" ++ "\t" ++ "target"

/-- The lines of the file, when the script comes to its end. -/
def dump (typeName : String) (fuel : Nat) : Option (Except ScanError (List String)) :=
  let methods := a.targetMethods typeName
  if methods = [] then
    some (.error (.thrown ("Type not found or has no methods: " ++ typeName)))
  else (dumpMethods a table isMatch stringPattern targetPattern fuel methods).map fun result =>
    result.map fun lines => headerLine :: lines

/-- The script writes a file and ends. -/
def Dumps (typeName : String) (lines : List String) : Prop :=
  ∃ fuel, a.dump table isMatch stringPattern targetPattern typeName fuel = some (.ok lines)

end Assembly

/-- The instructions that lie one after the other from a position on. -/
inductive Decodes (table : OpcodeTable) (bytes : Bytes) (methodName : String) :
    Number → List Instruction → Prop where
  | atEnd {position : Number} (out : bytes.length ≤ position.value) :
      Decodes table bytes methodName position []
  | next {position : Number} {instruction : Instruction} {later : List Instruction}
      (inside : position.value < bytes.length)
      (decoded : decodeInstruction table bytes methodName position = .ok instruction)
      (rest : Decodes table bytes methodName (instruction.operand.add instruction.operandSize) later) :
      Decodes table bytes methodName position (instruction :: later)

section

variable {table : OpcodeTable} {bytes : Bytes} {methodName : String} {examine : Examine}
  {position : Number}

theorem Decodes.unique {instructions others : List Instruction}
    (h : Decodes table bytes methodName position instructions)
    (hothers : Decodes table bytes methodName position others) : instructions = others := by
  induction h generalizing others with
  | atEnd out =>
    cases hothers with
    | atEnd => rfl
    | next inside => exact absurd out (not_le.mpr inside)
  | next inside decoded rest ih =>
    cases hothers with
    | atEnd out => exact absurd out (not_le.mpr inside)
    | next inside' decoded' rest' =>
      obtain rfl := Except.ok.inj (decoded.symm.trans decoded')
      rw [ih rest']

theorem Decodes.opcode {instructions : List Instruction}
    (h : Decodes table bytes methodName position instructions) {instruction : Instruction}
    (hmem : instruction ∈ instructions) : ∃ value, table value = some instruction.opcode := by
  induction h with
  | atEnd => cases hmem
  | next inside decoded rest ih =>
    rcases List.mem_cons.mp hmem with rfl | hlater
    · obtain ⟨opcode, -, hdecoded⟩ := Raising.except_bind_eq_ok.mp decoded
      cases hfound : table opcode.1 with
      | none =>
        rw [hfound] at hdecoded
        cases hdecoded
      | some found =>
        rw [hfound] at hdecoded
        obtain ⟨size, -, hdecoded⟩ := Raising.except_bind_eq_ok.mp hdecoded
        split at hdecoded
        · cases hdecoded
        · cases hdecoded
          exact ⟨_, hfound⟩
    · exact ih hlater

/-- A scan that has come to its end has examined the instructions of the body. -/
theorem decodes_of_ends {visits : List (Instruction × List String)}
    (hend : WhileLoop.Ends (scanTurn table bytes methodName examine) position (.ok visits)) :
    Decodes table bytes methodName position (visits.map Prod.fst) ∧
      ∀ visit ∈ visits, examine bytes visit.1 = .ok visit.2 := by
  induction visits generalizing position with
  | nil =>
    rcases WhileLoop.ends_ok_cases hend with ⟨hover, -⟩ | ⟨_, _, _, -, hcons, -⟩
    · exact ⟨.atEnd (scanTurn_over hover), List.forall_mem_nil _⟩
    · cases hcons
  | cons visit visits ih =>
    rcases WhileLoop.ends_ok_cases hend with ⟨-, hnil⟩ | ⟨first, next, later, hturn, hcons, hlater⟩
    · cases hnil
    · obtain ⟨rfl, rfl⟩ := List.cons.inj hcons
      obtain ⟨instruction, lines⟩ := visit
      obtain ⟨hlt, hdecode, rfl⟩ := scanTurn_next hturn
      obtain ⟨hrest, hexamined⟩ := ih hlater
      refine ⟨.next hlt hdecode hrest, List.forall_mem_cons.mpr ⟨?_, hexamined⟩⟩
      rw [scanTurn, if_pos hlt] at hturn
      obtain ⟨decoded, -, hturn⟩ := Raising.except_bind_eq_ok.mp hturn
      obtain ⟨written, hwritten, hsome⟩ := Raising.except_bind_eq_ok.mp hturn
      cases hsome
      exact hwritten

end

/-- What stands in a line after the header. -/
structure Row where
  token : Int
  methodName : String
  offset : Int
  opcode : String
  target : String
  deriving DecidableEq, Repr

def Row.line (row : Row) : String :=
  "0x" ++ paddedHex 8 row.token ++ "\t" ++ row.methodName ++ "\t" ++ ("0x" ++ paddedHex 4 row.offset) ++
    "\t" ++ row.opcode ++ "\t" ++ row.target

/-- `$target -replace '[\r\n\t]', ' '` -/
def safe (target : String) : String :=
  target.map fun c => if c = '\r' ∨ c = '\n' ∨ c = '\t' then ' ' else c

namespace Assembly

variable (a : Assembly) (method : MethodDefinition) (bytes : Bytes) (instruction : Instruction)

/-- The name of the method that a call instruction calls. -/
def calledName : Option String :=
  if instruction.opcode.name ∈ callOpcodes then
    match toInt32 bytes instruction.operand with
    | .ok token => (a.resolveMethodToken token).toOption
    | .error _ => none
  else none

/-- The text that a string instruction loads. -/
def loadedString : Option String :=
  if instruction.opcode.name = "ldstr" then
    match toInt32 bytes instruction.operand with
    | .ok token => (a.userString (tokenRow token)).toOption
    | .error _ => none
  else none

def rowOf : Option Row :=
  ((a.calledName bytes instruction).or (a.loadedString bytes instruction)).map fun target =>
    ⟨method.token, method.name, instruction.offset.value, instruction.opcode.name, safe target⟩

variable {a method bytes instruction} {isMatch : Matches} {lines : List String}

theorem offsetText_ok {offset : Number} {text : String} (h : offsetText offset = .ok text) :
    text = "0x" ++ paddedHex 4 offset.value := by
  rw [offsetText] at h
  split_ifs at h
  exact (Except.ok.inj h).symm

/-- Without patterns there is a line for each call and each string. -/
theorem lines_of_examineCall (h : examineCall isMatch method.token method.name a.callMetadata "" ""
    bytes instruction = .ok lines) :
    lines = ((a.rowOf method bytes instruction).map Row.line).toList := by
  rw [examineCall] at h
  rw [rowOf, calledName, loadedString]
  by_cases hcall : instruction.opcode.name ∈ callOpcodes
  · have hstring : instruction.opcode.name ≠ "ldstr" := fun hname => by
      rw [hname] at hcall
      exact absurd hcall (by decide)
    rw [if_pos hcall, if_neg hstring]
    rw [callOpcodes] at hcall
    rw [if_pos hcall] at h
    obtain ⟨token, htoken, h⟩ := Raising.except_bind_eq_ok.mp h
    obtain ⟨target, htarget, h⟩ := Raising.except_bind_eq_ok.mp h
    obtain ⟨found, hfound, h⟩ := Raising.except_bind_eq_ok.mp h
    cases hfound
    obtain ⟨offset, hoffset, h⟩ := Raising.except_bind_eq_ok.mp h
    have hresolved : a.resolveMethodToken token = .ok target := htarget
    rw [← Except.ok.inj h, offsetText_ok hoffset, htoken]
    simp only [hresolved]
    rfl
  · rw [if_neg hcall, Option.none_or]
    rw [callOpcodes] at hcall
    rw [if_neg hcall] at h
    split_ifs at h ⊢ with hstring
    · obtain ⟨token, htoken, h⟩ := Raising.except_bind_eq_ok.mp h
      obtain ⟨target, htarget, h⟩ := Raising.except_bind_eq_ok.mp h
      obtain ⟨found, hfound, h⟩ := Raising.except_bind_eq_ok.mp h
      cases hfound
      obtain ⟨offset, hoffset, h⟩ := Raising.except_bind_eq_ok.mp h
      have hloaded : a.userString (tokenRow token) = .ok target := htarget
      rw [← Except.ok.inj h, offsetText_ok hoffset, htoken]
      simp only [hloaded]
      rfl
    · obtain ⟨found, hfound, h⟩ := Raising.except_bind_eq_ok.mp h
      cases hfound
      exact (Except.ok.inj h).symm

end Assembly

/-- The rows for a list of methods: those of the instructions of each body. -/
inductive Dumped (a : Assembly) (table : OpcodeTable) : List MethodDefinition → List Row → Prop where
  | nil : Dumped a table [] []
  | bodiless {method : MethodDefinition} {methods : List MethodDefinition} {rows : List Row}
      (body : method.body = none) (later : Dumped a table methods rows) :
      Dumped a table (method :: methods) rows
  | scanned {method : MethodDefinition} {methods : List MethodDefinition} {rows : List Row}
      {bytes : Bytes} {instructions : List Instruction} (body : method.body = some bytes)
      (decodes : Decodes table bytes method.name (.ofInt 0) instructions)
      (later : Dumped a table methods rows) :
      Dumped a table (method :: methods) (instructions.filterMap (a.rowOf method bytes) ++ rows)

variable {a : Assembly} {table : OpcodeTable} {isMatch : Matches} {lines : List String}
  {methods : List MethodDefinition} {method : MethodDefinition} {bytes : Bytes}
  {instructions : List Instruction} {rows : List Row} {caller : Int}

theorem flatMap_lines {visits : List (Instruction × List String)}
    (h : ∀ visit ∈ visits, visit.2 = ((a.rowOf method bytes visit.1).map Row.line).toList) :
    visits.flatMap Prod.snd =
      ((visits.map Prod.fst).filterMap (a.rowOf method bytes)).map Row.line := by
  induction visits with
  | nil => rfl
  | cons visit visits ih =>
    obtain ⟨hvisit, hlater⟩ := List.forall_mem_cons.mp h
    rw [List.flatMap_cons, hvisit, ih hlater, List.map_cons]
    cases hrow : a.rowOf method bytes visit.1 with
    | none => rw [List.filterMap_cons_none hrow, Option.map_none, Option.toList_none, List.nil_append]
    | some row =>
      rw [List.filterMap_cons_some hrow, Option.map_some, Option.toList_some, List.map_cons,
        List.singleton_append]

theorem dumped_of_dumpMethods {fuel : Nat}
    (h : a.dumpMethods table isMatch "" "" fuel methods = some (.ok lines)) :
    ∃ rows, Dumped a table methods rows ∧ lines = rows.map Row.line := by
  induction methods generalizing lines with
  | nil =>
    cases h
    exact ⟨[], .nil, rfl⟩
  | cons method methods ih =>
    rw [Assembly.dumpMethods] at h
    cases hbody : method.body with
    | none =>
      rw [hbody] at h
      obtain ⟨rows, hrows, hlines⟩ := ih h
      exact ⟨rows, .bodiless hbody hrows, hlines⟩
    | some bytes =>
      rw [hbody] at h
      dsimp only at h
      split at h
      · cases h
      · cases h
      · rename_i visits hscan
        obtain ⟨result, hresult, h⟩ := Option.map_eq_some_iff.mp h
        cases result with
        | error e => cases h
        | ok later =>
          obtain ⟨rows, hrows, rfl⟩ := ih hresult
          obtain ⟨hdecodes, hexamined⟩ := decodes_of_ends ⟨fuel, hscan⟩
          refine ⟨_, .scanned hbody hdecodes hrows, ?_⟩
          rw [List.map_append, ← flatMap_lines fun visit hvisit =>
            Assembly.lines_of_examineCall (hexamined visit hvisit)]
          exact (Except.ok.inj h).symm

theorem Dumped.decodes (h : Dumped a table methods rows) (hmethod : method ∈ methods)
    (hbody : method.body = some bytes) :
    ∃ instructions, Decodes table bytes method.name (.ofInt 0) instructions := by
  induction h with
  | nil => cases hmethod
  | @bodiless other methods rows hnone hlater ih =>
    rcases List.mem_cons.mp hmethod with rfl | hmem
    · cases hnone.symm.trans hbody
    · exact ih hmem
  | @scanned other methods rows bytes' instructions hsome hdecodes hlater ih =>
    rcases List.mem_cons.mp hmethod with rfl | hmem
    · cases hsome.symm.trans hbody
      exact ⟨instructions, hdecodes⟩
    · exact ih hmem

theorem token_of_rowOf {row : Row} {instruction : Instruction}
    (h : a.rowOf method bytes instruction = some row) : row.token = method.token := by
  obtain ⟨target, -, rfl⟩ := Option.map_eq_some_iff.mp h
  rfl

/-- Each row is that of an instruction. -/
theorem Dumped.origin (h : Dumped a table methods rows) {row : Row} (hrow : row ∈ rows) :
    ∃ method ∈ methods, ∃ bytes instructions, method.body = some bytes ∧
      Decodes table bytes method.name (.ofInt 0) instructions ∧
      ∃ instruction ∈ instructions, a.rowOf method bytes instruction = some row := by
  induction h with
  | nil => cases hrow
  | bodiless hnone hlater ih =>
    obtain ⟨method, hmem, hmethod⟩ := ih hrow
    exact ⟨method, List.mem_cons_of_mem _ hmem, hmethod⟩
  | @scanned other methods rows bytes instructions hsome hdecodes hlater ih =>
    rcases List.mem_append.mp hrow with hfirst | hlast
    · exact ⟨other, List.mem_cons_self, bytes, instructions, hsome, hdecodes,
        List.mem_filterMap.mp hfirst⟩
    · obtain ⟨method, hmem, hmethod⟩ := ih hlast
      exact ⟨method, List.mem_cons_of_mem _ hmem, hmethod⟩

/-- The rows of a method are those of its instructions. -/
theorem Dumped.filter_token (h : Dumped a table methods rows)
    (hnodup : (methods.map MethodDefinition.token).Nodup) (hmethod : method ∈ methods)
    (hbody : method.body = some bytes)
    (hdecodes : Decodes table bytes method.name (.ofInt 0) instructions) :
    rows.filter (·.token = method.token) = instructions.filterMap (a.rowOf method bytes) := by
  induction h with
  | nil => cases hmethod
  | @bodiless other methods rows hnone hlater ih =>
    rcases List.mem_cons.mp hmethod with rfl | hmem
    · cases hnone.symm.trans hbody
    · exact ih (List.nodup_cons.mp hnodup).2 hmem
  | @scanned other methods rows bytes' instructions' hsome hdecodes' hlater ih =>
    rw [List.map_cons, List.nodup_cons] at hnodup
    rw [List.filter_append]
    rcases List.mem_cons.mp hmethod with rfl | hmem
    · cases hsome.symm.trans hbody
      obtain rfl := hdecodes.unique hdecodes'
      have hown : (instructions.filterMap (a.rowOf method bytes)).filter (·.token = method.token) =
          instructions.filterMap (a.rowOf method bytes) :=
        List.filter_eq_self.mpr fun row hrow => by
          obtain ⟨instruction, -, hinstruction⟩ := List.mem_filterMap.mp hrow
          exact decide_eq_true (token_of_rowOf hinstruction)
      have hothers : rows.filter (·.token = method.token) = [] := by
        refine List.filter_eq_nil_iff.mpr fun row hrow => ?_
        obtain ⟨other, hother, bytes', others, -, -, instruction, -, hinstruction⟩ :=
          hlater.origin hrow
        rw [decide_eq_true_eq, token_of_rowOf hinstruction]
        exact fun hsame => hnodup.1 (List.mem_map.mpr ⟨other, hother, hsame⟩)
      rw [hown, hothers, List.append_nil]
    · have hfirst : (instructions'.filterMap (a.rowOf other bytes')).filter
          (·.token = method.token) = [] := by
        refine List.filter_eq_nil_iff.mpr fun row hrow => ?_
        obtain ⟨instruction, -, hinstruction⟩ := List.mem_filterMap.mp hrow
        rw [decide_eq_true_eq, token_of_rowOf hinstruction]
        exact fun hsame => hnodup.1 (List.mem_map.mpr ⟨method, hmem, hsame.symm⟩)
      rw [hfirst, List.nil_append, ih hnodup.2 hmem]

end IlDump
end Army3
