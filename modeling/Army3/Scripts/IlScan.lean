import Army3.Framework.LittleEndian
import Army3.Framework.Raising
import Army3.Framework.WhileLoop
import Army3.Protocol.Errors

/-! The decoding loop that `inspect-il-calls.ps1` and `inspect-il-fields.ps1` share. -/

namespace Army3

/-- A number of a script: an Int32, or a double once a result leaves that range. The doubles that
come up here are integers. -/
structure Number where
  value : Int
  isDouble : Bool
  deriving DecidableEq, Repr

def IsInt32 (n : Int) : Prop := -0x80000000 ≤ n ∧ n ≤ 0x7FFFFFFF

instance (n : Int) : Decidable (IsInt32 n) := inferInstanceAs (Decidable (_ ∧ _))

namespace Number

def ofInt (n : Int) : Number := ⟨n, false⟩

def widen (n : Int) (isDouble : Bool) : Number := ⟨n, isDouble || !decide (IsInt32 n)⟩

def add (a b : Number) : Number := widen (a.value + b.value) (a.isDouble || b.isDouble)

def mul (a b : Number) : Number := widen (a.value * b.value) (a.isDouble || b.isDouble)

@[simp] theorem ofInt_value (n : Int) : (ofInt n).value = n := rfl

@[simp] theorem add_value (a b : Number) : (a.add b).value = a.value + b.value := rfl

end Number

/-- `System.Reflection.Emit.OperandType` -/
inductive OperandType where
  | inlineBrTarget
  | inlineField
  | inlineI
  | inlineI8
  | inlineMethod
  | inlineNone
  | inlinePhi
  | inlineR
  | inlineSig
  | inlineString
  | inlineSwitch
  | inlineTok
  | inlineType
  | inlineVar
  | shortInlineBrTarget
  | shortInlineI
  | shortInlineR
  | shortInlineVar
  deriving DecidableEq, Repr

/-- What the loop uses of an opcode. Its names are in lower case. -/
structure Opcode where
  name : String
  operandType : OperandType
  deriving DecidableEq, Repr

/-- `$opcodeByValue` -/
abbrev OpcodeTable := Nat → Option Opcode

/-- What ends a scan: a `throw` of the script, or an exception of what it calls. -/
inductive ScanError where
  | thrown (message : String)
  | conversion
  | argument
  | format
  | metadata (message : String)
  deriving DecidableEq, Repr

/-- The digits of `{0:X4}` and `{0:X8}`; a negative number has those of its Int32. -/
def paddedHex (width : Nat) (n : Int) : String :=
  let digits := (Nat.toDigits 16 (n % 0x100000000).toNat).map Char.toUpper
  String.ofList (List.replicate (width - digits.length) '0' ++ digits)

/-- `[int]$bytes[$position]`: a negative index counts from the end, and what is outside of the
array is null, which is taken for zero. -/
def indexByte (bytes : Bytes) (position : Number) : Except ScanError Nat :=
  if ¬ IsInt32 position.value then .error .conversion
  else
    let index := if position.value < 0 then position.value + bytes.length else position.value
    if index < 0 then .ok 0 else .ok (bytes[index.toNat]?.elim 0 UInt8.toNat)

/-- `[System.BitConverter]::ToInt32($bytes, $position)` -/
def toInt32 (bytes : Bytes) (position : Number) : Except ScanError Int :=
  if ¬ IsInt32 position.value then .error .conversion
  else if 0 ≤ position.value ∧ position.value + 4 ≤ bytes.length then
    .ok (LittleEndian.signed 32 (LittleEndian.ofBytes ((bytes.drop position.value.toNat).take 4)))
  else .error .argument

/-- One visited instruction: where it begins, where its operand begins, and how long that is. -/
structure Instruction where
  offset : Number
  opcode : Opcode
  operand : Number
  operandSize : Number
  deriving DecidableEq, Repr

section

variable (table : OpcodeTable) (bytes : Bytes) (methodName : String)

/-- The opcode at a position, and the position after it. -/
def readOpcodeValue (position : Number) : Except ScanError (Nat × Number) := do
  let opcodeValue ← indexByte bytes position
  let position := position.add (.ofInt 1)
  if opcodeValue = 0xFE then
    if bytes.length ≤ position.value then .error (.thrown ("Truncated opcode in " ++ methodName))
    else do
      let second ← indexByte bytes position
      .ok (0xFE00 ||| second, position.add (.ofInt 1))
  else .ok (opcodeValue, position)

def operandSize (position : Number) : OperandType → Except ScanError Number
  | .inlineNone => .ok (.ofInt 0)
  | .shortInlineBrTarget | .shortInlineI | .shortInlineVar => .ok (.ofInt 1)
  | .inlineVar => .ok (.ofInt 2)
  | .inlineBrTarget | .inlineField | .inlineI | .inlineMethod | .inlineSig | .inlineString
  | .inlineTok | .inlineType | .shortInlineR => .ok (.ofInt 4)
  | .inlineI8 | .inlineR => .ok (.ofInt 8)
  | .inlineSwitch =>
    if bytes.length < position.value + 4 then
      .error (.thrown ("Truncated switch in " ++ methodName))
    else do
      let count ← toInt32 bytes position
      .ok ((Number.ofInt 4).add ((Number.ofInt 4).mul (.ofInt count)))
  | .inlinePhi => .error (.thrown "Unsupported operand kind: InlinePhi")

/-- The instruction at a position. Its operand is checked against the end of the body only. -/
def decodeInstruction (position : Number) : Except ScanError Instruction := do
  let opcode ← readOpcodeValue bytes methodName position
  match table opcode.1 with
  | none =>
    .error (.thrown ("Unknown IL opcode 0x" ++ paddedHex 4 opcode.1 ++ " in " ++ methodName))
  | some found => do
    let size ← operandSize bytes methodName opcode.2 found.operandType
    if bytes.length < (opcode.2.add size).value then
      .error (.thrown ("Truncated operand in " ++ methodName))
    else .ok ⟨position, found, opcode.2, size⟩

/-- What is done with an instruction, and the lines that are written for it. -/
abbrev Examine := Bytes → Instruction → Except ScanError (List String)

variable (examine : Examine)

/-- One turn of the loop. -/
def scanTurn (position : Number) :
    Except ScanError (Option ((Instruction × List String) × Number)) :=
  if position.value < bytes.length then do
    let instruction ← decodeInstruction table bytes methodName position
    let lines ← examine bytes instruction
    .ok (some ((instruction, lines), instruction.operand.add instruction.operandSize))
  else .ok none

/-- The loop over one method body, under a bound on its turns. -/
def scan (fuel : Nat) : Option (Except ScanError (List (Instruction × List String))) :=
  WhileLoop.run (scanTurn table bytes methodName examine) fuel (.ofInt 0)

end

/-! What the two scripts do with an instruction. -/

/-- `'0x{0:X4}' -f $offset`, which a double is refused. -/
def offsetText (offset : Number) : Except ScanError String :=
  if offset.isDouble then .error .format else .ok ("0x" ++ paddedHex 4 offset.value)

/-- `-match`: whether a text matches a regular expression. -/
abbrev Matches := String → String → Bool

/-- `Resolve-MethodToken` and `GetUserString` over the metadata of the assembly. -/
structure CallMetadata where
  resolveMethodToken : Int → Except ScanError String
  getUserString : Nat → Except ScanError String

/-- `$token -band 0x00ffffff` -/
def tokenRow (token : Int) : Nat := (token % 0x1000000).toNat

section

variable (isMatch : Matches) (methodToken : Int) (methodName : String)

/-- The line of `inspect-il-calls.ps1` for a call or a string. An empty pattern is no pattern. -/
def examineCall (metadata : CallMetadata) (stringPattern targetPattern : String) : Examine :=
  fun bytes instruction => do
    let name := instruction.opcode.name
    let found : Option String ←
      if name ∈ ["call", "callvirt", "newobj", "ldftn", "ldvirtftn"] then do
        let token ← toInt32 bytes instruction.operand
        let target ← metadata.resolveMethodToken token
        .ok (some target)
      else if name = "ldstr" then do
        let token ← toInt32 bytes instruction.operand
        let target ← metadata.getUserString (tokenRow token)
        .ok (some target)
      else .ok none
    let strings := found.filter fun target =>
      stringPattern = "" || (name = "ldstr" && isMatch target stringPattern)
    let targets := strings.filter fun target => targetPattern = "" || isMatch target targetPattern
    match targets with
    | none => .ok []
    | some target => do
      let offset ← offsetText instruction.offset
      let safeTarget := target.map fun c => if c = '\r' ∨ c = '\n' ∨ c = '\t' then ' ' else c
      .ok ["0x" ++ paddedHex 8 methodToken ++ "\t" ++ methodName ++ "\t" ++ offset ++ "\t" ++ name ++
        "\t" ++ safeTarget]

/-- The line of `inspect-il-fields.ps1` for a field. -/
def examineField (resolveFieldToken : Int → Except ScanError String) (fieldPattern : String) :
    Examine := fun bytes instruction =>
  if instruction.opcode.operandType = .inlineField then do
    let token ← toInt32 bytes instruction.operand
    let target ← resolveFieldToken token
    if isMatch target fieldPattern then do
      let offset ← offsetText instruction.offset
      .ok ["0x" ++ paddedHex 8 methodToken ++ "\t" ++ methodName ++ "\t" ++ offset ++ "\t" ++
        instruction.opcode.name ++ "\t" ++ "0x" ++ paddedHex 8 token ++ "\t" ++ target]
    else .ok []
  else .ok []

end

/-- The instructions lie one after the other, from a position to the end of the body: each has one
or two bytes of opcode, and an operand that does not go back. -/
inductive Covers (bytes : Bytes) : Int → List Instruction → Prop where
  | nil : Covers bytes bytes.length []
  | cons (instruction : Instruction) (later : List Instruction)
      (opcodeBytes : instruction.operand.value = instruction.offset.value + 1 ∨
        instruction.operand.value = instruction.offset.value + 2)
      (notNegative : 0 ≤ instruction.operandSize.value)
      (next : Covers bytes (instruction.operand.value + instruction.operandSize.value) later) :
      Covers bytes instruction.offset.value (instruction :: later)

/-- At a position stands a switch whose count says that it ends before it begins. -/
def BackwardSwitch (table : OpcodeTable) (bytes : Bytes) (methodName : String)
    (position : Number) : Prop :=
  position.value < bytes.length ∧ ∃ instruction count,
    decodeInstruction table bytes methodName position = .ok instruction ∧
    instruction.opcode.operandType = .inlineSwitch ∧
    toInt32 bytes instruction.operand = .ok count ∧ count < -1

section

variable {table : OpcodeTable} {bytes : Bytes} {methodName : String} {examine : Examine}
  {position next : Number} {instruction : Instruction} {lines : List String}

theorem readOpcodeValue_ok {opcode : Nat × Number}
    (h : readOpcodeValue bytes methodName position = .ok opcode) :
    opcode.2.value = position.value + 1 ∨ opcode.2.value = position.value + 2 := by
  obtain ⟨first, -, h⟩ := Raising.except_bind_eq_ok.mp h
  by_cases htwo : first = 0xFE
  · rw [if_pos htwo] at h
    split at h
    · cases h
    · obtain ⟨second, -, h⟩ := Raising.except_bind_eq_ok.mp h
      obtain rfl := Except.ok.inj h
      right
      simp only [Number.add_value, Number.ofInt_value]
      omega
  · rw [if_neg htwo] at h
    obtain rfl := Except.ok.inj h
    exact .inl rfl

/-- Only a switch has an operand of another size than its kind says. -/
theorem operandSize_ok {operandType : OperandType} {size : Number}
    (h : operandSize bytes methodName position operandType = .ok size) :
    0 ≤ size.value ∨ operandType = .inlineSwitch := by
  cases operandType with
  | inlineSwitch => exact .inr rfl
  | inlinePhi => cases h
  | _ =>
    obtain rfl := Except.ok.inj h
    left
    decide

theorem operandSize_switch {size : Number}
    (h : operandSize bytes methodName position .inlineSwitch = .ok size) :
    ∃ count, toInt32 bytes position = .ok count ∧ size.value = 4 + 4 * count := by
  simp only [operandSize] at h
  split at h
  · cases h
  · obtain ⟨count, hcount, h⟩ := Raising.except_bind_eq_ok.mp h
    obtain rfl := Except.ok.inj h
    exact ⟨count, hcount, rfl⟩

/-- What is known of an instruction that has been decoded. -/
theorem decodeInstruction_ok
    (h : decodeInstruction table bytes methodName position = .ok instruction) :
    instruction.offset = position ∧
      (instruction.operand.value = position.value + 1 ∨
        instruction.operand.value = position.value + 2) ∧
      operandSize bytes methodName instruction.operand instruction.opcode.operandType =
        .ok instruction.operandSize ∧
      instruction.operand.value + instruction.operandSize.value ≤ bytes.length := by
  obtain ⟨opcode, hopcode, h⟩ := Raising.except_bind_eq_ok.mp h
  cases hfound : table opcode.1 with
  | none =>
    rw [hfound] at h
    cases h
  | some found =>
    rw [hfound] at h
    obtain ⟨size, hsize, h⟩ := Raising.except_bind_eq_ok.mp h
    split at h
    · cases h
    · rename_i hin
      obtain rfl := Except.ok.inj h
      exact ⟨rfl, readOpcodeValue_ok hopcode, hsize, Int.not_lt.mp hin⟩

/-- An operand goes back only in a backward switch. -/
theorem operandSize_notNegative (hlt : position.value < bytes.length)
    (h : decodeInstruction table bytes methodName position = .ok instruction)
    (hforward : ¬ BackwardSwitch table bytes methodName position) :
    0 ≤ instruction.operandSize.value := by
  obtain ⟨-, -, hsize, -⟩ := decodeInstruction_ok h
  rcases operandSize_ok hsize with hkind | hswitch
  · exact hkind
  · rw [hswitch] at hsize
    obtain ⟨count, hcount, hvalue⟩ := operandSize_switch hsize
    by_contra hnegative
    exact hforward ⟨hlt, instruction, count, h, hswitch, hcount, by omega⟩

theorem BackwardSwitch.operandSize_neg (h : BackwardSwitch table bytes methodName position)
    (hdecode : decodeInstruction table bytes methodName position = .ok instruction) :
    instruction.operandSize.value < 0 := by
  obtain ⟨-, switch, count, hswitch, hkind, hcount, hless⟩ := h
  obtain rfl : switch = instruction := Except.ok.inj (hswitch.symm.trans hdecode)
  obtain ⟨-, -, hsize, -⟩ := decodeInstruction_ok hdecode
  rw [hkind] at hsize
  obtain ⟨count', hcount', hvalue⟩ := operandSize_switch hsize
  obtain rfl : count = count' := Except.ok.inj (hcount.symm.trans hcount')
  omega

/-- A turn is the end of the loop, or visits the instruction at the position. -/
theorem scanTurn_ok {result : Option ((Instruction × List String) × Number)}
    (h : scanTurn table bytes methodName examine position = .ok result) :
    (bytes.length ≤ position.value ∧ result = none) ∨
      position.value < bytes.length ∧ ∃ instruction lines,
        decodeInstruction table bytes methodName position = .ok instruction ∧
        result = some ((instruction, lines), instruction.operand.add instruction.operandSize) := by
  unfold scanTurn at h
  by_cases hlt : position.value < bytes.length
  · rw [if_pos hlt] at h
    obtain ⟨instruction, hdecode, h⟩ := Raising.except_bind_eq_ok.mp h
    obtain ⟨lines, -, h⟩ := Raising.except_bind_eq_ok.mp h
    exact .inr ⟨hlt, instruction, lines, hdecode, (Except.ok.inj h).symm⟩
  · rw [if_neg hlt] at h
    exact .inl ⟨Int.not_lt.mp hlt, (Except.ok.inj h).symm⟩

theorem scanTurn_next
    (h : scanTurn table bytes methodName examine position =
      .ok (some ((instruction, lines), next))) :
    position.value < bytes.length ∧
      decodeInstruction table bytes methodName position = .ok instruction ∧
      next = instruction.operand.add instruction.operandSize := by
  rcases scanTurn_ok h with ⟨-, hnone⟩ | ⟨hlt, decoded, written, hdecode, hsome⟩
  · cases hnone
  · obtain ⟨hvisit, rfl⟩ := Prod.mk.inj (Option.some.inj hsome)
    obtain ⟨rfl, -⟩ := Prod.mk.inj hvisit
    exact ⟨hlt, hdecode, rfl⟩

theorem scanTurn_over (h : scanTurn table bytes methodName examine position = .ok none) :
    bytes.length ≤ position.value := by
  rcases scanTurn_ok h with ⟨hout, -⟩ | ⟨-, _, _, -, hsome⟩
  · exact hout
  · cases hsome

open WhileLoop

/-- What a scan that has come to its end has visited covers the body. -/
theorem covers_of_ends
    (hforward : ∀ q, Reaches (scanTurn table bytes methodName examine) position q →
      ¬ BackwardSwitch table bytes methodName q)
    (hin : position.value ≤ bytes.length) {visits : List (Instruction × List String)}
    (hend : Ends (scanTurn table bytes methodName examine) position (.ok visits)) :
    Covers bytes position.value (visits.map Prod.fst) := by
  induction visits generalizing position with
  | nil =>
    rcases ends_ok_cases hend with ⟨hover, -⟩ | ⟨_, _, _, -, hcons, -⟩
    · have hout := scanTurn_over hover
      rw [Int.le_antisymm hin hout]
      exact .nil
    · cases hcons
  | cons visit visits ih =>
    rcases ends_ok_cases hend with ⟨-, hnil⟩ | ⟨first, next, later, hturn, hcons, hlater⟩
    · cases hnil
    · obtain ⟨rfl, rfl⟩ := List.cons.inj hcons
      obtain ⟨instruction, lines⟩ := visit
      obtain ⟨hlt, hdecode, rfl⟩ := scanTurn_next hturn
      obtain ⟨rfl, hopcode, -, hfits⟩ := decodeInstruction_ok hdecode
      have hsize := operandSize_notNegative hlt hdecode (hforward _ .refl)
      have hrest := ih (fun q hq => hforward q (.head ⟨_, hturn⟩ hq)) hfits hlater
      exact .cons instruction _ hopcode hsize hrest

/-- A scan that meets no backward switch goes forward at every turn. -/
theorem ends_of_forward
    (hforward : ∀ q, Reaches (scanTurn table bytes methodName examine) position q →
      ¬ BackwardSwitch table bytes methodName q) :
    ∃ result, Ends (scanTurn table bytes methodName examine) position result := by
  refine ends_of_decreasing (fun q => (bytes.length - q.value).toNat) fun q q' hq hnext => ?_
  obtain ⟨⟨instruction, lines⟩, hturn⟩ := hnext
  obtain ⟨hlt, hdecode, rfl⟩ := scanTurn_next hturn
  obtain ⟨-, hopcode, -, -⟩ := decodeInstruction_ok hdecode
  have hsize := operandSize_notNegative hlt hdecode (hforward q hq)
  simp only [Number.add_value]
  omega

theorem Covers.notNegative {start : Int} {instructions : List Instruction}
    (h : Covers bytes start instructions) :
    ∀ instruction ∈ instructions, 0 ≤ instruction.operandSize.value := by
  induction h with
  | nil => exact List.forall_mem_nil _
  | cons instruction later opcodeBytes notNegative next ih =>
    exact List.forall_mem_cons.mpr ⟨notNegative, ih⟩

/-- The loop ends, with a throw or with the body covered, exactly when it comes to a position where
it throws, or comes to no switch that goes back. -/
theorem scan_ends_covering_iff :
    (∃ fuel result, scan table bytes methodName examine fuel = some result ∧
      ∀ visits, result = .ok visits → Covers bytes 0 (visits.map Prod.fst)) ↔
    (∃ q, Reaches (scanTurn table bytes methodName examine) (.ofInt 0) q ∧
      Fails (scanTurn table bytes methodName examine) q) ∨
    ∀ q, Reaches (scanTurn table bytes methodName examine) (.ofInt 0) q →
      ¬ BackwardSwitch table bytes methodName q := by
  constructor
  · intro hend
    obtain ⟨fuel, result, hrun, hcovers⟩ := hend
    cases result with
    | error e => exact .inl (ends_error_iff.mp ⟨e, fuel, hrun⟩)
    | ok visits =>
      right
      intro q hq hback
      obtain ⟨later, hlater, hsuffix⟩ := ends_ok_of_reaches ⟨fuel, hrun⟩ hq
      rcases ends_ok_cases hlater with ⟨hover, -⟩ | ⟨visit, next, rest, hturn, rfl, -⟩
      · have hout := scanTurn_over hover
        have hlt := hback.1
        omega
      · obtain ⟨instruction, lines⟩ := visit
        obtain ⟨-, hdecode, -⟩ := scanTurn_next hturn
        have hvisit : (instruction, lines) ∈ visits := hsuffix.subset List.mem_cons_self
        have hsize := (hcovers visits rfl).notNegative instruction (List.mem_map_of_mem hvisit)
        have hnegative := hback.operandSize_neg hdecode
        omega
  · intro hcondition
    rcases hcondition with hfails | hforward
    · obtain ⟨e, fuel, hrun⟩ := ends_error_iff.mpr hfails
      exact ⟨fuel, .error e, hrun, fun visits hvisits => by cases hvisits⟩
    · obtain ⟨result, fuel, hrun⟩ := ends_of_forward hforward
      refine ⟨fuel, result, hrun, ?_⟩
      rintro visits rfl
      exact covers_of_ends hforward (Int.natCast_nonneg _) ⟨fuel, hrun⟩

end

/-! A body that both scripts scan for ever: its switch has the count -2. -/

def nop : Opcode := ⟨"nop", .inlineNone⟩

def switch : Opcode := ⟨"switch", .inlineSwitch⟩

def backwardTable : OpcodeTable := fun value =>
  if value = 0 then some nop else if value = 0x45 then some switch else none

def backwardBody : Bytes := [0, 0, 0, 0x45, 0xFE, 0xFF, 0xFF, 0xFF]

theorem scanTurn_backwardBody {examine : Examine} {position next : Number}
    {instruction : Instruction}
    (hexamine : ∀ instruction : Instruction,
      instruction.opcode = nop ∨ instruction.opcode = switch →
        examine backwardBody instruction = .ok [])
    (hlt : position.value < backwardBody.length)
    (hdecode : decodeInstruction backwardTable backwardBody "Run" position = .ok instruction)
    (hopcode : instruction.opcode = nop ∨ instruction.opcode = switch)
    (hnext : instruction.operand.add instruction.operandSize = next) :
    scanTurn backwardTable backwardBody "Run" examine position =
      .ok (some ((instruction, []), next)) := by
  unfold scanTurn
  rw [if_pos hlt, hdecode, ← hnext]
  change (examine backwardBody instruction >>= _) = _
  rw [hexamine instruction hopcode]
  rfl

theorem scan_backwardBody {examine : Examine}
    (hexamine : ∀ instruction : Instruction,
      instruction.opcode = nop ∨ instruction.opcode = switch →
        examine backwardBody instruction = .ok []) (fuel : Nat) :
    scan backwardTable backwardBody "Run" examine fuel = none := by
  refine WhileLoop.run_eq_none_of_closed (fun q => q ∈ [0, 1, 2, 3].map Number.ofInt) ?_
    (by decide) fuel
  intro q hq
  simp only [List.map_cons, List.map_nil, List.mem_cons, List.not_mem_nil, or_false] at hq
  rcases hq with rfl | rfl | rfl | rfl
  · exact ⟨_, .ofInt 1, scanTurn_backwardBody hexamine (by decide) rfl (.inl rfl) rfl, by decide⟩
  · exact ⟨_, .ofInt 2, scanTurn_backwardBody hexamine (by decide) rfl (.inl rfl) rfl, by decide⟩
  · exact ⟨_, .ofInt 3, scanTurn_backwardBody hexamine (by decide) rfl (.inl rfl) rfl, by decide⟩
  · exact ⟨_, .ofInt 0, scanTurn_backwardBody hexamine (by decide) rfl (.inr rfl) rfl, by decide⟩

/-- Neither script comes to an end on the body. -/
theorem scan_never_ends :
    (∀ fuel, scan backwardTable backwardBody "Run"
      (examineCall (fun _ _ => true) 0x06000001 "Run"
        ⟨fun _ => .error (.metadata "no method"), fun _ => .error (.metadata "no string")⟩ "" "")
      fuel = none) ∧
    ∀ fuel, scan backwardTable backwardBody "Run"
      (examineField (fun _ _ => true) 0x06000001 "Run"
        (fun _ => .error (.metadata "no field")) "")
      fuel = none := by
  constructor
  · refine scan_backwardBody fun instruction hopcode => ?_
    rcases hopcode with hnop | hswitch
    · rw [examineCall, hnop]
      rfl
    · rw [examineCall, hswitch]
      rfl
  · refine scan_backwardBody fun instruction hopcode => ?_
    rcases hopcode with hnop | hswitch
    · rw [examineField, hnop]
      rfl
    · rw [examineField, hswitch]
      rfl

end Army3
