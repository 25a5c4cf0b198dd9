import Army3.Framework.LittleEndian
import Army3.Framework.Tracing
import Army3.Tools.PathNames
import Army3.Tools.ProcessText

/-! Reading the memory of a client process: the `ProcessReader` of the runtime inspector. -/

namespace Army3

open Traced

namespace PyStr

/-- `f"0x{value:X}"` -/
def hex (value : Nat) : PyStr := lit "0x" ++ ofChars ((Nat.toDigits 16 value).map Char.toUpper)

/-- `str(value)` -/
def ofInt (value : Int) : PyStr :=
  if value < 0 then lit "-" ++ ofNat value.natAbs else ofNat value.natAbs

end PyStr

/-- `RuntimeReadError`. The number that Windows gives with a failed call is left out. -/
inductive RuntimeReadError where
  | lastError (action : PyStr)
  | message (text : PyStr)
  deriving DecidableEq, Repr

/-- The memory of a process that does not run: a byte at each mapped address. -/
abbrev Image := UInt64 → Option UInt8

/-- A read of `size` bytes at `base + offset`: what the code dereferences, and where in it. -/
structure Access where
  base : Nat
  offset : Nat
  size : Nat
  deriving DecidableEq, Repr

abbrev Reading (α : Type) := Traced Access RuntimeReadError α

namespace Image

/-- An image that maps some blocks, each from an address on. -/
def ofBlocks (blocks : List (UInt64 × Bytes)) : Image := fun address =>
  blocks.findSome? fun block => block.2[(address - block.1).toNat]?

variable (image : Image)

/-- The bytes from an address on; `c_void_p` takes an address modulo 2^64. -/
def bytes? (address size : Nat) : Option Bytes :=
  (List.range size).mapM fun i => image (UInt64.ofNat (address + i))

def unsigned? (address size : Nat) : Option Nat :=
  (image.bytes? address size).map LittleEndian.ofBytes

def signed? (address size : Nat) : Option Int :=
  (image.unsigned? address size).map (LittleEndian.signed (8 * size))

end Image

section

variable (image : Image) (base offset : Nat)

/-- `reader.read(base + offset, size)`. `ReadProcessMemory` fails unless all of it can be read. -/
def read (size : Nat) : Reading Bytes :=
  ask ⟨base, offset, size⟩ <|
    match image.bytes? (base + offset) size with
    | some raw => .ok raw
    | none => .error (.lastError (PyStr.lit "ReadProcessMemory at " ++ PyStr.hex (base + offset)))

/-- `struct.unpack` of an unsigned number of `size` bytes. -/
def unsigned (size : Nat) : Reading Nat := do
  let raw ← read image base offset size
  pure (LittleEndian.ofBytes raw)

/-- `struct.unpack` of a signed number of `size` bytes. -/
def signed (size : Nat) : Reading Int := do
  let value ← unsigned image base offset size
  pure (LittleEndian.signed (8 * size) value)

/-- `reader.pointer(base + offset)` -/
def pointer : Reading Nat := unsigned image base offset 8

/-- `reader.c_string(address)` -/
def cString (address : Nat) : Reading PyStr :=
  if address = 0 then pure []
  else do
    let raw ← read image address 0 256
    pure (PyStr.decodeUtf8Replace (raw.takeWhile (· ≠ 0)))

/-- `reader.managed_string(address)` -/
def managedString (address : Nat) : Reading PyStr :=
  if address = 0 then pure []
  else do
    let length ← signed image address 0x10 4
    Traced.raiseIf (length < 0 ∨ 4096 < length)
      (.message (PyStr.lit "invalid managed string length " ++ PyStr.ofInt length ++
        PyStr.lit " at " ++ PyStr.hex address))
    let raw ← read image address 0x14 (length.toNat * 2)
    pure (PyStr.decodeUtf16 raw)

end

section

variable {image : Image} {base offset size address : Nat} {P : Access → Prop}

/-- Bytes that are mapped one by one can be read together. -/
theorem Image.exists_bytes {extent : Nat}
    (h : ∀ index < extent, ∃ byte, image (UInt64.ofNat (base + index)) = some byte)
    (hin : offset + size ≤ extent) : ∃ raw, image.bytes? (base + offset) size = some raw := by
  have hmapM (indices : List Nat) (hall : ∀ index ∈ indices, offset + index < extent) :
      ∃ raw, (indices.mapM fun index => image (UInt64.ofNat (base + offset + index))) =
        some raw := by
    induction indices with
    | nil => exact ⟨[], rfl⟩
    | cons index indices ih =>
      obtain ⟨raw, hraw⟩ := ih fun later hlater => hall later (List.mem_cons_of_mem index hlater)
      obtain ⟨byte, hbyte⟩ := h (offset + index) (hall index List.mem_cons_self)
      rw [← Nat.add_assoc] at hbyte
      refine ⟨byte :: raw, ?_⟩
      simp only [List.mapM_cons, hbyte, hraw, Option.bind_eq_bind, Option.bind_some]
      rfl
  refine hmapM (List.range size) fun index hindex => ?_
  have hlt := List.mem_range.mp hindex
  omega

theorem result_read_eq_ok {raw : Bytes} :
    (read image base offset size).result = .ok raw ↔
      image.bytes? (base + offset) size = some raw := by
  unfold read
  rw [result_ask_eq_ok]
  cases image.bytes? (base + offset) size <;> simp

theorem every_read : Every P (read image base offset size) ↔ P ⟨base, offset, size⟩ := every_ask

theorem result_unsigned_eq_ok {value : Nat} :
    (unsigned image base offset size).result = .ok value ↔
      image.unsigned? (base + offset) size = some value := by
  simp only [unsigned, Image.unsigned?, result_bind_eq_ok, result_read_eq_ok, result_pure_eq_ok,
    Option.map_eq_some_iff]

theorem every_unsigned : Every P (unsigned image base offset size) ↔ P ⟨base, offset, size⟩ :=
  every_map.trans every_read

theorem result_signed_eq_ok {value : Int} :
    (signed image base offset size).result = .ok value ↔
      image.signed? (base + offset) size = some value := by
  simp only [signed, Image.signed?, result_bind_eq_ok, result_unsigned_eq_ok, result_pure_eq_ok,
    Option.map_eq_some_iff]

theorem every_signed : Every P (signed image base offset size) ↔ P ⟨base, offset, size⟩ :=
  every_map.trans every_unsigned

theorem result_pointer_eq_ok {value : Nat} :
    (pointer image base offset).result = .ok value ↔
      image.unsigned? (base + offset) 8 = some value := result_unsigned_eq_ok

theorem every_pointer : Every P (pointer image base offset) ↔ P ⟨base, offset, 8⟩ := every_unsigned

/-- A managed string is read from its own object: the length first, then the text. -/
theorem every_managedString (hlength : address ≠ 0 → P ⟨address, 0x10, 4⟩)
    (htext : ∀ size, address ≠ 0 → P ⟨address, 0x14, size⟩) :
    Every P (managedString image address) := by
  refine every_ite (fun _ => every_pure) fun hnull => ?_
  refine every_bind.mpr ⟨every_signed.mpr (hlength hnull), fun length _ => ?_⟩
  refine every_bind.mpr ⟨every_raiseIf, fun _ _ => ?_⟩
  exact every_map.mpr (every_read.mpr (htext _ hnull))

theorem every_cString (h : address ≠ 0 → P ⟨address, 0, 256⟩) :
    Every P (cString image address) :=
  every_ite (fun _ => every_pure) fun hnull => every_map.mpr (every_read.mpr (h hnull))

end

end Army3
