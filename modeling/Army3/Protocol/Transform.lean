import Army3.Protocol.Errors
import Mathlib.Data.Fin.Basic

namespace Army3

/-- Effective key and command shift of one connection; the fields carry what
`__post_init__` checks. -/
structure ByteTransform where
  key : Bytes
  shift : UInt8
  key_pos : 0 < key.length
  key_le : key.length ≤ 0x7F
  deriving DecidableEq

namespace ByteTransform

/-- `ByteTransform.__post_init__` on a candidate key and shift. -/
def create (key : Bytes) (shift : Int) : Except PyError ByteTransform :=
  if h : key.length = 0 then .error (.encodeError "transform key must not be empty")
  else if h' : 0x7F < key.length then .error (.encodeError "transform key is limited to 127 bytes")
  else if ¬ (0 ≤ shift ∧ shift ≤ 0xFF) then
    .error (.encodeError "transform shift must be between 0 and 255")
  else .ok ⟨key, UInt8.ofNat shift.toNat, by omega, by omega⟩

/-- The loop of `from_seed` over `index = 1, …`, in place: each byte absorbs its already
modified predecessor. -/
def prefixXor (source : Bytes) : Bytes :=
  (List.range' 1 (source.length - 1)).foldl
    (fun effective index =>
      effective.set index (effective.getD index 0 ^^^ effective.getD (index - 1) 0))
    source

/-- The client's prefix-XOR key of a handshake seed. -/
def fromSeed (seed : Bytes) (shift : Int) : Except PyError ByteTransform := do
  raiseIf (seed = []) (.encodeError "transform seed must not be empty")
  create (prefixXor seed) shift

@[simp]
theorem prefixXor_length (source : Bytes) : (prefixXor source).length = source.length := by
  unfold prefixXor
  generalize List.range' 1 (source.length - 1) = indices
  suffices h : ∀ effective : Bytes, effective.length = source.length →
      (indices.foldl (fun effective index =>
        effective.set index (effective.getD index 0 ^^^ effective.getD (index - 1) 0))
        effective).length = source.length from h source rfl
  induction indices with
  | nil => exact fun _ h => h
  | cons index indices ih => exact fun effective h => ih _ (by simpa using h)

/-- Every seed of 1..127 bytes and every byte shift make a transform. -/
theorem fromSeed_ok (seed : Bytes) (shift : UInt8) (hpos : 0 < seed.length)
    (hle : seed.length ≤ 0x7F) :
    fromSeed seed shift.toNat =
      .ok ⟨prefixXor seed, shift, by simpa using hpos, by simpa using hle⟩ := by
  have hne : seed ≠ [] := List.length_pos_iff.mp hpos
  have hs := shift.toNat_lt
  have hrange : 0 ≤ (shift.toNat : Int) ∧ (shift.toNat : Int) ≤ 0xFF := by omega
  have hkey : ¬ (prefixXor seed).length = 0 := by rw [prefixXor_length]; omega
  have hkey' : ¬ 0x7F < (prefixXor seed).length := by rw [prefixXor_length]; omega
  simp only [fromSeed, raiseIf, if_neg hne, create, dif_neg hkey, dif_neg hkey', hrange, and_self,
    not_true_eq_false, if_false, Int.toNat_natCast, UInt8.ofNat_toNat]
  rfl

end ByteTransform

/-- One wire direction's position in the key. The field `_index` is private and every
method keeps it inside the key. -/
structure TransformCursor where
  transform : ByteTransform
  index : Nat
  index_lt : index < transform.key.length
  deriving DecidableEq

def ByteTransform.cursor (transform : ByteTransform) : TransformCursor :=
  ⟨transform, 0, transform.key_pos⟩

namespace TransformCursor

def checkpoint (c : TransformCursor) : Nat := c.index

def restore (c : TransformCursor) (checkpoint : Nat) : Except PyError TransformCursor :=
  if h : checkpoint < c.transform.key.length then .ok ⟨c.transform, checkpoint, h⟩
  else .error (.valueError "checkpoint is outside the transform key")

def xorNext (c : TransformCursor) (value : UInt8) : UInt8 × TransformCursor :=
  (value ^^^ c.transform.key.get ⟨c.index, c.index_lt⟩,
    ⟨c.transform, (c.index + 1) % c.transform.key.length, Nat.mod_lt _ c.transform.key_pos⟩)

-- Byte arithmetic wraps as the mask `& 0xFF` does.
def encodeCommand (c : TransformCursor) (logicalCommand : UInt8) : UInt8 × TransformCursor :=
  c.xorNext (logicalCommand + c.transform.shift)

def decodeCommand (c : TransformCursor) (rawCommand : UInt8) : UInt8 × TransformCursor :=
  ((c.xorNext rawCommand).1 - c.transform.shift, (c.xorNext rawCommand).2)

def encodeData (c : TransformCursor) (value : UInt8) : UInt8 × TransformCursor := c.xorNext value

def decodeData (c : TransformCursor) (value : UInt8) : UInt8 × TransformCursor := c.xorNext value

/-- `for value in values: output.append(cursor.encode_data(value))`. -/
def encodeAll (c : TransformCursor) : Bytes → Bytes × TransformCursor
  | [] => ([], c)
  | value :: values =>
    let head := c.encodeData value
    let tail := head.2.encodeAll values
    (head.1 :: tail.1, tail.2)

/-- `bytes(cursor.decode_data(value) for value in values)`. -/
def decodeAll (c : TransformCursor) : Bytes → Bytes × TransformCursor
  | [] => ([], c)
  | value :: values =>
    let head := c.decodeData value
    let tail := head.2.decodeAll values
    (head.1 :: tail.1, tail.2)

attribute [local simp] encodeAll decodeAll

@[simp]
theorem xorNext_transform (c : TransformCursor) (value : UInt8) :
    (c.xorNext value).2.transform = c.transform := rfl

/-- The same key byte undoes itself, and the position moves alike for any value. -/
theorem xorNext_xorNext (c : TransformCursor) (value : UInt8) :
    c.xorNext (c.xorNext value).1 = (value, (c.xorNext value).2) := by
  simp only [xorNext, UInt8.xor_assoc, UInt8.xor_self, UInt8.xor_zero]

theorem decodeCommand_encodeCommand (c : TransformCursor) (command : UInt8) :
    c.decodeCommand (c.encodeCommand command).1 = (command, (c.encodeCommand command).2) := by
  simp only [decodeCommand, encodeCommand, xorNext_xorNext, UInt8.add_sub_cancel]

theorem encodeCommand_decodeCommand (c : TransformCursor) (raw : UInt8) :
    c.encodeCommand (c.decodeCommand raw).1 = (raw, (c.decodeCommand raw).2) := by
  simp only [decodeCommand, encodeCommand, UInt8.sub_add_cancel, xorNext_xorNext]

theorem decodeAll_encodeAll (c : TransformCursor) (values : Bytes) :
    c.decodeAll (c.encodeAll values).1 = (values, (c.encodeAll values).2) := by
  induction values generalizing c with
  | nil => rfl
  | cons value values ih =>
    simp only [encodeAll, decodeAll, encodeData, decodeData, xorNext_xorNext, ih]

theorem encodeAll_decodeAll (c : TransformCursor) (values : Bytes) :
    c.encodeAll (c.decodeAll values).1 = (values, (c.decodeAll values).2) := by
  induction values generalizing c with
  | nil => rfl
  | cons value values ih =>
    simp only [encodeAll, decodeAll, encodeData, decodeData, xorNext_xorNext, ih]

@[simp]
theorem encodeAll_length (c : TransformCursor) (values : Bytes) :
    (c.encodeAll values).1.length = values.length := by
  induction values generalizing c with
  | nil => rfl
  | cons value values ih => simp [encodeAll, ih]

@[simp]
theorem decodeAll_length (c : TransformCursor) (values : Bytes) :
    (c.decodeAll values).1.length = values.length := by
  induction values generalizing c with
  | nil => rfl
  | cons value values ih => simp [decodeAll, ih]

@[simp]
theorem decodeAll_transform (c : TransformCursor) (values : Bytes) :
    (c.decodeAll values).2.transform = c.transform := by
  induction values generalizing c with
  | nil => rfl
  | cons value values ih =>
    rw [decodeAll, ih]
    rfl

/-- Restoring a checkpoint undoes any advance along the same key. -/
theorem restore_checkpoint (c d : TransformCursor) (h : d.transform = c.transform) :
    d.restore c.checkpoint = .ok c := by
  obtain ⟨transform, index, hlt⟩ := c
  obtain ⟨transform', index', hlt'⟩ := d
  subst h
  simp [restore, checkpoint, hlt]

end TransformCursor
end Army3
