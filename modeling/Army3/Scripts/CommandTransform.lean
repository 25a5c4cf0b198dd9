import Army3.Protocol.KeyAgreement
import Army3.Scripts.IlScan

/-! `verify-command-transform.ps1`: the transform of a command, computed apart from the server. -/

namespace Army3
namespace CommandTransform

/-- The object that the script writes. -/
structure Report where
  seedHex : String
  effectiveKeyHex : String
  shiftHex : String
  receiveIndex : Nat
  logicalCommandHex : String
  rawCommandHex : String
  decodedCommandHex : String
  nextReceiveIndex : Nat
  inverseCasesChecked : Nat
  deriving DecidableEq, Repr

def hex02 (value : Nat) : String := paddedHex 2 value

/-- `($bytes | ForEach-Object { '{0:X2}' -f $_ }) -join ' '` -/
def joinHex (bytes : Bytes) : String := " ".intercalate (bytes.map fun byte => hex02 byte.toNat)

/-- The loop over the seed: what it has combined, and `$effectiveKey` so far. -/
def absorbByte (loop : Nat × Bytes) (byte : UInt8) : Nat × Bytes :=
  let combined := loop.1 ^^^ byte.toNat
  (combined, loop.2 ++ [UInt8.ofNat combined])

def effectiveKey (seed : Bytes) : Bytes := (seed.foldl absorbByte (0, [])).2

/-- `((command + shift) -band 0xFF) -bxor key` -/
def encode (key shift command : Nat) : Nat := (command + shift) % 0x100 ^^^ key

/-- `((raw -bxor key) - shift) -band 0xFF`, where the difference may be negative. -/
def decode (key shift raw : Nat) : Nat := ((((raw ^^^ key : Nat) : Int) - shift) % 0x100).toNat

/-- One of the cases of the inverse check. -/
def checkCase (testKey testShift casesChecked testCommand : Nat) : Except ScanError Nat :=
  if decode testKey testShift (encode testKey testShift testCommand) ≠ testCommand then
    .error (.thrown ("Inverse check failed for command=" ++ toString testCommand ++ " shift=" ++
      toString testShift ++ " key=" ++ toString testKey ++ "."))
  else .ok (casesChecked + 1)

def testKeys : List Nat := [0x00, 0x01, 0x5A, 0xFF]

def checkInverse : Except ScanError Nat :=
  testKeys.foldlM (fun checked testKey =>
    (List.range 256).foldlM (fun checked testShift =>
      (List.range 256).foldlM (checkCase testKey testShift) checked) checked) 0

def verify (seed : Bytes) (shift logicalCommand : UInt8) (receiveIndex : Int) :
    Except ScanError Report :=
  if ¬ (0 ≤ receiveIndex ∧ receiveIndex ≤ 255) then .error .argument
  else if seed.length = 0 then .error (.thrown "Seed must contain at least one byte.")
  else
    let key := effectiveKey seed
    let normalizedIndex := receiveIndex.toNat % key.length
    let keyByte := (key.getD normalizedIndex 0).toNat
    let rawCommand := encode keyByte shift.toNat logicalCommand.toNat
    let decodedCommand := decode keyByte shift.toNat rawCommand
    if decodedCommand ≠ logicalCommand.toNat then
      .error (.thrown "Command transform did not round-trip.")
    else do
      let casesChecked ← checkInverse
      return ⟨joinHex seed, joinHex key, hex02 shift.toNat, normalizedIndex,
        hex02 logicalCommand.toNat, hex02 rawCommand, hex02 decodedCommand,
        (normalizedIndex + 1) % key.length, casesChecked⟩

theorem decode_undoes_encode {key shift command : Nat} (hcommand : command < 256) :
    decode key shift (encode key shift command) = command := by
  rw [decode, encode, Nat.xor_assoc, Nat.xor_self, Nat.xor_zero]
  omega

theorem checkInverse_eq : checkInverse = .ok 262144 := by
  have hcases : ∀ testKey testShift, ∀ testCommand ∈ List.range 256, ∀ n,
      checkCase testKey testShift n testCommand = .ok (n + 1) := by
    intro testKey testShift testCommand hmem n
    rw [checkCase, decode_undoes_encode (List.mem_range.mp hmem), if_neg (not_not_intro rfl)]
  have hshifts : ∀ testKey, ∀ testShift ∈ List.range 256, ∀ n,
      (List.range 256).foldlM (checkCase testKey testShift) n = .ok (n + 256) := by
    intro testKey testShift _ n
    rw [Raising.foldlM_count (hcases testKey testShift), List.length_range]
  have hkeys : ∀ testKey ∈ testKeys, ∀ n, (List.range 256).foldlM (fun checked testShift =>
      (List.range 256).foldlM (checkCase testKey testShift) checked) n = .ok (n + 65536) := by
    intro testKey _ n
    rw [Raising.foldlM_count (hshifts testKey), List.length_range]
  exact Raising.foldlM_count hkeys 0

theorem foldl_absorbByte (seed : Bytes) (combined : UInt8) (key : Bytes) :
    (seed.foldl absorbByte (combined.toNat, key)).2 =
      key ++ (seed.scanl (· ^^^ ·) combined).tail := by
  induction seed generalizing combined key with
  | nil => simp
  | cons byte seed ih =>
    have hnext : absorbByte (combined.toNat, key) byte =
        ((combined ^^^ byte).toNat, key ++ [combined ^^^ byte]) := by
      rw [absorbByte, ← UInt8.toNat_xor, UInt8.ofNat_toNat]
    rw [List.foldl_cons, hnext, ih, List.scanl_cons, List.tail_cons, List.append_assoc]
    cases seed <;> simp

theorem effectiveKey_eq (seed : Bytes) : effectiveKey seed = ByteTransform.prefixXor seed := by
  have hcomm : (fun last entry : UInt8 => entry ^^^ last) = (· ^^^ ·) := by
    funext last entry
    exact UInt8.xor_comm entry last
  rw [effectiveKey, ByteTransform.prefixXor_eq_absorb]
  have hscan := foldl_absorbByte seed 0 []
  rw [List.nil_append] at hscan
  refine hscan.trans ?_
  cases seed with
  | nil => rfl
  | cons first rest => rw [List.scanl_cons, List.tail_cons, UInt8.zero_xor, RunningFold.absorb, hcomm]

theorem encodeAll_cursor (c : TransformCursor) (sent : Bytes) :
    (c.encodeAll sent).2.transform = c.transform ∧
      (c.encodeAll sent).2.index = (c.index + sent.length) % c.transform.key.length := by
  induction sent generalizing c with
  | nil => exact ⟨rfl, (Nat.mod_eq_of_lt c.index_lt).symm⟩
  | cons value sent ih =>
    obtain ⟨htransform, hindex⟩ := ih (c.encodeData value).2
    refine ⟨htransform, hindex.trans ?_⟩
    have hnext : (c.encodeData value).2.index = (c.index + 1) % c.transform.key.length := rfl
    have hsame : (c.encodeData value).2.transform = c.transform := rfl
    rw [hnext, hsame, Nat.mod_add_mod, List.length_cons, Nat.add_assoc, Nat.add_comm 1]

theorem verify_eq {seed : Bytes} {shift logicalCommand : UInt8} {receiveIndex : Int}
    (hseed : seed ≠ []) (hindex : 0 ≤ receiveIndex ∧ receiveIndex ≤ 255) :
    let key := ByteTransform.prefixXor seed
    let index := receiveIndex.toNat % key.length
    verify seed shift logicalCommand receiveIndex = .ok ⟨joinHex seed, joinHex key,
      hex02 shift.toNat, index, hex02 logicalCommand.toNat,
      hex02 (encode (key.getD index 0).toNat shift.toNat logicalCommand.toNat),
      hex02 logicalCommand.toNat, (index + 1) % key.length, 262144⟩ := by
  intro key index
  have hlength : seed.length ≠ 0 := List.length_pos_iff.mpr hseed |>.ne'
  simp only [verify, hindex, and_self, not_true_eq_false, if_false, if_neg hlength,
    effectiveKey_eq, decode_undoes_encode logicalCommand.toNat_lt, ne_eq, checkInverse_eq]
  rfl

/-- What the script computes for a seed, a shift and a command is what the server's transform
writes for that command after the given number of bytes; its own inverse check never fails. -/
theorem verify_agrees {seed sent : Bytes} {shift logicalCommand : UInt8}
    {transform : ByteTransform} (htransform : ByteTransform.fromSeed seed shift.toNat = .ok transform)
    (hsent : sent.length ≤ 255) :
    let cursor := (transform.cursor.encodeAll sent).2
    let encoded := cursor.encodeCommand logicalCommand
    verify seed shift logicalCommand sent.length = .ok ⟨joinHex seed, joinHex transform.key,
      hex02 shift.toNat, cursor.checkpoint, hex02 logicalCommand.toNat, hex02 encoded.1.toNat,
      hex02 (cursor.decodeCommand encoded.1).1.toNat, encoded.2.checkpoint, 262144⟩ := by
  intro cursor encoded
  obtain ⟨hkey, hshift⟩ := ByteTransform.fromSeed_eq_ok.mp htransform
  have hseed : seed ≠ [] := by
    rintro rfl
    have hpos := transform.key_pos
    rw [hkey] at hpos
    simp at hpos
  obtain ⟨hsame, hindex⟩ := encodeAll_cursor transform.cursor sent
  have hat : cursor.index = sent.length % transform.key.length := by
    rw [hindex]
    exact congrArg (· % transform.key.length) (Nat.zero_add sent.length)
  have hbyte : encoded.1.toNat =
      encode (transform.key.getD cursor.index 0).toNat shift.toNat logicalCommand.toNat := by
    have hget : cursor.transform.key.get ⟨cursor.index, cursor.index_lt⟩ =
        transform.key.getD cursor.index 0 := by
      rw [List.get_eq_getElem, ← List.getD_eq_getElem _ 0]
      exact congrArg (fun t : ByteTransform => t.key.getD cursor.index 0) hsame
    have hraw : encoded.1 = (logicalCommand + cursor.transform.shift) ^^^
        cursor.transform.key.get ⟨cursor.index, cursor.index_lt⟩ := rfl
    have hshift' : cursor.transform.shift.toNat = shift.toNat := by
      rw [hsame]
      exact_mod_cast hshift
    rw [hraw, hget, UInt8.toNat_xor, UInt8.toNat_add, hshift']
    rfl
  have hnext : encoded.2.checkpoint = (cursor.index + 1) % transform.key.length := by
    have hmoved : encoded.2.checkpoint = (cursor.index + 1) % cursor.transform.key.length := rfl
    rw [hmoved, hsame]
    rfl
  rw [verify_eq hseed (by omega), TransformCursor.decodeCommand_encodeCommand, hbyte, hnext, ← hkey]
  simp only [Int.toNat_natCast, ← hat]
  rfl

/-- The second command of a connection whose handshake is the script's own example. -/
theorem verify_agrees_second :
    let transform : ByteTransform := ⟨[0x31, 0x13, 0x6C], 0x0B, by decide, by decide⟩
    let cursor := (transform.cursor.encodeAll [0x16]).2
    let encoded := cursor.encodeCommand 0x16
    verify [0x31, 0x22, 0x7F] 0x0B 0x16 ([0x16] : Bytes).length = .ok ⟨joinHex [0x31, 0x22, 0x7F],
      joinHex transform.key, hex02 (0x0B : UInt8).toNat, cursor.checkpoint,
      hex02 (0x16 : UInt8).toNat, hex02 encoded.1.toNat,
      hex02 (cursor.decodeCommand encoded.1).1.toNat, encoded.2.checkpoint, 262144⟩ ∧
      encoded.1 = 0x32 :=
  have hok : ByteTransform.fromSeed [0x31, 0x22, 0x7F] (0x0B : UInt8).toNat =
      .ok ⟨[0x31, 0x13, 0x6C], 0x0B, by decide, by decide⟩ := by decide
  have hsent : ([0x16] : Bytes).length ≤ 255 := by decide
  ⟨verify_agrees hok hsent, by decide⟩

end CommandTransform
end Army3
