import Army3.Framework.Occurrences
import Army3.Tools.PatchedCopy

/-! Where the endpoints occur in a metadata file that `_verify_metadata_bytes` accepts. -/

namespace Army3

open Files Raising Occurrences

section

variable {sub data : Bytes}

theorem countFrom_skip (skip : Nat) : countFrom sub skip data = countFrom sub 0 (data.drop skip) := by
  induction data generalizing skip with
  | nil => cases skip <;> simp [countFrom]
  | cons byte rest ih =>
    cases skip with
    | zero => rfl
    | succ skip => exact ih skip

/-- One turn of `bytes.count`: behind an occurrence it goes on after the whole of it. -/
theorem byteCount_cons (byte : UInt8) (rest : Bytes) :
    byteCount (byte :: rest) sub =
      if sub <+: byte :: rest then 1 + byteCount (rest.drop (sub.length - 1)) sub
      else byteCount rest sub := by
  unfold byteCount
  rw [countFrom]
  split
  · rw [countFrom_skip]
  · rfl

theorem byteCount_eq_zero_iff (hne : sub ≠ []) :
    byteCount data sub = 0 ↔ ∀ index, ¬ OccursAt sub data index := by
  induction data with
  | nil =>
    have hnone : ∀ index, ¬ OccursAt sub [] index := by
      intro index hoccurs
      have hlt := hoccurs.index_lt hne
      simp at hlt
    exact iff_of_true rfl hnone
  | cons byte rest ih =>
    rw [byteCount_cons]
    by_cases hfirst : sub <+: byte :: rest
    · rw [if_pos hfirst]
      constructor
      · intro hzero
        omega
      · intro hnone
        exact absurd (occursAt_zero.mpr hfirst) (hnone 0)
    · rw [if_neg hfirst, ih]
      constructor
      · intro hnone index
        cases index with
        | zero => exact hfirst
        | succ index => exact hnone index
      · exact fun hnone index => hnone (index + 1)

/-- With a count of one, no occurrence lies behind the first one. -/
theorem occursAt_of_byteCount_eq_one (hne : sub ≠ []) (h : byteCount data sub = 1) :
    ∃ first, ∀ index, OccursAt sub data index → first ≤ index ∧ index < first + sub.length := by
  induction data with
  | nil => cases h
  | cons byte rest ih =>
    rw [byteCount_cons] at h
    by_cases hfirst : sub <+: byte :: rest
    · rw [if_pos hfirst] at h
      have hzero : byteCount (rest.drop (sub.length - 1)) sub = 0 := by omega
      have hnone := (byteCount_eq_zero_iff hne).mp hzero
      have hpos := List.length_pos_of_ne_nil hne
      refine ⟨0, fun index hoccurs => ⟨Nat.zero_le index, ?_⟩⟩
      by_contra hfar
      obtain ⟨far, rfl⟩ : ∃ far, index = sub.length - 1 + far + 1 :=
        ⟨index - sub.length, by omega⟩
      exact hnone far (occursAt_drop.mpr (occursAt_succ.mp hoccurs))
    · rw [if_neg hfirst] at h
      obtain ⟨first, hwithin⟩ := ih h
      refine ⟨first + 1, fun index hoccurs => ?_⟩
      cases index with
      | zero => exact absurd hoccurs hfirst
      | succ index =>
        have hbounds := hwithin index (occursAt_succ.mp hoccurs)
        omega

theorem slice_eq_iff {offset : Nat} :
    (data.drop offset).take sub.length = sub ↔ OccursAt sub data offset := by
  unfold OccursAt
  rw [List.prefix_iff_eq_take, eq_comm]

/-- Counted once and found at the offset, a word occurs there only, unless a copy overlaps it. -/
theorem occursOnlyAt_iff {offset : Nat} (hne : sub ≠ []) (hcount : byteCount data sub = 1)
    (hoffset : OccursAt sub data offset) :
    (∀ index, OccursAt sub data index ↔ index = offset) ↔ ¬ OverlappedAt sub data offset := by
  rw [overlappedAt_iff hoffset]
  constructor
  · intro honly hall
    obtain ⟨other, hother, -, -, hoccurs⟩ := hall
    exact hother ((honly other).mp hoccurs)
  · intro hnone index
    refine ⟨fun hoccurs => ?_, fun hindex => hindex ▸ hoffset⟩
    obtain ⟨first, hwithin⟩ := occursAt_of_byteCount_eq_one hne hcount
    have hbounds := hwithin index hoccurs
    have hbounds' := hwithin offset hoffset
    by_contra hother
    exact hnone ⟨index, hother, by omega, by omega, hoccurs⟩

end

section

variable {host : Host} {disk : Disk} {path : List FileName} {plan : PatchPlan} {hash : PyStr}

/-- What the checks of `_verify_metadata_bytes` compare: the hash, the two counts and the bytes at
the offset. -/
def MetadataChecks (host : Host) (data : Bytes) (hash : PyStr) (present absent : Bytes)
    (offset : Nat) : Prop :=
  host.sha256 data = hash ∧ byteCount data present = 1 ∧ byteCount data absent = 0 ∧
    (data.drop offset).take present.length = present

theorem verifyMetadataBytes_original_eq_ok :
    verifyMetadataBytes host disk path plan hash 1 0 = .ok () ↔
      ∃ data, disk.readBytes (down path) = .ok data ∧
        MetadataChecks host data hash plan.sourceEndpoint plan.targetEndpoint plan.expectedOffset := by
  simp only [verifyMetadataBytes, MetadataChecks, except_bind_eq_ok, refuseIf_eq_ok, exists_const,
    not_not, ne_eq, if_true]

theorem verifyMetadataBytes_patched_eq_ok :
    verifyMetadataBytes host disk path plan hash 0 1 = .ok () ↔
      ∃ data, disk.readBytes (down path) = .ok data ∧
        MetadataChecks host data hash plan.targetEndpoint plan.sourceEndpoint plan.expectedOffset := by
  simp only [verifyMetadataBytes, MetadataChecks, except_bind_eq_ok, refuseIf_eq_ok, exists_const,
    not_not, ne_eq]
  constructor
  · intro hall
    obtain ⟨data, hread, hhash, habsent, hpresent, hslice⟩ := hall
    exact ⟨data, hread, hhash, hpresent, habsent, hslice⟩
  · intro hall
    obtain ⟨data, hread, hhash, hpresent, habsent, hslice⟩ := hall
    exact ⟨data, hread, hhash, habsent, hpresent, hslice⟩

/-- The endpoint that should be there occurs at the offset and nowhere else, the other one nowhere;
occurrences may overlap. -/
def EndpointsAt (data present absent : Bytes) (offset : Nat) : Prop :=
  (∀ index, OccursAt present data index ↔ index = offset) ∧ ∀ index, ¬ OccursAt absent data index

theorem MetadataChecks.endpointsAt_iff {data present absent : Bytes} {offset : Nat}
    (h : MetadataChecks host data hash present absent offset) (hpresent : present ≠ [])
    (habsent : absent ≠ []) :
    EndpointsAt data present absent offset ↔ ¬ OverlappedAt present data offset := by
  obtain ⟨-, hone, hzero, hslice⟩ := h
  unfold EndpointsAt
  rw [occursOnlyAt_iff hpresent hone (slice_eq_iff.mp hslice)]
  exact and_iff_left ((byteCount_eq_zero_iff habsent).mp hzero)

theorem PatchPlan.targetEndpoint_ne_nil (plan : PatchPlan) : plan.targetEndpoint ≠ [] := by
  intro hnil
  have hlength := plan.equalLength
  rw [hnil, List.length_nil, List.length_eq_zero_iff] at hlength
  exact plan.nonempty hlength

/-- A file that has passed the checks holds the endpoint where it should, and nowhere else exactly
if it does not overlap a copy of itself there. -/
theorem accepted_endpointsAt_iff {present absent : Bytes} (hpresent : present ≠ [])
    (habsent : absent ≠ []) {offset : Nat} {accepted : Prop}
    (haccepted : accepted ↔ ∃ data, disk.readBytes (down path) = .ok data ∧
      MetadataChecks host data hash present absent offset) :
    (accepted → ∃ data, disk.readBytes (down path) = .ok data ∧
        EndpointsAt data present absent offset) ↔
      ¬ ∃ data, disk.readBytes (down path) = .ok data ∧
        MetadataChecks host data hash present absent offset ∧
        OverlappedAt present data offset := by
  constructor
  · intro hclaim hall
    obtain ⟨data, hread, hchecks, hoverlapped⟩ := hall
    obtain ⟨data', hread', hends⟩ := hclaim (haccepted.mpr ⟨data, hread, hchecks⟩)
    obtain rfl := Except.ok.inj (hread.symm.trans hread')
    exact (hchecks.endpointsAt_iff hpresent habsent).mp hends hoverlapped
  · intro hnone haccept
    obtain ⟨data, hread, hchecks⟩ := haccepted.mp haccept
    refine ⟨data, hread, (hchecks.endpointsAt_iff hpresent habsent).mpr ?_⟩
    exact fun hoverlapped => hnone ⟨data, hread, hchecks, hoverlapped⟩

end

/-- `bytes.count` does not see occurrences that overlap: an accepted file holds the endpoint at the
offset only, and the other endpoint nowhere, exactly unless the endpoint overlaps itself and the
bytes next to the offset complete a second copy. -/
theorem verifyMetadataBytes_endpoints_iff (host : Host) (disk : Disk) (path : List FileName)
    (plan : PatchPlan) (hash : PyStr) :
    ((verifyMetadataBytes host disk path plan hash 1 0 = .ok () →
        ∃ data, disk.readBytes (down path) = .ok data ∧
          EndpointsAt data plan.sourceEndpoint plan.targetEndpoint plan.expectedOffset) ↔
      ¬ ∃ data, disk.readBytes (down path) = .ok data ∧
        MetadataChecks host data hash plan.sourceEndpoint plan.targetEndpoint plan.expectedOffset ∧
        OverlappedAt plan.sourceEndpoint data plan.expectedOffset) ∧
    ((verifyMetadataBytes host disk path plan hash 0 1 = .ok () →
        ∃ data, disk.readBytes (down path) = .ok data ∧
          EndpointsAt data plan.targetEndpoint plan.sourceEndpoint plan.expectedOffset) ↔
      ¬ ∃ data, disk.readBytes (down path) = .ok data ∧
        MetadataChecks host data hash plan.targetEndpoint plan.sourceEndpoint plan.expectedOffset ∧
        OverlappedAt plan.targetEndpoint data plan.expectedOffset) :=
  ⟨accepted_endpointsAt_iff plan.nonempty plan.targetEndpoint_ne_nil
      verifyMetadataBytes_original_eq_ok,
    accepted_endpointsAt_iff plan.targetEndpoint_ne_nil plan.nonempty
      verifyMetadataBytes_patched_eq_ok⟩

namespace Sample

/-- `sha256(b"aaa")` -/
def threeSha256 : PyStr := PyStr.ofChars
  (Nat.toDigits 16 0x9834876dcfb05cb167a5c24953eba58c4ac89b1adf57f28f2f9d09af107ee8f0)

/-- `sha256(b"bba")` -/
def threePatchedSha256 : PyStr := PyStr.ofChars
  (Nat.toDigits 16 0x324e8d5716afe4775118fe12256fd3d488cce575e375ce6f8eb16cb4b5bbb5d3)

/-- The endpoint `aa` at offset 0, to become `bb`. -/
def doubledPlan : PatchPlan where
  metadataPath := [m]
  sourceEndpoint := [97, 97]
  targetEndpoint := [98, 98]
  expectedOffset := 0
  expectedOriginalSha256 := threeSha256
  expectedPatchedSha256 := threePatchedSha256
  equalLength := rfl
  nonempty := by decide
  original := by decide +kernel
  patched := by decide +kernel

def threeHost : Host where
  cwd := []
  sha256 data :=
    if data = [97, 97, 97] then threeSha256
    else if data = [98, 98, 97] then threePatchedSha256
    else []
  dumps _ := markerText
  loads _ := .error .jsonDecodeError

/-- The metadata file `aaa`. -/
def threeDisk : Disk where
  entries := [([], .directory), ([m], .file [97, 97, 97])]
  nodup := by decide +kernel
  rooted := by decide +kernel
  root := by decide +kernel

end Sample

/-- In `aaa` the endpoint `aa` is counted once and stands at 0 and at 1. -/
theorem verifyMetadataBytes_accepts_overlapping :
    verifyMetadataBytes Sample.threeHost Sample.threeDisk [Sample.m] Sample.doubledPlan
        Sample.doubledPlan.expectedOriginalSha256 1 0 = .ok () ∧
      ¬ ∃ data, Sample.threeDisk.readBytes (down [Sample.m]) = .ok data ∧
        EndpointsAt data Sample.doubledPlan.sourceEndpoint Sample.doubledPlan.targetEndpoint
          Sample.doubledPlan.expectedOffset := by
  have hread : Sample.threeDisk.readBytes (down [Sample.m]) = .ok [97, 97, 97] := by
    decide +kernel
  refine ⟨by decide +kernel, ?_⟩
  intro hall
  obtain ⟨data, hdata, honly, -⟩ := hall
  obtain rfl := Except.ok.inj (hread.symm.trans hdata)
  have hsecond : OccursAt Sample.doubledPlan.sourceEndpoint [97, 97, 97] 1 :=
    ⟨[], rfl⟩
  have hzero := (honly 1).mp hsecond
  cases hzero

end Army3
