import Army3.Tools.NullPointers

/-! When the inspection of a client follows no null pointer. -/

namespace Army3

open Traced

section

variable {image : Image} {moduleBase : Nat} {s : StaticFields} {p : Pointers}

/-! The stages of each dictionary of the report. -/

theorem every_areaRecordFields (h : p.areaRecord ≠ 0) :
    Every NotNull (areaRecordFields image p) := by
  refine every_dict ?_
  simp only [List.forall_mem_cons]
  exact ⟨every_intField.mpr h, every_natField.mpr h, every_intField.mpr h, every_natField.mpr h,
    every_stringField.mpr h, every_natField.mpr h, List.forall_mem_nil _⟩

/-- The fields of the current screen are read whether there is one or not. -/
theorem every_currentScreenFields :
    Every NotNull (currentScreenFields image p) ↔ p.currentScreen ≠ 0 := by
  constructor
  · intro hevery
    have hentries := every_map.mp hevery
    exact every_natField.mp (every_map.mp (every_bind.mp hentries).1)
  · intro h
    refine every_dict ?_
    simp only [List.forall_mem_cons]
    exact ⟨every_natField.mpr h, every_intField.mpr h, every_natField.mpr h, every_floatField.mpr h,
      every_natField.mpr h, List.forall_mem_nil _⟩

theorem every_controls :
    Every NotNull (controls image p) ↔
      (p.currentScreen = p.c4TargetScreen → ControlsPresent image p.currentScreen) := by
  unfold controls
  by_cases htarget : p.currentScreen = p.c4TargetScreen
  · rw [if_pos htarget, every_screenControls, forall_prop_of_true htarget]
  · rw [if_neg htarget]
    exact iff_of_true every_pure fun h => absurd h htarget

theorem staged_uiManager (inputDialogActivation currentActivation : Nat) (currentType : PyValue) :
    Staged NotNull
      (uiManager image moduleBase p inputDialogActivation currentActivation currentType)
      (uiManagerStages image p) := by
  refine staged_dict ?_
  refine staged_entries_quiet staged_pure ?_
  refine staged_entries_quiet staged_pure ?_
  refine staged_entries_quiet staged_pure ?_
  refine staged_entries_quiet staged_pure ?_
  refine staged_entries_single every_objectType ?_
  refine staged_entries_quiet staged_pure ?_
  refine staged_entries_quiet staged_pure ?_
  refine staged_entries_quiet staged_pure ?_
  refine staged_entries_single every_objectType ?_
  refine staged_entries_quiet staged_pure ?_
  refine staged_entries_quiet staged_pure ?_
  refine staged_entries_quiet staged_pure ?_
  refine staged_entries_quiet staged_pure ?_
  refine staged_entries_quiet staged_pure ?_
  refine staged_entries_single every_objectType ?_
  refine staged_entries_quiet staged_pure ?_
  refine staged_entries_single every_objectType ?_
  refine staged_entries_quiet staged_pure ?_
  refine staged_entries_single every_objectType ?_
  refine staged_entries_quiet staged_pure ?_
  refine staged_entries_single every_objectType ?_
  refine staged_entries_quiet staged_pure ?_
  refine staged_entries_single every_objectType ?_
  refine staged_entries_guarded (every_unlessNull every_areaRecordFields) ?_
  refine staged_entries_quiet staged_pure ?_
  refine staged_entries_single every_objectType ?_
  refine staged_entries_quiet staged_pure ?_
  refine staged_entries_quiet staged_pure ?_
  refine staged_entries_single every_controls ?_
  refine staged_entries_single every_currentScreenFields ?_
  exact staged_collect_nil

variable (blocks : StaticBlocks image moduleBase s)

include blocks

theorem staged_bootstrapFlags :
    Staged NotNull (bootstrapFlags image s) [] := by
  refine staged_dict ?_
  refine staged_entries_quiet (blocks.flags.natField (by decide)) ?_
  refine staged_entries_quiet (blocks.flags.natField (by decide)) ?_
  refine staged_entries_quiet (blocks.flags.natField (by decide)) ?_
  refine staged_entries_quiet (blocks.flags.intField (by decide)) ?_
  refine staged_entries_quiet (blocks.flags.intField (by decide)) ?_
  exact staged_collect_nil

theorem staged_uiState (bootstrapActivation : Nat) :
    Staged NotNull (uiState image moduleBase s p bootstrapActivation) (uiStateStages image p) := by
  refine staged_dict ?_
  refine staged_entries_quiet (blocks.ui.intField (by decide)) ?_
  refine staged_entries_quiet (blocks.ui.natField (by decide)) ?_
  refine staged_entries_quiet staged_pure ?_
  refine staged_entries_single every_objectType ?_
  refine staged_entries_quiet staged_pure ?_
  refine staged_entries_quiet staged_pure ?_
  exact staged_collect_nil

theorem every_assetType :
    Every NotNull (assetType image s) ↔ ClassPresent image (stored image s.postLoading 0x20) := by
  have hasset : (pointer image s.postLoading 0x20).result =
      .ok (stored image s.postLoading 0x20) := blocks.postLoading.pointer_ok (by decide)
  exact (staged_bind_quiet (every_pointer.mpr blocks.postLoading.notNull) hasset
    (staged_single every_objectType)).every.trans (by simp only [Held, implies_true, and_true])

theorem staged_postLoading :
    Staged NotNull (postLoading image s) (postLoadingStages image s) := by
  refine staged_dict ?_
  refine staged_entries_quiet (blocks.postLoading.pointerField (by decide)) ?_
  refine staged_entries_single (every_assetType blocks) ?_
  refine staged_entries_quiet (blocks.postLoading.pointerField (by decide)) ?_
  refine staged_entries_guarded (every_stringField.mpr blocks.postLoading.notNull) ?_
  refine staged_entries_guarded (every_stringField.mpr blocks.postLoading.notNull) ?_
  refine staged_entries_guarded (every_stringField.mpr blocks.postLoading.notNull) ?_
  refine staged_entries_quiet (blocks.postLoading.natField (by decide)) ?_
  exact staged_collect_nil

theorem staged_networkState :
    Staged NotNull (networkState image s) [] := by
  refine staged_dict ?_
  refine staged_entries_quiet (blocks.networkState.intField (by decide)) ?_
  refine staged_entries_quiet (blocks.networkState.intField (by decide)) ?_
  refine staged_entries_quiet (blocks.networkState.intField (by decide)) ?_
  refine staged_entries_quiet (blocks.networkState.intField (by decide)) ?_
  exact staged_collect_nil

theorem staged_wwwHelper :
    Staged NotNull (wwwHelper image s) [] := by
  refine staged_dict ?_
  refine staged_entries_quiet (blocks.wwwHelper.pointerField (by decide)) ?_
  refine staged_entries_quiet (blocks.wwwHelper.pointerField (by decide)) ?_
  exact staged_collect_nil

omit blocks in
theorem staged_accountState :
    Staged NotNull (accountState image p) (accountStateStages image p) := by
  refine staged_dict ?_
  refine staged_entries_quiet staged_pure ?_
  refine staged_entries_single every_objectType ?_
  refine staged_entries_guarded (every_unlessNull every_intField.mpr) ?_
  exact staged_collect_nil

theorem staged_accountMenuData :
    Staged NotNull (accountMenuData image s p) (accountMenuDataStages image p) := by
  refine staged_dict ?_
  refine staged_entries_quiet (blocks.accountMenuData.intField (by decide)) ?_
  refine staged_entries_quiet (blocks.accountMenuData.intField (by decide)) ?_
  refine staged_entries_quiet (blocks.accountMenuData.intField (by decide)) ?_
  refine staged_entries_quiet staged_pure ?_
  refine staged_entries_guarded (every_unlessNull every_intField.mpr) ?_
  refine staged_entries_quiet staged_pure ?_
  refine staged_entries_guarded (every_unlessNull every_intField.mpr) ?_
  exact staged_collect_nil

theorem staged_fileIo :
    Staged NotNull (fileIo image s p) (fileIoStages image s p) := by
  refine staged_dict ?_
  refine staged_entries_quiet (blocks.fileIo.intField (by decide)) ?_
  refine staged_entries_quiet staged_pure ?_
  refine staged_entries_guarded (every_unlessNull every_intField.mpr) ?_
  refine staged_entries_guarded (every_stringField.mpr blocks.fileIo.notNull) ?_
  exact staged_collect_nil

theorem staged_itemData :
    Staged NotNull (itemData image s p) (itemDataStages image p) := by
  refine staged_dict ?_
  refine staged_entries_quiet staged_pure ?_
  refine staged_entries_single every_objectType ?_
  refine staged_entries_guarded (every_unlessNull every_intField.mpr) ?_
  refine staged_entries_quiet staged_pure ?_
  refine staged_entries_single every_objectType ?_
  refine staged_entries_guarded (every_unlessNull every_intField.mpr) ?_
  refine staged_entries_quiet (blocks.flags.intField (by decide)) ?_
  exact staged_collect_nil

omit blocks in
theorem LocalizationRead.notNull {fields : Nat} {textId : Int} {access : Access}
    (h : LocalizationRead image fields textId access) (hfields : fields ≠ 0) : NotNull access := by
  cases h with
  | field array => exact hfields
  | length array address pointerAt notNull => exact notNull
  | element array address offset length stored after before => exact stored.notNull
  | cachedLength cache cached length stored => exact stored.notNull
  | cachedText cache cached size length stored => exact stored.notNull

theorem every_e4Localization : Every NotNull (e4Localization image s) := by
  refine every_dict fun entry hentry => ?_
  obtain ⟨textId, -, rfl⟩ := List.mem_map.mp hentry
  refine every_map.mpr (every_localizationText.mono fun access haccess => ?_)
  exact haccess.notNull blocks.localization.notNull

theorem staged_report (pid : Int)
    (bootstrapActivation inputDialogActivation currentActivation : Nat) (currentType : PyValue) :
    Staged NotNull
      (report image moduleBase s p pid bootstrapActivation inputDialogActivation currentActivation
        currentType) (reportStages image s p) := by
  refine staged_dict ?_
  refine staged_entries_quiet staged_pure ?_
  refine staged_entries_quiet staged_pure ?_
  refine staged_entries_quiet (staged_bootstrapFlags blocks) ?_
  refine staged_entries_cons (staged_uiState blocks bootstrapActivation) ?_
  refine staged_entries_cons
    (staged_uiManager inputDialogActivation currentActivation currentType) ?_
  refine staged_entries_cons (staged_postLoading blocks) ?_
  refine staged_entries_quiet (staged_networkState blocks) ?_
  refine staged_entries_quiet (staged_wwwHelper blocks) ?_
  refine staged_entries_cons staged_accountState ?_
  refine staged_entries_cons (staged_accountMenuData blocks) ?_
  refine staged_entries_cons (staged_fileIo blocks) ?_
  refine staged_entries_cons (staged_itemData blocks) ?_
  refine staged_entries_guarded (every_e4Localization blocks) ?_
  exact staged_collect_nil

omit blocks in
/-- A checked pointer is the stored one. -/
theorem pointerUnlessNull_ok {base offset value : Nat}
    (h : (pointerUnlessNull image base offset).result = .ok value) :
    value = if base ≠ 0 then stored image base offset else 0 := by
  unfold pointerUnlessNull at h
  by_cases hnull : base ≠ 0
  · rw [if_pos hnull] at h ⊢
    rw [stored, result_pointer_eq_ok.mp h]
    rfl
  · rw [if_neg hnull] at h ⊢
    exact (result_pure_eq_ok.mp h).symm

theorem staged_inspectFields (pid : Int) :
    Staged NotNull (inspectFields image moduleBase s pid) (inspectStages image s) := by
  unfold inspectFields inspectStages
  refine staged_bind_quiet (every_pointer.mpr blocks.ui.notNull)
    (blocks.ui.pointer_ok (by decide)) ?_
  refine staged_bind_single every_virtualMethod fun bootstrapActivation _ => ?_
  refine staged_bind_quiet (every_pointer.mpr blocks.uiManager.notNull)
    (blocks.uiManager.pointer_ok (by decide)) ?_
  refine staged_bind_quiet (every_pointer.mpr blocks.uiManager.notNull)
    (blocks.uiManager.pointer_ok (by decide)) ?_
  refine staged_bind_quiet (every_pointer.mpr blocks.uiManager.notNull)
    (blocks.uiManager.pointer_ok (by decide)) ?_
  refine staged_bind_quiet (every_pointer.mpr blocks.uiManager.notNull)
    (blocks.uiManager.pointer_ok (by decide)) ?_
  refine staged_bind_quiet (every_pointer.mpr blocks.uiManager.notNull)
    (blocks.uiManager.pointer_ok (by decide)) ?_
  refine staged_bind_quiet (every_pointer.mpr blocks.uiManager.notNull)
    (blocks.uiManager.pointer_ok (by decide)) ?_
  refine staged_bind_quiet (every_pointer.mpr blocks.uiManager.notNull)
    (blocks.uiManager.pointer_ok (by decide)) ?_
  refine staged_bind_quiet (every_pointer.mpr blocks.uiManager.notNull)
    (blocks.uiManager.pointer_ok (by decide)) ?_
  refine staged_bind_quiet (every_pointer.mpr blocks.uiManager.notNull)
    (blocks.uiManager.pointer_ok (by decide)) ?_
  refine staged_bind_quiet (every_pointer.mpr blocks.uiManager.notNull)
    (blocks.uiManager.pointer_ok (by decide)) ?_
  refine staged_bind_single every_objectType fun currentType _ => ?_
  refine staged_bind_single every_virtualMethod fun currentActivation _ => ?_
  refine staged_bind_single every_virtualMethod fun inputDialogActivation _ => ?_
  refine staged_bind_single (iff_true_intro every_pointerUnlessNull) fun areaRecord harea => ?_
  obtain rfl := pointerUnlessNull_ok harea
  refine staged_bind_quiet (every_pointer.mpr blocks.accountState.notNull)
    (blocks.accountState.pointer_ok (by decide)) ?_
  refine staged_bind_quiet (every_pointer.mpr blocks.accountMenuData.notNull)
    (blocks.accountMenuData.pointer_ok (by decide)) ?_
  refine staged_bind_quiet (every_pointer.mpr blocks.accountMenuData.notNull)
    (blocks.accountMenuData.pointer_ok (by decide)) ?_
  refine staged_bind_quiet (every_pointer.mpr blocks.fileIo.notNull)
    (blocks.fileIo.pointer_ok (by decide)) ?_
  refine staged_bind_quiet (every_pointer.mpr blocks.flags.notNull)
    (blocks.flags.pointer_ok (by decide)) ?_
  refine staged_bind_quiet (every_pointer.mpr blocks.itemTemplates.notNull)
    (blocks.itemTemplates.pointer_ok (by decide)) ?_
  refine staged_bind_single (iff_true_intro every_pointerUnlessNull) fun itemHashtable hitem => ?_
  obtain rfl := pointerUnlessNull_ok hitem
  exact staged_report blocks pid bootstrapActivation inputDialogActivation currentActivation
    currentType

theorem readStaticFields_ok : (readStaticFields image moduleBase).result = .ok s := by
  simp only [readStaticFields, result_bind_eq_ok, result_pure_eq_ok]
  exact ⟨s.flags, blocks.flags.staticFields_ok, s.ui, blocks.ui.staticFields_ok, s.uiManager,
    blocks.uiManager.staticFields_ok, s.postLoading, blocks.postLoading.staticFields_ok,
    s.networkState, blocks.networkState.staticFields_ok, s.wwwHelper,
    blocks.wwwHelper.staticFields_ok, s.accountState, blocks.accountState.staticFields_ok,
    s.accountMenuData, blocks.accountMenuData.staticFields_ok, s.fileIo,
    blocks.fileIo.staticFields_ok, s.itemTemplates, blocks.itemTemplates.staticFields_ok,
    s.localization, blocks.localization.staticFields_ok, rfl⟩

omit blocks in
theorem every_readStaticFields (hmodule : moduleBase ≠ 0) :
    Every NotNull (readStaticFields image moduleBase) := by
  have hclass (typeinfoRva : Nat) : Every NotNull (staticFields image moduleBase typeinfoRva) :=
    every_staticFields hmodule
  unfold readStaticFields
  refine every_bind.mpr ⟨hclass _, fun flags _ => ?_⟩
  refine every_bind.mpr ⟨hclass _, fun ui _ => ?_⟩
  refine every_bind.mpr ⟨hclass _, fun uiManager _ => ?_⟩
  refine every_bind.mpr ⟨hclass _, fun postLoading _ => ?_⟩
  refine every_bind.mpr ⟨hclass _, fun networkState _ => ?_⟩
  refine every_bind.mpr ⟨hclass _, fun wwwHelper _ => ?_⟩
  refine every_bind.mpr ⟨hclass _, fun accountState _ => ?_⟩
  refine every_bind.mpr ⟨hclass _, fun accountMenuData _ => ?_⟩
  refine every_bind.mpr ⟨hclass _, fun fileIo _ => ?_⟩
  refine every_bind.mpr ⟨hclass _, fun itemTemplates _ => ?_⟩
  exact every_map.mpr (hclass _)

omit blocks in
theorem gameAssemblyBase_ok (hmodule : moduleBase ≠ 0) :
    (gameAssemblyBase (some moduleBase)).result = .ok moduleBase := by
  simp only [gameAssemblyBase, result_bind_eq_ok, result_raiseIf_eq_ok, result_pure_eq_ok]
  exact ⟨(), hmodule, trivial⟩

omit blocks in
theorem every_gameAssemblyBase {loaded : Option Nat} : Every NotNull (gameAssemblyBase loaded) := by
  cases loaded with
  | none => exact every_raise
  | some base => exact every_map.mpr every_raiseIf

/-- No address is computed from a null pointer exactly when, as far as the inspection gets, the
objects that it names have a class, there is a current screen, and the controls that it follows are
there. -/
theorem inspect_notNull_iff (pid : Int) (hmodule : moduleBase ≠ 0) :
    Every NotNull (inspect image pid (some moduleBase)) ↔ Held (inspectStages image s) := by
  have hbase := gameAssemblyBase_ok hmodule
  have hstatic := readStaticFields_ok blocks
  exact (staged_bind_quiet every_gameAssemblyBase hbase
    (staged_bind_quiet (every_readStaticFields hmodule) hstatic
      (staged_inspectFields blocks pid))).every

end

/-! A client that has just started: its classes are known, and no object has been created yet. -/

/-- The type-info pointer of a class, and the pointer to its static fields. -/
def earlyClass (index : UInt8) (typeinfoRva : Nat) : List (UInt64 × Bytes) :=
  [(UInt64.ofNat (0x10000000 + typeinfoRva), [0, 16 * index, 0, 0x20, 0, 0, 0, 0]),
    (0x200000A0 + 0x1000 * index.toUInt64, [0, 16 * index, 0, 0x40, 0, 0, 0, 0])]

def earlyImage : Image := fun address =>
  if 0x40000000 ≤ address.toNat ∧ address.toNat < 0x40010000 then some 0
  else Image.ofBlocks (
    earlyClass 0 bootstrapFlagsTypeinfoRva ++
    earlyClass 1 uiStateTypeinfoRva ++
    earlyClass 2 uiManagerTypeinfoRva ++
    earlyClass 3 postLoadingTypeinfoRva ++
    earlyClass 4 networkStateTypeinfoRva ++
    earlyClass 5 wwwHelperTypeinfoRva ++
    earlyClass 6 accountStateTypeinfoRva ++
    earlyClass 7 accountMenuDataTypeinfoRva ++
    earlyClass 8 fileIoTypeinfoRva ++
    earlyClass 9 itemTemplatesTypeinfoRva ++
    earlyClass 10 localizationTypeinfoRva) address

def earlyFields : StaticFields where
  flags := 0x40000000
  ui := 0x40001000
  uiManager := 0x40002000
  postLoading := 0x40003000
  networkState := 0x40004000
  wwwHelper := 0x40005000
  accountState := 0x40006000
  accountMenuData := 0x40007000
  fileIo := 0x40008000
  itemTemplates := 0x40009000
  localization := 0x4000A000

theorem earlyImage_mapped {fields extent : Nat} (hlow : 0x40000000 ≤ fields)
    (hhigh : fields + extent ≤ 0x40010000) :
    ∀ index < extent, ∃ byte, earlyImage (UInt64.ofNat (fields + index)) = some byte := by
  intro index hindex
  have haddress : (UInt64.ofNat (fields + index)).toNat = fields + index :=
    UInt64.toNat_ofNat_of_lt' (show fields + index < 2 ^ 64 by omega)
  refine ⟨0, if_pos ?_⟩
  rw [haddress]
  omega

theorem earlyImage_blocks : StaticBlocks earlyImage 0x10000000 earlyFields where
  flags :=
    ⟨⟨0x20000000, by decide, rfl, rfl⟩, by decide, earlyImage_mapped (by decide) (by decide)⟩
  ui :=
    ⟨⟨0x20001000, by decide, rfl, rfl⟩, by decide, earlyImage_mapped (by decide) (by decide)⟩
  uiManager :=
    ⟨⟨0x20002000, by decide, rfl, rfl⟩, by decide, earlyImage_mapped (by decide) (by decide)⟩
  postLoading :=
    ⟨⟨0x20003000, by decide, rfl, rfl⟩, by decide, earlyImage_mapped (by decide) (by decide)⟩
  networkState :=
    ⟨⟨0x20004000, by decide, rfl, rfl⟩, by decide, earlyImage_mapped (by decide) (by decide)⟩
  wwwHelper :=
    ⟨⟨0x20005000, by decide, rfl, rfl⟩, by decide, earlyImage_mapped (by decide) (by decide)⟩
  accountState :=
    ⟨⟨0x20006000, by decide, rfl, rfl⟩, by decide, earlyImage_mapped (by decide) (by decide)⟩
  accountMenuData :=
    ⟨⟨0x20007000, by decide, rfl, rfl⟩, by decide, earlyImage_mapped (by decide) (by decide)⟩
  fileIo :=
    ⟨⟨0x20008000, by decide, rfl, rfl⟩, by decide, earlyImage_mapped (by decide) (by decide)⟩
  itemTemplates :=
    ⟨⟨0x20009000, by decide, rfl, rfl⟩, by decide, earlyImage_mapped (by decide) (by decide)⟩
  localization :=
    ⟨⟨0x2000A000, by decide, rfl, rfl⟩, by decide, earlyImage_mapped (by decide) (by decide)⟩

theorem inspect_notNull_iff_early :
    Every NotNull (inspect earlyImage 1 (some 0x10000000)) ↔
      Held (inspectStages earlyImage earlyFields) :=
  inspect_notNull_iff earlyImage_blocks 1 (by decide)

/-- Without a current screen, which is then the target screen as well, the inspection reads at a
null pointer and fails. -/
theorem inspect_follows_null :
    StaticBlocks earlyImage 0x10000000 earlyFields ∧
      ¬ Every NotNull (inspect earlyImage 1 (some 0x10000000)) ∧
      (inspect earlyImage 1 (some 0x10000000)).result =
        .error (.lastError (PyStr.lit "ReadProcessMemory at 0x30")) := by
  refine ⟨earlyImage_blocks, fun hevery => ?_, rfl⟩
  have hnull : ⟨0, 0x30, 8⟩ ∈ (inspect earlyImage 1 (some 0x10000000)).trace := by decide
  exact hevery ⟨0, 0x30, 8⟩ hnull rfl

end Army3
