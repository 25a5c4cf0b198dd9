import Army3.Tools.InspectRuntime

/-! Which pointers of a client the inspector follows without a check. -/

namespace Army3

open Traced

/-- The address is computed from a pointer that is not null. -/
def NotNull (access : Access) : Prop := access.base ≠ 0

section

variable (image : Image)

/-- The class of a type is known to the client: its static fields lie at `fields`, the first
`extent` bytes of them mapped. -/
structure StaticBlock (moduleBase typeinfoRva fields extent : Nat) : Prop where
  typeinfo : ∃ typeinfo, typeinfo ≠ 0 ∧
    image.unsigned? (moduleBase + typeinfoRva) 8 = some typeinfo ∧
    image.unsigned? (typeinfo + 0xA0) 8 = some fields
  notNull : fields ≠ 0
  mapped : ∀ index < extent, ∃ byte, image (UInt64.ofNat (fields + index)) = some byte

/-- All the classes that are looked at are known, with the static fields that are looked at. -/
structure StaticBlocks (moduleBase : Nat) (s : StaticFields) : Prop where
  flags : StaticBlock image moduleBase bootstrapFlagsTypeinfoRva s.flags 0x305
  ui : StaticBlock image moduleBase uiStateTypeinfoRva s.ui 0x41
  uiManager : StaticBlock image moduleBase uiManagerTypeinfoRva s.uiManager 0xD8
  postLoading : StaticBlock image moduleBase postLoadingTypeinfoRva s.postLoading 0x85
  networkState : StaticBlock image moduleBase networkStateTypeinfoRva s.networkState 0x20
  wwwHelper : StaticBlock image moduleBase wwwHelperTypeinfoRva s.wwwHelper 0x10
  accountState : StaticBlock image moduleBase accountStateTypeinfoRva s.accountState 0x38
  accountMenuData :
    StaticBlock image moduleBase accountMenuDataTypeinfoRva s.accountMenuData 0x78
  fileIo : StaticBlock image moduleBase fileIoTypeinfoRva s.fileIo 0x18
  itemTemplates : StaticBlock image moduleBase itemTemplatesTypeinfoRva s.itemTemplates 0x8
  localization : StaticBlock image moduleBase localizationTypeinfoRva s.localization 0x20

/-- The pointer at an address. -/
def stored (base offset : Nat) : Nat := (image.unsigned? (base + offset) 8).getD 0

/-- An object, when there is one, does not have a null class. -/
def ClassPresent (object : Nat) : Prop := object ≠ 0 → image.unsigned? object 8 ≠ some 0

/-! The stages of the inspection that may stop it, or follow a null pointer. -/

def classOf (object : Nat) : Stage :=
  ⟨ClassPresent image object, Returns (objectType image object)⟩

def methodOf (object : Nat) : Stage :=
  ⟨ClassPresent image object, Returns (virtualMethod image object 0x1A8)⟩

/-- What is read through a pointer that has been checked. -/
def guarded {α : Type} (x : Reading α) : Stage := ⟨True, Returns x⟩

def controlStages (array count : Nat) : List Stage := (List.range count).map fun index =>
  ⟨image.unsigned? (array + (0x20 + index * 8)) 8 ≠ some 0,
    Returns (screenControl image array index)⟩

/-- The screen is there, and so is each control of its array that is reached. -/
def ControlsPresent (screen : Nat) : Prop :=
  screen ≠ 0 ∧ ∀ array count, image.unsigned? (screen + 0x30) 8 = some array → array ≠ 0 →
    image.signed? (array + 0x18) 4 = some count → 0 ≤ count → count ≤ 8 →
    Held (controlStages image array count.toNat)

variable (s : StaticFields) (p : Pointers)

def uiStateStages : List Stage := [classOf image p.bootstrapUi]

def uiManagerStages : List Stage :=
  [classOf image p.inputDialogScreen,
    classOf image p.uiScreen60,
    classOf image p.uiAux88,
    classOf image p.uiAux98,
    classOf image p.uiOverlayA0,
    classOf image p.areaScreen,
    classOf image p.areaRecord,
    guarded (unlessNull p.areaRecord (areaRecordFields image p)),
    classOf image p.uiAuxD0,
    ⟨p.currentScreen = p.c4TargetScreen → ControlsPresent image p.currentScreen,
      Returns (controls image p)⟩,
    ⟨p.currentScreen ≠ 0, Returns (currentScreenFields image p)⟩]

def postLoadingStages : List Stage :=
  [⟨ClassPresent image (stored image s.postLoading 0x20), Returns (assetType image s)⟩,
    guarded (stringField image s.postLoading 0x40),
    guarded (stringField image s.postLoading 0x48),
    guarded (stringField image s.postLoading 0x50)]

def accountStateStages : List Stage :=
  [classOf image p.selectedProfile,
    guarded (unlessNull p.selectedProfile (intField image p.selectedProfile 0x358 4))]

def accountMenuDataStages : List Stage :=
  [guarded (unlessNull p.accountMenuEntries (intField image p.accountMenuEntries 0x18 4)),
    guarded
      (unlessNull p.accountMenuActiveValues (intField image p.accountMenuActiveValues 0x18 4))]

def fileIoStages : List Stage :=
  [guarded (unlessNull p.fileBuffer (intField image p.fileBuffer 0x18 4)),
    guarded (stringField image s.fileIo 0x10)]

def itemDataStages : List Stage :=
  [classOf image p.itemGroups,
    guarded (unlessNull p.itemGroups (intField image p.itemGroups 0x18 4)),
    classOf image p.itemDictionary,
    guarded (unlessNull p.itemHashtable (intField image p.itemHashtable 0x18 4))]

def reportStages : List Stage :=
  uiStateStages image p ++ (uiManagerStages image p ++ (postLoadingStages image s ++
    (accountStateStages image p ++ (accountMenuDataStages image p ++ (fileIoStages image s p ++
      (itemDataStages image p ++ [guarded (e4Localization image s)]))))))

/-- The pointers as the client has stored them. -/
def storedPointers : Pointers :=
  let areaScreen := stored image s.uiManager 0xA8
  let itemDictionary := stored image s.itemTemplates 0
  { bootstrapUi := stored image s.ui 0x20
    currentScreen := stored image s.uiManager 0x50
    splashScreen := stored image s.uiManager 0x58
    c4TargetScreen := stored image s.uiManager 0x70
    inputDialogScreen := stored image s.uiManager 0x80
    uiAux88 := stored image s.uiManager 0x88
    uiAux98 := stored image s.uiManager 0x98
    uiOverlayA0 := stored image s.uiManager 0xA0
    areaScreen := areaScreen
    uiScreen60 := stored image s.uiManager 0x60
    uiAuxD0 := stored image s.uiManager 0xD0
    areaRecord := if areaScreen ≠ 0 then stored image areaScreen 0x230 else 0
    selectedProfile := stored image s.accountState 0x30
    accountMenuEntries := stored image s.accountMenuData 0x48
    accountMenuActiveValues := stored image s.accountMenuData 0x70
    fileBuffer := stored image s.fileIo 0x8
    itemGroups := stored image s.flags 0x20
    itemDictionary := itemDictionary
    itemHashtable := if itemDictionary ≠ 0 then stored image itemDictionary 0x10 else 0 }

def inspectStages : List Stage :=
  let p := storedPointers image s
  methodOf image p.bootstrapUi :: classOf image p.currentScreen ::
    methodOf image p.currentScreen :: methodOf image p.inputDialogScreen ::
    guarded (pointerUnlessNull image p.areaScreen 0x230) ::
    guarded (pointerUnlessNull image p.itemDictionary 0x10) :: reportStages image s p

end

section

variable {image : Image} {base offset size pointed : Nat} {x : Reading PyValue} {holds : Prop}

/-! Through a pointer that is not null, a field may be read. -/

theorem every_intField : Every NotNull (intField image base offset size) ↔ base ≠ 0 :=
  every_map.trans every_signed

theorem every_natField : Every NotNull (natField image base offset size) ↔ base ≠ 0 :=
  every_map.trans every_unsigned

theorem every_floatField : Every NotNull (floatField image base offset) ↔ base ≠ 0 :=
  every_map.trans every_unsigned

/-- The text of a managed string is read only if there is one. -/
theorem every_stringField : Every NotNull (stringField image base offset) ↔ base ≠ 0 := by
  unfold stringField
  rw [every_bind, every_pointer]
  exact and_iff_left fun _ _ => every_map.mpr (every_managedString id fun _ => id)

theorem every_unlessNull (h : pointed ≠ 0 → Every NotNull x) :
    Every NotNull (unlessNull pointed x) := every_ite h fun _ => every_pure

theorem every_pointerUnlessNull : Every NotNull (pointerUnlessNull image base offset) :=
  every_ite (fun hnull => every_pointer.mpr hnull) fun _ => every_pure

/-- A pointer that is read and then followed without a check. -/
theorem every_follow {α : Type} {f : Nat → Reading α} (hbase : base ≠ 0)
    (hnull : ¬ Every NotNull (f 0)) (hf : ∀ value, value ≠ 0 → Every NotNull (f value)) :
    Every NotNull (pointer image base offset >>= f) ↔
      image.unsigned? (base + offset) 8 ≠ some 0 := by
  rw [every_bind, every_pointer]
  constructor
  · intro hevery hzero
    exact hnull (hevery.2 0 (result_pointer_eq_ok.mpr hzero))
  · intro hpresent
    refine ⟨hbase, fun value hvalue => hf value ?_⟩
    rintro rfl
    exact hpresent (result_pointer_eq_ok.mp hvalue)

theorem every_objectType :
    Every NotNull (objectType image pointed) ↔ ClassPresent image pointed := by
  refine every_pure_unless.trans (forall_congr' fun hobject => every_follow hobject ?_ ?_)
  · intro hevery
    exact every_pointer.mp (every_bind.mp hevery).1 rfl
  · intro klass hclass
    refine every_bind.mpr ⟨every_pointer.mpr hclass, fun name _ => ?_⟩
    refine every_bind.mpr ⟨every_pointer.mpr hclass, fun space _ => ?_⟩
    exact every_bind.mpr ⟨every_cString id, fun _ _ => every_map.mpr (every_cString id)⟩

theorem every_virtualMethod :
    Every NotNull (virtualMethod image pointed offset) ↔ ClassPresent image pointed := by
  refine every_pure_unless.trans (forall_congr' fun hobject => every_follow hobject ?_ ?_)
  · intro hevery
    exact every_pointer.mp hevery rfl
  · intro klass hclass
    exact every_pointer.mpr hclass

/-- The pointer to a control is followed without a check. -/
theorem every_screenControl {array index : Nat} (harray : array ≠ 0) :
    Every NotNull (screenControl image array index) ↔
      image.unsigned? (array + (0x20 + index * 8)) 8 ≠ some 0 := by
  refine every_follow harray ?_ ?_
  · intro hevery
    exact every_stringField.mp (every_bind.mp hevery).1 rfl
  · intro control hnull
    refine every_bind.mpr ⟨every_stringField.mpr hnull, fun _ _ => ?_⟩
    refine every_bind.mpr ⟨every_intField.mpr hnull, fun _ _ => ?_⟩
    refine every_bind.mpr ⟨every_intField.mpr hnull, fun _ _ => ?_⟩
    refine every_bind.mpr ⟨every_intField.mpr hnull, fun _ _ => ?_⟩
    exact every_map.mpr (every_intField.mpr hnull)

theorem every_controls_of_array {array count : Nat} (harray : array ≠ 0) :
    Every NotNull (collect (screenControl image array) (List.range count)) ↔
      Held (controlStages image array count) := by
  unfold controlStages
  rw [List.map_eq_flatMap]
  exact (staged_collect fun index _ => staged_single (every_screenControl harray)).every

theorem every_screenControls {screen : Nat} :
    Every NotNull (screenControls image screen) ↔ ControlsPresent image screen := by
  unfold screenControls ControlsPresent
  rw [every_bind, every_pointer]
  refine and_congr_right fun hscreen => ⟨?_, ?_⟩
  · intro hevery array count hat hnull hcountAt hlow hhigh
    have harray := hevery array (result_pointer_eq_ok.mpr hat)
    rw [if_neg hnull] at harray
    have hcount := (every_bind.mp harray).2 count (result_signed_eq_ok.mpr hcountAt)
    rw [if_neg (by omega)] at hcount
    exact (every_controls_of_array hnull).mp (every_map.mp hcount)
  · intro hpresent array harray
    refine every_ite (fun _ => every_pure) fun hnull => ?_
    refine every_bind.mpr ⟨every_signed.mpr hnull, fun count hcount => ?_⟩
    refine every_ite (fun _ => every_pure) fun hrange => ?_
    have hheld := hpresent array count (result_pointer_eq_ok.mp harray) hnull
      (result_signed_eq_ok.mp hcount) (by omega) (by omega)
    exact every_map.mpr ((every_controls_of_array hnull).mpr hheld)

end

section

variable {image : Image} {moduleBase typeinfoRva fields extent offset size : Nat} {key : PyStr}
  {x : Reading PyValue} {holds : Prop} {entries : List (PyStr × Reading PyValue)}
  {stages later : List Stage}

/-! The static fields can all be read. -/

theorem StaticBlock.pointer_ok (h : StaticBlock image moduleBase typeinfoRva fields extent)
    (hin : offset + 8 ≤ extent) :
    (pointer image fields offset).result = .ok (stored image fields offset) := by
  obtain ⟨raw, hraw⟩ := Image.exists_bytes h.mapped hin
  rw [result_pointer_eq_ok, stored, Image.unsigned?, hraw]
  rfl

theorem StaticBlock.unsigned (h : StaticBlock image moduleBase typeinfoRva fields extent)
    (hin : offset + size ≤ extent) : Staged NotNull (unsigned image fields offset size) [] := by
  obtain ⟨raw, hraw⟩ := Image.exists_bytes h.mapped hin
  exact staged_map (staged_quiet (every_read.mpr h.notNull) ⟨raw, result_read_eq_ok.mpr hraw⟩)

theorem StaticBlock.natField (h : StaticBlock image moduleBase typeinfoRva fields extent)
    (hin : offset + size ≤ extent) : Staged NotNull (natField image fields offset size) [] :=
  staged_map (h.unsigned hin)

theorem StaticBlock.intField (h : StaticBlock image moduleBase typeinfoRva fields extent)
    (hin : offset + size ≤ extent) : Staged NotNull (intField image fields offset size) [] :=
  staged_map (staged_map (h.unsigned hin))

theorem StaticBlock.pointerField (h : StaticBlock image moduleBase typeinfoRva fields extent)
    (hin : offset + 8 ≤ extent) : Staged NotNull (pointerField image fields offset) [] :=
  staged_map (h.unsigned hin)

theorem StaticBlock.staticFields_ok (h : StaticBlock image moduleBase typeinfoRva fields extent) :
    (staticFields image moduleBase typeinfoRva).result = .ok fields := by
  obtain ⟨typeinfo, hnull, hat, hfields⟩ := h.typeinfo
  simp only [staticFields, result_bind_eq_ok, result_raiseIf_eq_ok, result_pointer_eq_ok,
    result_pure_eq_ok]
  exact ⟨typeinfo, hat, (), hnull, fields, hfields, (), h.notNull, rfl⟩

theorem every_staticFields (hmodule : moduleBase ≠ 0) :
    Every NotNull (staticFields image moduleBase typeinfoRva) := by
  unfold staticFields
  refine every_bind.mpr ⟨every_pointer.mpr hmodule, fun typeinfo _ => ?_⟩
  refine every_bind.mpr ⟨every_raiseIf, fun _ hguard => ?_⟩
  have hnull : typeinfo ≠ 0 := result_raiseIf_eq_ok.mp hguard
  refine every_bind.mpr ⟨every_pointer.mpr hnull, fun fields _ => ?_⟩
  exact every_map.mpr every_raiseIf

/-! A dictionary has the stages of its entries. -/

theorem staged_dict (h : Staged NotNull (collect dictEntry entries) stages) :
    Staged NotNull (dict entries) stages := staged_map h

theorem staged_entries_cons (hx : Staged NotNull x stages)
    (hentries : Staged NotNull (collect dictEntry entries) later) :
    Staged NotNull (collect dictEntry ((key, x) :: entries)) (stages ++ later) :=
  staged_collect_cons (staged_map hx) hentries

theorem staged_entries_quiet (hx : Staged NotNull x [])
    (hentries : Staged NotNull (collect dictEntry entries) later) :
    Staged NotNull (collect dictEntry ((key, x) :: entries)) later :=
  staged_entries_cons hx hentries

theorem staged_entries_single (hx : Every NotNull x ↔ holds)
    (hentries : Staged NotNull (collect dictEntry entries) later) :
    Staged NotNull (collect dictEntry ((key, x) :: entries)) (⟨holds, Returns x⟩ :: later) :=
  staged_entries_cons (staged_single hx) hentries

theorem staged_entries_guarded (hx : Every NotNull x)
    (hentries : Staged NotNull (collect dictEntry entries) later) :
    Staged NotNull (collect dictEntry ((key, x) :: entries)) (guarded x :: later) :=
  staged_entries_single (iff_true_intro hx) hentries

theorem every_dict (h : ∀ entry ∈ entries, Every NotNull entry.2) : Every NotNull (dict entries) :=
  every_map.mpr (every_collect fun entry hentry => every_map.mpr (h entry hentry))

end

end Army3
