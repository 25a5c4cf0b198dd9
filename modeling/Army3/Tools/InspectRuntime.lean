import Army3.Framework.Stages
import Army3.Tools.Localization

/-! The runtime inspector: what `inspect` reads of a client, and the report that it makes of it. -/

namespace Army3

open Traced

/-- The values of the report; a float is given by its four bytes. -/
inductive PyValue where
  | none
  | bool (value : Bool)
  | int (value : Int)
  | float (bits : Nat)
  | str (text : PyStr)
  | list (items : List PyValue)
  | dict (entries : List (PyStr × PyValue))

namespace PyValue

/-- `f"0x{value:X}"` -/
def hex (value : Nat) : PyValue := .str (PyStr.hex value)

end PyValue

/-- `key: value` -/
def dictEntry (entry : PyStr × Reading PyValue) : Reading (PyStr × PyValue) := do
  let value ← entry.2
  pure (entry.1, value)

/-- A dictionary display: its values are computed one after the other. -/
def dict (entries : List (PyStr × Reading PyValue)) : Reading PyValue := do
  let values ← collect dictEntry entries
  pure (.dict values)

/-- `value if pointer else None` -/
def unlessNull (pointer : Nat) (value : Reading PyValue) : Reading PyValue :=
  if pointer ≠ 0 then value else pure .none

section

variable (image : Image) (base offset : Nat)

/-! The kinds of fields of the report. -/

def intField (size : Nat) : Reading PyValue := do
  let value ← signed image base offset size
  pure (.int value)

def natField (size : Nat) : Reading PyValue := do
  let value ← unsigned image base offset size
  pure (.int value)

def floatField : Reading PyValue := do
  let bits ← unsigned image base offset 4
  pure (.float bits)

def pointerField : Reading PyValue := do
  let value ← pointer image base offset
  pure (.hex value)

def stringField : Reading PyValue := do
  let address ← pointer image base offset
  let text ← managedString image address
  pure (.str text)

/-- `reader.pointer(base + offset) if base else 0` -/
def pointerUnlessNull : Reading Nat :=
  if base ≠ 0 then pointer image base offset else pure 0

end

section

variable (image : Image)

/-- `_object_type(reader, object_address)` -/
def objectType (objectAddress : Nat) : Reading PyValue :=
  if objectAddress = 0 then
    pure (.dict [(PyStr.lit "class", .str []), (PyStr.lit "namespace", .str [])])
  else do
    let klass ← pointer image objectAddress 0
    let name ← pointer image klass 0x10
    let space ← pointer image klass 0x18
    let nameText ← cString image name
    let spaceText ← cString image space
    pure (.dict [(PyStr.lit "class", .str nameText), (PyStr.lit "namespace", .str spaceText)])

/-- `_virtual_method(reader, object_address, slot_offset)` -/
def virtualMethod (objectAddress slotOffset : Nat) : Reading Nat :=
  if objectAddress = 0 then pure 0
  else do
    let klass ← pointer image objectAddress 0
    pointer image klass slotOffset

/-- One turn of the loop of `_screen_controls`. -/
def screenControl (array index : Nat) : Reading PyValue := do
  let control ← pointer image array (0x20 + index * 8)
  let label ← stringField image control 0x18
  let x ← intField image control 0x40 4
  let y ← intField image control 0x44 4
  let width ← intField image control 0x48 4
  let height ← intField image control 0x50 4
  pure (.dict [(PyStr.lit "index", .int index), (PyStr.lit "address", .hex control),
    (PyStr.lit "label", label), (PyStr.lit "x", x), (PyStr.lit "y", y), (PyStr.lit "width", width),
    (PyStr.lit "height", height)])

/-- `_screen_controls(reader, screen_address)`, at most eight controls. -/
def screenControls (screenAddress : Nat) : Reading PyValue := do
  let array ← pointer image screenAddress 0x30
  if array = 0 then pure (.list [])
  else do
    let count ← signed image array 0x18 4
    if count < 0 ∨ 8 < count then
      pure (.list [.dict [(PyStr.lit "array", .hex array), (PyStr.lit "reported_count", .int count),
        (PyStr.lit "error",
          .str (PyStr.lit "control array layout is not confirmed for this object"))]])
    else do
      let controls ← collect (screenControl image array) (List.range count.toNat)
      pure (.list controls)

/-- `_static_fields(reader, module_base, typeinfo_rva)` -/
def staticFields (moduleBase typeinfoRva : Nat) : Reading Nat := do
  let typeinfo ← pointer image moduleBase typeinfoRva
  Traced.raiseIf (typeinfo = 0)
    (.message (PyStr.lit "null type-info pointer for RVA " ++ PyStr.hex typeinfoRva))
  let fields ← pointer image typeinfo 0xA0
  Traced.raiseIf (fields = 0)
    (.message (PyStr.lit "null static-fields pointer for RVA " ++ PyStr.hex typeinfoRva))
  pure fields

end

/-- `reader.module_base("GameAssembly.dll")`: the base of the module of that name in the list of
loaded modules, when there is one. -/
def gameAssemblyBase (loaded : Option Nat) : Reading Nat :=
  match loaded with
  | none => Traced.raise (.message (PyStr.lit "module not found: GameAssembly.dll"))
  | some base => do
    Traced.raiseIf (base = 0) (.message (PyStr.lit "null module base: GameAssembly.dll"))
    pure base

/-- The static fields of the classes that are looked at. -/
structure StaticFields where
  flags : Nat
  ui : Nat
  uiManager : Nat
  postLoading : Nat
  networkState : Nat
  wwwHelper : Nat
  accountState : Nat
  accountMenuData : Nat
  fileIo : Nat
  itemTemplates : Nat
  localization : Nat

def bootstrapFlagsTypeinfoRva : Nat := 0x14545E8
def uiStateTypeinfoRva : Nat := 0x1454500
def uiManagerTypeinfoRva : Nat := 0x1454620
def postLoadingTypeinfoRva : Nat := 0x1454550
def networkStateTypeinfoRva : Nat := 0x1454618
def wwwHelperTypeinfoRva : Nat := 0x1456030
def accountStateTypeinfoRva : Nat := 0x1454640
def accountMenuDataTypeinfoRva : Nat := 0x1454D90
def fileIoTypeinfoRva : Nat := 0x1457D00
def itemTemplatesTypeinfoRva : Nat := 0x1455B10
def localizationTypeinfoRva : Nat := 0x1454648

def e4LocalizationIds : List Nat := [0x2B9, 0x3DB, 0x609, 0x692, 0x846, 0x88E]

/-- The pointers that the report is made of. -/
structure Pointers where
  bootstrapUi : Nat
  currentScreen : Nat
  splashScreen : Nat
  c4TargetScreen : Nat
  inputDialogScreen : Nat
  uiAux88 : Nat
  uiAux98 : Nat
  uiOverlayA0 : Nat
  areaScreen : Nat
  uiScreen60 : Nat
  uiAuxD0 : Nat
  areaRecord : Nat
  selectedProfile : Nat
  accountMenuEntries : Nat
  accountMenuActiveValues : Nat
  fileBuffer : Nat
  itemGroups : Nat
  itemDictionary : Nat
  itemHashtable : Nat

/-- `f"0x{activation - module_base:X}" if activation >= module_base else ""` -/
def activationRva (moduleBase activation : Nat) : PyValue :=
  if moduleBase ≤ activation then .hex (activation - moduleBase) else .str []

section

variable (image : Image) (moduleBase : Nat) (s : StaticFields) (p : Pointers)

def bootstrapFlags : Reading PyValue := dict
  [(PyStr.lit "e1_0x188", natField image s.flags 0x188 1),
    (PyStr.lit "e0_0x189", natField image s.flags 0x189 1),
    (PyStr.lit "da_0x18a", natField image s.flags 0x18A 1),
    (PyStr.lit "c4_cached_version_0x300", intField image s.flags 0x300 4),
    (PyStr.lit "c4_revision_0x304", intField image s.flags 0x304 1)]

def uiState (bootstrapActivation : Nat) : Reading PyValue := dict
  [(PyStr.lit "countdown_0x28", intField image s.ui 0x28 2),
    (PyStr.lit "app_ready_0x40", natField image s.ui 0x40 1),
    (PyStr.lit "bootstrap_ui_instance_0x20", pure (.hex p.bootstrapUi)),
    (PyStr.lit "bootstrap_ui_type", objectType image p.bootstrapUi),
    (PyStr.lit "activation_slot_0x1a8", pure (.hex bootstrapActivation)),
    (PyStr.lit "activation_rva", pure (activationRva moduleBase bootstrapActivation))]

def areaRecordFields : Reading PyValue := dict
  [(PyStr.lit "area_id_0x10", intField image p.areaRecord 0x10 1),
    (PyStr.lit "flag_0x11", natField image p.areaRecord 0x11 1),
    (PyStr.lit "derived_0x12", intField image p.areaRecord 0x12 1),
    (PyStr.lit "flag_0x13", natField image p.areaRecord 0x13 1),
    (PyStr.lit "name_0x18", stringField image p.areaRecord 0x18),
    (PyStr.lit "money_0x30", natField image p.areaRecord 0x30 4)]

def currentScreenFields : Reading PyValue := dict
  [(PyStr.lit "phase_a_0x30", natField image p.currentScreen 0x30 1),
    (PyStr.lit "animation_index_0x34", intField image p.currentScreen 0x34 4),
    (PyStr.lit "phase_b_0x38", natField image p.currentScreen 0x38 1),
    (PyStr.lit "elapsed_0x3c", floatField image p.currentScreen 0x3C),
    (PyStr.lit "completion_fired_0x40", natField image p.currentScreen 0x40 1)]

/-- The layout of the controls is confirmed only for the target screen. -/
def controls : Reading PyValue :=
  if p.currentScreen = p.c4TargetScreen then screenControls image p.currentScreen
  else pure (.list [])

def uiManager (inputDialogActivation currentActivation : Nat) (currentType : PyValue) :
    Reading PyValue := dict
  [(PyStr.lit "current_screen_0x50", pure (.hex p.currentScreen)),
    (PyStr.lit "splash_screen_0x58", pure (.hex p.splashScreen)),
    (PyStr.lit "c4_target_screen_0x70", pure (.hex p.c4TargetScreen)),
    (PyStr.lit "input_dialog_screen_0x80", pure (.hex p.inputDialogScreen)),
    (PyStr.lit "input_dialog_screen_type", objectType image p.inputDialogScreen),
    (PyStr.lit "input_dialog_activation_slot_0x1a8", pure (.hex inputDialogActivation)),
    (PyStr.lit "input_dialog_activation_rva",
      pure (activationRva moduleBase inputDialogActivation)),
    (PyStr.lit "screen_0x60", pure (.hex p.uiScreen60)),
    (PyStr.lit "screen_0x60_type", objectType image p.uiScreen60),
    (PyStr.lit "current_is_bootstrap_ui", pure (.bool (p.currentScreen = p.bootstrapUi))),
    (PyStr.lit "current_is_splash_screen", pure (.bool (p.currentScreen = p.splashScreen))),
    (PyStr.lit "current_is_c4_target_screen", pure (.bool (p.currentScreen = p.c4TargetScreen))),
    (PyStr.lit "current_screen_type", pure currentType),
    (PyStr.lit "aux_0x88", pure (.hex p.uiAux88)),
    (PyStr.lit "aux_0x88_type", objectType image p.uiAux88),
    (PyStr.lit "aux_0x98", pure (.hex p.uiAux98)),
    (PyStr.lit "aux_0x98_type", objectType image p.uiAux98),
    (PyStr.lit "overlay_0xa0", pure (.hex p.uiOverlayA0)),
    (PyStr.lit "overlay_0xa0_type", objectType image p.uiOverlayA0),
    (PyStr.lit "area_screen_0xa8", pure (.hex p.areaScreen)),
    (PyStr.lit "area_screen_type", objectType image p.areaScreen),
    (PyStr.lit "area_record_0x230", pure (.hex p.areaRecord)),
    (PyStr.lit "area_record_type", objectType image p.areaRecord),
    (PyStr.lit "area_record_fields", unlessNull p.areaRecord (areaRecordFields image p)),
    (PyStr.lit "aux_0xd0", pure (.hex p.uiAuxD0)),
    (PyStr.lit "aux_0xd0_type", objectType image p.uiAuxD0),
    (PyStr.lit "current_activation_slot_0x1a8", pure (.hex currentActivation)),
    (PyStr.lit "current_activation_rva", pure (activationRva moduleBase currentActivation)),
    (PyStr.lit "controls", controls image p),
    (PyStr.lit "current_screen_fields", currentScreenFields image p)]

/-- The pointer to the asset is read again for its type. -/
def assetType : Reading PyValue := do
  let asset ← pointer image s.postLoading 0x20
  objectType image asset

def postLoading : Reading PyValue := dict
  [(PyStr.lit "asset_0x20", pointerField image s.postLoading 0x20),
    (PyStr.lit "asset_type", assetType image s),
    (PyStr.lit "singleton_0x28", pointerField image s.postLoading 0x28),
    (PyStr.lit "url_0x40", stringField image s.postLoading 0x40),
    (PyStr.lit "text_0x48", stringField image s.postLoading 0x48),
    (PyStr.lit "text_0x50", stringField image s.postLoading 0x50),
    (PyStr.lit "cache_hit_0x84", natField image s.postLoading 0x84 1)]

def networkState : Reading PyValue := dict
  [(PyStr.lit "constant_0x10", intField image s.networkState 0x10 4),
    (PyStr.lit "constant_0x14", intField image s.networkState 0x14 4),
    (PyStr.lit "constant_0x18", intField image s.networkState 0x18 4),
    (PyStr.lit "current_0x1c", intField image s.networkState 0x1C 4)]

def wwwHelper : Reading PyValue := dict
  [(PyStr.lit "request_0x0", pointerField image s.wwwHelper 0),
    (PyStr.lit "callback_0x8", pointerField image s.wwwHelper 0x8)]

def accountState : Reading PyValue := dict
  [(PyStr.lit "selected_profile_0x30", pure (.hex p.selectedProfile)),
    (PyStr.lit "selected_profile_type", objectType image p.selectedProfile),
    (PyStr.lit "entry_count_0x358",
      unlessNull p.selectedProfile (intField image p.selectedProfile 0x358 4))]

def accountMenuData : Reading PyValue := dict
  [(PyStr.lit "selector_0x0", intField image s.accountMenuData 0 1),
    (PyStr.lit "selector_boundary_0x3", intField image s.accountMenuData 0x3 1),
    (PyStr.lit "selected_index_0x50", intField image s.accountMenuData 0x50 4),
    (PyStr.lit "entry_array_0x48", pure (.hex p.accountMenuEntries)),
    (PyStr.lit "entry_count",
      unlessNull p.accountMenuEntries (intField image p.accountMenuEntries 0x18 4)),
    (PyStr.lit "active_values_0x70", pure (.hex p.accountMenuActiveValues)),
    (PyStr.lit "active_value_count",
      unlessNull p.accountMenuActiveValues (intField image p.accountMenuActiveValues 0x18 4))]

def fileIo : Reading PyValue := dict
  [(PyStr.lit "state_0x0", intField image s.fileIo 0 4),
    (PyStr.lit "buffer_0x8", pure (.hex p.fileBuffer)),
    (PyStr.lit "buffer_length", unlessNull p.fileBuffer (intField image p.fileBuffer 0x18 4)),
    (PyStr.lit "path_0x10", stringField image s.fileIo 0x10)]

def itemData : Reading PyValue := dict
  [(PyStr.lit "group_array_0x20", pure (.hex p.itemGroups)),
    (PyStr.lit "group_array_type", objectType image p.itemGroups),
    (PyStr.lit "group_count", unlessNull p.itemGroups (intField image p.itemGroups 0x18 4)),
    (PyStr.lit "template_dictionary", pure (.hex p.itemDictionary)),
    (PyStr.lit "template_dictionary_type", objectType image p.itemDictionary),
    (PyStr.lit "template_count",
      unlessNull p.itemHashtable (intField image p.itemHashtable 0x18 4)),
    (PyStr.lit "stored_revision_0x2f0", intField image s.flags 0x2F0 4)]

def localizationField (textId : Nat) : Reading PyValue := do
  let text ← localizationText image s.localization textId
  pure (.str text)

def e4Localization : Reading PyValue :=
  dict (e4LocalizationIds.map fun textId => (PyStr.hex textId, localizationField image s textId))

/-- The report, when all the pointers are known. -/
def report (pid : Int) (bootstrapActivation inputDialogActivation currentActivation : Nat)
    (currentType : PyValue) : Reading PyValue := dict
  [(PyStr.lit "pid", pure (.int pid)),
    (PyStr.lit "module_base", pure (.hex moduleBase)),
    (PyStr.lit "bootstrap_flags", bootstrapFlags image s),
    (PyStr.lit "ui_state", uiState image moduleBase s p bootstrapActivation),
    (PyStr.lit "ui_manager",
      uiManager image moduleBase p inputDialogActivation currentActivation currentType),
    (PyStr.lit "post_loading", postLoading image s),
    (PyStr.lit "network_state", networkState image s),
    (PyStr.lit "www_helper", wwwHelper image s),
    (PyStr.lit "account_state", accountState image p),
    (PyStr.lit "account_menu_data", accountMenuData image s p),
    (PyStr.lit "file_io", fileIo image s p),
    (PyStr.lit "item_data", itemData image s p),
    (PyStr.lit "e4_localization", e4Localization image s)]

def readStaticFields : Reading StaticFields := do
  let flags ← staticFields image moduleBase bootstrapFlagsTypeinfoRva
  let ui ← staticFields image moduleBase uiStateTypeinfoRva
  let uiManager ← staticFields image moduleBase uiManagerTypeinfoRva
  let postLoading ← staticFields image moduleBase postLoadingTypeinfoRva
  let networkState ← staticFields image moduleBase networkStateTypeinfoRva
  let wwwHelper ← staticFields image moduleBase wwwHelperTypeinfoRva
  let accountState ← staticFields image moduleBase accountStateTypeinfoRva
  let accountMenuData ← staticFields image moduleBase accountMenuDataTypeinfoRva
  let fileIo ← staticFields image moduleBase fileIoTypeinfoRva
  let itemTemplates ← staticFields image moduleBase itemTemplatesTypeinfoRva
  let localization ← staticFields image moduleBase localizationTypeinfoRva
  pure ⟨flags, ui, uiManager, postLoading, networkState, wwwHelper, accountState, accountMenuData,
    fileIo, itemTemplates, localization⟩

/-- What `inspect` does once the static fields are known. -/
def inspectFields (pid : Int) : Reading PyValue := do
  let bootstrapUi ← pointer image s.ui 0x20
  let bootstrapActivation ← virtualMethod image bootstrapUi 0x1A8
  let currentScreen ← pointer image s.uiManager 0x50
  let splashScreen ← pointer image s.uiManager 0x58
  let c4TargetScreen ← pointer image s.uiManager 0x70
  let inputDialogScreen ← pointer image s.uiManager 0x80
  let uiAux88 ← pointer image s.uiManager 0x88
  let uiAux98 ← pointer image s.uiManager 0x98
  let uiOverlayA0 ← pointer image s.uiManager 0xA0
  let areaScreen ← pointer image s.uiManager 0xA8
  let uiScreen60 ← pointer image s.uiManager 0x60
  let uiAuxD0 ← pointer image s.uiManager 0xD0
  let currentType ← objectType image currentScreen
  let currentActivation ← virtualMethod image currentScreen 0x1A8
  let inputDialogActivation ← virtualMethod image inputDialogScreen 0x1A8
  let areaRecord ← pointerUnlessNull image areaScreen 0x230
  let selectedProfile ← pointer image s.accountState 0x30
  let accountMenuEntries ← pointer image s.accountMenuData 0x48
  let accountMenuActiveValues ← pointer image s.accountMenuData 0x70
  let fileBuffer ← pointer image s.fileIo 0x8
  let itemGroups ← pointer image s.flags 0x20
  let itemDictionary ← pointer image s.itemTemplates 0
  let itemHashtable ← pointerUnlessNull image itemDictionary 0x10
  report image moduleBase s
    ⟨bootstrapUi, currentScreen, splashScreen, c4TargetScreen, inputDialogScreen, uiAux88, uiAux98,
      uiOverlayA0, areaScreen, uiScreen60, uiAuxD0, areaRecord, selectedProfile, accountMenuEntries,
      accountMenuActiveValues, fileBuffer, itemGroups, itemDictionary, itemHashtable⟩
    pid bootstrapActivation inputDialogActivation currentActivation currentType

end

/-- `inspect(pid, allowed_root)`, once the process is open. -/
def inspect (image : Image) (pid : Int) (loaded : Option Nat) : Reading PyValue := do
  let moduleBase ← gameAssemblyBase loaded
  let s ← readStaticFields image moduleBase
  inspectFields image moduleBase s pid

end Army3
