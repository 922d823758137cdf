import SmartFactory.Gui.Window
import SmartFactory.Proofs.Bridge.ConfigFormat
import Mathlib.Data.List.DropRight

/-!
# `SmartFactory.Proofs.Gui.Configuration`: what the window keeps when it is closed

The window writes its configuration when it is closed and reads it when it is opened. The texts are
trimmed on the way, and they are trimmed again whenever they are used. `config_of_restarts` is that
the configuration survives any number of restarts, and that the file does not change any more after
the first one.
-/

set_option autoImplicit false

namespace SmartFactory.Gui

open Bridge

/-! ### White space around a text -/

/-- Trimming drops the white space at both ends. -/
theorem trimSpace_eq (s : String) : trimSpace s =
    String.ofList ((s.toList.dropWhile isSpace).rdropWhile isSpace) := rfl

/-- A text is only trimmed once. -/
theorem trimSpace_trimSpace (s : String) : trimSpace (trimSpace s) = trimSpace s := by
  rw [trimSpace_eq (trimSpace s), trimSpace_eq s, String.toList_ofList]
  have hstart : ((s.toList.dropWhile isSpace).rdropWhile isSpace).dropWhile isSpace =
      (s.toList.dropWhile isSpace).rdropWhile isSpace := by
    cases hrest : (s.toList.dropWhile isSpace).rdropWhile isSpace with
    | nil => rfl
    | cons c cs =>
        obtain ⟨cs', htext⟩ := List.rdropWhile_prefix isSpace (s.toList.dropWhile isSpace)
        rw [hrest] at htext
        have hself := List.dropWhile_idempotent isSpace s.toList
        rw [← htext, List.cons_append, List.dropWhile_eq_self_iff] at hself
        exact List.dropWhile_cons_of_neg (hself (Nat.succ_pos _))
  rw [hstart, List.rdropWhile_idempotent]

/-! ### The file -/

/-- A mapping is read back. -/
theorem sensorMappingFromJson_toJson (m : Mapping) :
    sensorMappingFromJson (jsonToObject (sensorMappingToJson m)) = m := by
  have htype : jsonToInt 0 (some (.number (.digits m.typeCode.toNat))) = m.typeCode.toNat := by
    have hlt := m.typeCode.toNat_lt
    rw [jsonToInt, if_pos (by omega)]
  have hcast : UInt8.ofInt (m.typeCode.toNat : Int) = m.typeCode := by
    have hlt := m.typeCode.toNat_lt
    have hmod : ((m.typeCode.toNat : Int) % 2 ^ 8).toNat = m.typeCode.toNat := by omega
    rw [UInt8.ofInt, hmod, UInt8.ofNat_toNat]
  simp [sensorMappingFromJson, jsonToObject, sensorMappingToJson, jsonValue, jsonToString,
    jsonToBool, htype, hcast]

/-- The mappings of a table come back from their JSON. -/
theorem mappings_fromJson_toJson (ms : List Mapping) :
    (jsonToArray (some (.array (ms.map sensorMappingToJson)))).map
      (fun v => sensorMappingFromJson (jsonToObject v)) = ms := by
  rw [jsonToArray, List.map_map]
  exact (List.map_congr_left fun m _ => sensorMappingFromJson_toJson m).trans (List.map_id _)

/-- So does the number of a port. -/
theorem portSpin_ofInt (defaultValue : Int) (spin : PortSpin) :
    PortSpin.ofInt (jsonToInt defaultValue (some (.number (.digits spin.value)))) = spin := by
  obtain ⟨value, hrange⟩ := spin
  show PortSpin.ofInt (jsonToInt defaultValue (some (.number (.digits value)))) = _
  rw [jsonToInt, if_pos (by omega), PortSpin.ofInt, PortSpin.mk.injEq]
  omega

/-- What is found in a saved file. -/
theorem jsonValue_onSaveConfig (form : MainWindow) :
    jsonValue (jsonToObject (onSaveConfig form)) "endpointUrl"
      = some (.string (trimSpace form.endpointEdit)) ∧
    jsonValue (jsonToObject (onSaveConfig form)) "namespaceUri"
      = some (.string (trimSpace form.namespaceEdit)) ∧
    jsonValue (jsonToObject (onSaveConfig form)) "tcpPort"
      = some (.number (.digits form.portSpin.value)) ∧
    jsonValue (jsonToObject (onSaveConfig form)) "mappings"
      = some (.array (form.mappingsFromTable.map sensorMappingToJson)) := by
  refine ⟨?_, ?_, ?_, ?_⟩ <;> simp [onSaveConfig, jsonToObject, jsonValue]

/-- The form after a restart. -/
def reopen (form : MainWindow) : MainWindow := autoLoadConfig setupUi (autoSaveConfig form)

/-- The form without the white space around its texts. -/
def trimmed (form : MainWindow) : MainWindow where
  endpointEdit := trimSpace form.endpointEdit
  namespaceEdit := trimSpace form.namespaceEdit
  portSpin := form.portSpin
  mappingTable := form.mappingsFromTable

/-- A restart trims the texts, and that is all. -/
theorem reopen_eq (form : MainWindow) : reopen form = trimmed form := by
  obtain ⟨hendpoint, hnamespace, hport, hmappings⟩ := jsonValue_onSaveConfig form
  have htable : (if form.mappingsFromTable = [] then setupUi.mappingTable
      else form.mappingsFromTable) = form.mappingsFromTable := by
    split
    · rename_i hempty
      rw [hempty]
      rfl
    · rfl
  simp only [reopen, autoLoadConfig, autoSaveConfig, hendpoint, hnamespace, hport, hmappings,
    mappings_fromJson_toJson, portSpin_ofInt, jsonToStringOr, htable, trimmed]

/-- So does saving a file and loading it by hand. -/
theorem onLoadConfig_onSaveConfig (form : MainWindow) :
    onLoadConfig (onSaveConfig form) = trimmed form := by
  obtain ⟨hendpoint, hnamespace, hport, hmappings⟩ := jsonValue_onSaveConfig form
  simp only [onLoadConfig, hendpoint, hnamespace, hport, hmappings, mappings_fromJson_toJson,
    portSpin_ofInt, jsonToString, trimmed]

/-- Trimmed texts give the same configuration. -/
theorem config_trimmed (form : MainWindow) : (trimmed form).config = form.config := by
  simp only [MainWindow.config, trimmed, MainWindow.mappingsFromTable, List.map_map,
    Function.comp_def, trimSpace_trimSpace]

/-- What is saved is the configuration. -/
theorem onSaveConfig_congr {form form' : MainWindow} (h : form'.config = form.config) :
    onSaveConfig form' = onSaveConfig form := by
  rw [MainWindow.config, MainWindow.config, Config.mk.injEq] at h
  obtain ⟨hendpoint, hnamespace, hport, hmappings⟩ := h
  rw [onSaveConfig, onSaveConfig, hendpoint, hnamespace, hport, hmappings]

/-- **Restarts.** The configuration survives any number of restarts, and the file stays the same. A
file that is saved and loaded by hand does the same. -/
theorem config_of_restarts (form : MainWindow) (n : Nat) :
    (reopen^[n] form).config = form.config ∧
    autoSaveConfig (reopen^[n] form) = autoSaveConfig form ∧
    (onLoadConfig (onSaveConfig form)).config = form.config := by
  have hconfig : (reopen^[n] form).config = form.config := by
    induction n with
    | zero => rfl
    | succ n ih => rw [Function.iterate_succ_apply', reopen_eq, config_trimmed, ih]
  refine ⟨hconfig, onSaveConfig_congr hconfig, ?_⟩
  rw [onLoadConfig_onSaveConfig, config_trimmed]

end SmartFactory.Gui
