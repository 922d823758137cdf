import SmartFactory.Bridge.ConfigFormat

/-!
# `SmartFactory.Proofs.Bridge.ConfigFormat`: one file, two programs

Both programs read the same fields of a configuration file, each with defaults of its own. What a
missing `tcpPort` or a missing `enabled` stands for is different, and so is a number that is not
written in digits. Each program writes every field, in digits; but the Go bridge saves any port, and
the window of the other one has only those from 1 to 65535.

`configFormat_iff` is the exact extent, for files from anywhere and for those that the programs
save.
-/

set_option autoImplicit false

namespace SmartFactory.Bridge

/-! ### Fields that are what they should be -/

/-- An object in which an entry that belongs to a field has its name, and no key is there twice. -/
structure Entries (foldName : String → String) (names : List String) (es : JsonEntries) :
    Prop where
  nodup : (es.map Prod.fst).Nodup
  spelled : ∀ e ∈ es, ∀ name ∈ names, foldName name = foldName e.1 → e.1 = name

/-- The field is missing, or its value is of the type. -/
def Field (type : JsonValue → Prop) (name : String) (es : JsonEntries) : Prop :=
  ∀ v, jsonValue es name = some v → type v

def IsString (v : JsonValue) : Prop := ∃ s, v = .string s

def IsBool (v : JsonValue) : Prop := ∃ b, v = .bool b

/-- An integer in a range, however it is written. -/
def IsInt (lo hi : Int) (v : JsonValue) : Prop :=
  ∃ n, (v = .number (.digits n) ∨ v = .number (.real (some n))) ∧ lo ≤ n ∧ n ≤ hi

/-- The value is written in digits. -/
def InDigits (v : JsonValue) : Prop := ∃ n, v = .number (.digits n)

/-- A mapping whose fields have the right types and ranges. -/
structure MappingTypes (foldName : String → String) (es : JsonEntries) : Prop where
  entries : Entries foldName mappingNames es
  messagePackId : Field IsString "messagePackId" es
  nodeIdString : Field IsString "nodeIdString" es
  typeCode : Field (IsInt 0 255) "typeCode" es
  enabled : Field IsBool "enabled" es

/-- A list of such mappings. -/
def IsMappings (foldName : String → String) (v : JsonValue) : Prop :=
  ∃ vs, v = .array vs ∧ ∀ m ∈ vs, ∃ es, m = .object es ∧ MappingTypes foldName es

/-- A configuration whose fields have the right types and ranges. Each of them may be missing. -/
structure ConfigTypes (foldName : String → String) (es : JsonEntries) : Prop where
  entries : Entries foldName configNames es
  endpointUrl : Field IsString "endpointUrl" es
  namespaceUri : Field IsString "namespaceUri" es
  tcpPort : Field (IsInt 1 65535) "tcpPort" es
  mappings : Field (IsMappings foldName) "mappings" es

/-! ### Both see the same values -/

section
variable {foldName : String → String} {names : List String} {es : JsonEntries}

/-- In such an object, `encoding/json` finds what stands under the name of the field. -/
theorem fieldValues_eq (h : Entries foldName names es) {name : String} (hname : name ∈ names) :
    fieldValues foldName names name es = (jsonValue es name).toList := by
  -- No key of the object differs from a field in its case only, so that folding finds nothing that
  -- the spelling does not.
  have hkey : ∀ e ∈ es, structField foldName names e.1 = some name ↔ e.1 = name := by
    intro e he
    rw [structField]
    split
    · rw [Option.some.injEq]
    · rename_i hnot
      constructor
      · intro hfind
        have hfold := List.find?_some hfind
        exact h.spelled e he name hname (of_decide_eq_true hfold)
      · rintro rfl
        exact absurd hname hnot
  have hmap : fieldValues foldName names name es
      = (es.filter fun e => e.1 = name).map Prod.snd := by
    rw [fieldValues]
    clear h
    induction es with
    | nil => rfl
    | cons e es ih =>
        rw [List.forall_mem_cons] at hkey
        by_cases hfirst : e.1 = name
        · rw [List.filterMap_cons_some (by rw [if_pos (hkey.1.mpr hfirst)]),
            List.filter_cons_of_pos (by simpa using hfirst), List.map_cons, ih hkey.2]
        · rw [List.filterMap_cons_none (by rw [if_neg (mt hkey.1.mp hfirst)]),
            List.filter_cons_of_neg (by simpa using hfirst), ih hkey.2]
  -- Keys do not repeat: the last value under the name is the only one.
  have hone : (es.filter fun e => e.1 = name).length ≤ 1 := by
    have hnodup : ((es.filter fun e => e.1 = name).map Prod.fst).Nodup :=
      h.nodup.sublist (List.filter_sublist.map Prod.fst)
    have hall : (es.filter fun e => e.1 = name).map Prod.fst
        = List.replicate (es.filter fun e => e.1 = name).length name := by
      refine List.eq_replicate_iff.mpr ⟨List.length_map .., ?_⟩
      intro k hk
      obtain ⟨e, he, rfl⟩ := List.mem_map.mp hk
      exact of_decide_eq_true (List.mem_filter.mp he).2
    rw [hall, List.nodup_replicate] at hnodup
    exact hnodup
  rw [hmap, jsonValue]
  cases hfilter : es.filter fun e => e.1 = name with
  | nil => rfl
  | cons e es' =>
      rw [hfilter] at hone
      have hnil : es' = [] := List.eq_nil_of_length_eq_zero (by simpa using hone)
      rw [hnil]
      rfl

end

section
variable {es : JsonEntries} {name : String}

/-- A missing string is empty in both programs. -/
theorem assign_string (h : Field IsString name es) :
    assign unmarshalString "" (jsonValue es name).toList
      = some (jsonToString (jsonValue es name)) := by
  cases hv : jsonValue es name with
  | none => rfl
  | some v =>
      obtain ⟨s, rfl⟩ := h v hv
      rfl

/-- A missing Boolean is not. -/
theorem assign_bool_iff (h : Field IsBool name es) :
    assign unmarshalBool false (jsonValue es name).toList
        = some (jsonToBool true (jsonValue es name)) ↔ jsonValue es name ≠ none := by
  cases hv : jsonValue es name with
  | none => simp [assign, jsonToBool]
  | some v =>
      obtain ⟨b, rfl⟩ := h v hv
      simp [assign, unmarshalBool, jsonToBool]

/-- A missing number is zero in both programs. One that is not in digits is an error of one of
them. -/
theorem assign_uint8_iff (h : Field (IsInt 0 255) name es) :
    assign unmarshalUint8 0 (jsonValue es name).toList
        = some (UInt8.ofInt (jsonToInt 0 (jsonValue es name))) ↔ Field InDigits name es := by
  cases hv : jsonValue es name with
  | none =>
      have hzero : UInt8.ofInt 0 = 0 := rfl
      simp [assign, jsonToInt, Field, hv, hzero]
  | some v =>
      obtain ⟨n, hform, hlo, hhi⟩ := h v hv
      have hint : jsonToInt 0 (some v) = n := by
        rcases hform with rfl | rfl
        · exact if_pos (by omega)
        · exact if_pos (by omega)
      -- In range, so that neither cast takes anything off.
      have hcast : UInt8.ofInt n = UInt8.ofNat n.toNat := by
        have hmod : (n % 2 ^ 8).toNat = n.toNat := by omega
        rw [UInt8.ofInt, hmod]
      rw [hint, hcast]
      rcases hform with rfl | rfl
      · have hread : unmarshalUint8 (.number (.digits n)) = some (UInt8.ofNat n.toNat) :=
          if_pos (by omega)
        simp [assign, hread, Field, hv, InDigits]
      · simp [assign, unmarshalUint8, Field, hv, InDigits]

/-- A missing port is 0 in one program and 9000 in the other. -/
theorem assign_port_iff (h : Field (IsInt 1 65535) name es) :
    assign unmarshalInt 0 (jsonValue es name).toList
        = some (PortSpin.ofInt (jsonToInt 9000 (jsonValue es name))).value ↔
      ∃ v, jsonValue es name = some v ∧ InDigits v := by
  cases hv : jsonValue es name with
  | none => simp [assign, jsonToInt, PortSpin.ofInt]
  | some v =>
      obtain ⟨n, hform, hlo, hhi⟩ := h v hv
      have hint : jsonToInt 9000 (some v) = n := by
        rcases hform with rfl | rfl
        · exact if_pos (by omega)
        · exact if_pos (by omega)
      -- The spin box has the range 1 to 65535 and takes the port as it is.
      have hclamp : (PortSpin.ofInt n).value = n := by
        show max 1 (min n 65535) = n
        omega
      rw [hint, hclamp]
      rcases hform with rfl | rfl
      · have hread : unmarshalInt (.number (.digits n)) = some n := if_pos (by omega)
        simp [assign, hread, InDigits]
      · simp [assign, unmarshalInt, InDigits]

end

/-! ### Mappings -/

/-- A mapping says whether it is enabled, and its type code, if it has one, is in digits. -/
structure ExplicitMapping (es : JsonEntries) : Prop where
  enabled : jsonValue es "enabled" ≠ none
  typeCode : Field InDigits "typeCode" es

section
variable {foldName : String → String}

/-- Both programs read the same mapping exactly when it is explicit. -/
theorem unmarshalMapping_eq_iff {es : JsonEntries} (h : MappingTypes foldName es) :
    unmarshalMapping foldName (.object es) = some (sensorMappingFromJson es) ↔
      ExplicitMapping es := by
  have hfield : ∀ name ∈ mappingNames,
      fieldValues foldName mappingNames name es = (jsonValue es name).toList :=
    fun name hname => fieldValues_eq h.entries hname
  have hexplicit : ExplicitMapping es ↔
      jsonValue es "enabled" ≠ none ∧ Field InDigits "typeCode" es :=
    ⟨fun h => ⟨h.enabled, h.typeCode⟩, fun h => ⟨h.1, h.2⟩⟩
  rw [unmarshalMapping]
  dsimp only
  rw [hfield _ (by decide), hfield _ (by decide), hfield _ (by decide), hfield _ (by decide),
    assign_string h.messagePackId, assign_string h.nodeIdString, hexplicit,
    ← assign_bool_iff h.enabled, ← assign_uint8_iff h.typeCode, sensorMappingFromJson]
  -- The texts are read alike. The type code and the flag decide.
  cases assign unmarshalUint8 0 (jsonValue es "typeCode").toList with
  | none => simp
  | some typeCode =>
      cases assign unmarshalBool false (jsonValue es "enabled").toList with
      | none => simp
      | some enabled => simp [and_comm]

/-- A list is read as it is in the other program when each of its elements is. -/
theorem mapM_eq_some_map_iff {α β : Type} (f : α → Option β) (g : α → β) (as : List α) :
    as.mapM f = some (as.map g) ↔ ∀ a ∈ as, f a = some (g a) := by
  induction as with
  | nil => simp
  | cons a as ih =>
      rw [List.forall_mem_cons, ← ih, List.mapM_cons, List.map_cons]
      cases f a with
      | none => simp
      | some b =>
          cases as.mapM f with
          | none => simp
          | some bs => simp

/-- Both programs read the same list exactly when all its mappings are explicit. A missing list is
empty. -/
theorem assign_mappings_iff {es : JsonEntries} {name : String}
    (h : Field (IsMappings foldName) name es) :
    assign (unmarshalMappings foldName) [] (jsonValue es name).toList
        = some ((jsonToArray (jsonValue es name)).map fun v =>
            sensorMappingFromJson (jsonToObject v)) ↔
      ∀ m ∈ jsonToArray (jsonValue es name), ExplicitMapping (jsonToObject m) := by
  cases hv : jsonValue es name with
  | none => simp [assign, jsonToArray]
  | some v =>
      obtain ⟨vs, rfl, htypes⟩ := h v hv
      have hread : assign (unmarshalMappings foldName) [] (some (JsonValue.array vs)).toList
          = vs.mapM (unmarshalMapping foldName) := by
        simp [assign, unmarshalMappings]
      rw [hread, jsonToArray, mapM_eq_some_map_iff]
      refine forall₂_congr fun m hm => ?_
      obtain ⟨es', rfl, hes'⟩ := htypes m hm
      exact unmarshalMapping_eq_iff hes'

/-! ### Files from anywhere -/

/-- Both programs read the same port and the same mappings. -/
def SameMeaning (foldName : String → String) (doc : JsonValue) : Prop :=
  ∃ c, loadConfig foldName doc = some c ∧ c.tcpPort = (onLoadConfig doc).portSpin.value ∧
    c.mappings = (onLoadConfig doc).mappingTable

/-- The port is there, in digits, and every mapping is explicit. -/
structure Explicit (es : JsonEntries) : Prop where
  tcpPort : ∃ v, jsonValue es "tcpPort" = some v ∧ InDigits v
  mappings : ∀ m ∈ jsonToArray (jsonValue es "mappings"), ExplicitMapping (jsonToObject m)

theorem sameMeaning_iff {es : JsonEntries} (h : ConfigTypes foldName es) :
    SameMeaning foldName (.object es) ↔ Explicit es := by
  have hfield : ∀ name ∈ configNames,
      fieldValues foldName configNames name es = (jsonValue es name).toList :=
    fun name hname => fieldValues_eq h.entries hname
  have hexplicit : Explicit es ↔ (∃ v, jsonValue es "tcpPort" = some v ∧ InDigits v) ∧
      ∀ m ∈ jsonToArray (jsonValue es "mappings"), ExplicitMapping (jsonToObject m) :=
    ⟨fun h => ⟨h.tcpPort, h.mappings⟩, fun h => ⟨h.1, h.2⟩⟩
  rw [SameMeaning, loadConfig]
  dsimp only
  rw [hfield _ (by decide), hfield _ (by decide), hfield _ (by decide), hfield _ (by decide),
    assign_string h.endpointUrl, assign_string h.namespaceUri, hexplicit,
    ← assign_port_iff h.tcpPort, ← assign_mappings_iff h.mappings, onLoadConfig, jsonToObject]
  -- The port and the mappings decide.
  cases assign unmarshalInt 0 (jsonValue es "tcpPort").toList with
  | none => simp
  | some port =>
      cases assign (unmarshalMappings foldName) [] (jsonValue es "mappings").toList with
      | none => simp
      | some mappings => simp

/-! ### Saved files -/

/-- The window shows the configuration. -/
def MainWindow.Shows (w : MainWindow) (c : Config) : Prop :=
  w.endpointEdit = c.endpointURL ∧ w.namespaceEdit = c.namespaceURI ∧
    w.portSpin.value = c.tcpPort ∧ w.mappingTable = c.mappings

/-- What `onSaveConfig` takes from the window. -/
def MainWindow.config (w : MainWindow) : Config :=
  ⟨trimSpace w.endpointEdit, trimSpace w.namespaceEdit, w.portSpin.value, w.mappingsFromTable⟩

/-- A mapping of the Go bridge is read back by the Qt bridge. -/
theorem sensorMappingFromJson_marshal (m : Mapping) :
    sensorMappingFromJson (jsonToObject (marshalMapping m)) = m := by
  have htype : jsonToInt 0 (some (.number (.digits m.typeCode.toNat))) = m.typeCode.toNat := by
    have hlt := m.typeCode.toNat_lt
    rw [jsonToInt, if_pos (by omega)]
  have hcast : UInt8.ofInt (m.typeCode.toNat : Int) = m.typeCode := by
    have hlt := m.typeCode.toNat_lt
    have hmod : ((m.typeCode.toNat : Int) % 2 ^ 8).toNat = m.typeCode.toNat := by omega
    rw [UInt8.ofInt, hmod, UInt8.ofNat_toNat]
  simp [sensorMappingFromJson, jsonToObject, marshalMapping, jsonValue, jsonToString, jsonToBool,
    htype, hcast]

/-- A mapping of the Qt bridge is read back by the Go bridge. -/
theorem unmarshalMapping_toJson (m : Mapping) :
    unmarshalMapping foldName (sensorMappingToJson m) = some m := by
  have htype : unmarshalUint8 (.number (.digits m.typeCode.toNat)) = some m.typeCode := by
    have hlt := m.typeCode.toNat_lt
    rw [unmarshalUint8, if_pos (by omega), Int.toNat_natCast, UInt8.ofNat_toNat]
  simp [unmarshalMapping, sensorMappingToJson, fieldValues, structField, mappingNames, assign,
    unmarshalString, unmarshalBool, htype]

/-- What the Go bridge saves, the window shows exactly when it has the port. -/
theorem shows_saveConfig_iff (made : Bool) (c : Config) :
    (onLoadConfig (saveConfig made c)).Shows c ↔ 1 ≤ c.tcpPort ∧ c.tcpPort ≤ 65535 := by
  have hmappings : (jsonToArray (some (if c.mappings = [] ∧ !made then .null
      else .array (c.mappings.map marshalMapping)))).map
        (fun v => sensorMappingFromJson (jsonToObject v)) = c.mappings := by
    split
    · rename_i hnil
      -- A nil slice is saved as `null`, which is read as no mappings.
      rw [hnil.1]
      rfl
    · rw [jsonToArray, List.map_map]
      refine (List.map_congr_left fun m _ => ?_).trans (List.map_id _)
      exact sensorMappingFromJson_marshal m
  have hport : (PortSpin.ofInt (jsonToInt 9000 (some (.number (.digits c.tcpPort))))).value
      = c.tcpPort ↔ 1 ≤ c.tcpPort ∧ c.tcpPort ≤ 65535 := by
    show max 1 (min (if -2 ^ 31 ≤ c.tcpPort ∧ c.tcpPort < 2 ^ 31 then c.tcpPort else 9000) 65535)
      = c.tcpPort ↔ _
    split
    · omega
    · omega
  rw [← hport]
  constructor
  · exact fun h => h.2.2.1
  · exact fun h => ⟨rfl, rfl, h, hmappings⟩

/-- What the Qt bridge saves, the Go bridge loads. -/
theorem loadConfig_onSaveConfig (w : MainWindow) :
    loadConfig foldName (onSaveConfig w) = some w.config := by
  have hport : unmarshalInt (.number (.digits w.portSpin.value)) = some w.portSpin.value := by
    have hrange := w.portSpin.range
    exact if_pos (by omega)
  have hmappings : unmarshalMappings foldName
      (.array (w.mappingsFromTable.map sensorMappingToJson)) = some w.mappingsFromTable := by
    have hread := (mapM_eq_some_map_iff (fun m => unmarshalMapping foldName (sensorMappingToJson m))
      id w.mappingsFromTable).mpr fun m _ => unmarshalMapping_toJson m
    rw [List.map_id] at hread
    rw [unmarshalMappings, List.mapM_map]
    exact hread
  simp [loadConfig, onSaveConfig, fieldValues, structField, configNames, assign, unmarshalString,
    hport, hmappings, MainWindow.config]

end

/-- **The extent of it.** A file whose fields have the right types means the same to both programs
exactly when it says its port and, in each mapping, whether it is enabled, and when its numbers are
in digits. A file of the Go bridge is loaded into the window exactly when its port is one. A file of
the Qt bridge is always loaded by the Go bridge. -/
theorem configFormat_iff (foldName : String → String) :
    (∀ es, ConfigTypes foldName es →
      (SameMeaning foldName (.object es) ↔ Explicit es)) ∧
    (∀ made c, (onLoadConfig (saveConfig made c)).Shows c ↔
      1 ≤ c.tcpPort ∧ c.tcpPort ≤ 65535) ∧
    ∀ w, loadConfig foldName (onSaveConfig w) = some w.config :=
  ⟨fun _ h => sameMeaning_iff h, shows_saveConfig_iff, loadConfig_onSaveConfig⟩

/-- Letters in lower case, as far as they are ASCII. -/
def lowerCase (s : String) : String := String.ofList (s.toList.map Char.toLower)

/-- A file with one mapping, without a port and without `enabled`. -/
def shortConfig : JsonEntries :=
  [("mappings", .array [.object
    [("messagePackId", .string "Level"), ("nodeIdString", .string "ns=2;i=1")]])]

/-- The short file is a configuration. The Go bridge reads port 0 and a mapping that is not
enabled, the Qt bridge port 9000 and one that is. -/
theorem not_sameMeaning_short : ConfigTypes lowerCase shortConfig ∧
    ¬ SameMeaning lowerCase (.object shortConfig) ∧
    loadConfig lowerCase (.object shortConfig)
      = some ⟨"", "", 0, [⟨"Level", "ns=2;i=1", 0, false⟩]⟩ ∧
    onLoadConfig (.object shortConfig)
      = ⟨"", "", .ofInt 9000, [⟨"Level", "ns=2;i=1", 0, true⟩]⟩ := by
  have hload : loadConfig lowerCase (.object shortConfig)
      = some ⟨"", "", 0, [⟨"Level", "ns=2;i=1", 0, false⟩]⟩ := by rfl
  have hshow : onLoadConfig (.object shortConfig)
      = ⟨"", "", .ofInt 9000, [⟨"Level", "ns=2;i=1", 0, true⟩]⟩ := by rfl
  refine ⟨?_, ?_, hload, hshow⟩
  · -- What is there has the right type, and every field may be missing.
    have hmapping : MappingTypes lowerCase
        [("messagePackId", .string "Level"), ("nodeIdString", .string "ns=2;i=1")] :=
      { entries := ⟨by decide, by simp [mappingNames, lowerCase]⟩
        messagePackId := by simp [Field, jsonValue, IsString]
        nodeIdString := by simp [Field, jsonValue, IsString]
        typeCode := by simp [Field, jsonValue]
        enabled := by simp [Field, jsonValue] }
    exact
      { entries := ⟨by decide, by simp [shortConfig, configNames, lowerCase]⟩
        endpointUrl := by simp [Field, jsonValue, shortConfig]
        namespaceUri := by simp [Field, jsonValue, shortConfig]
        tcpPort := by simp [Field, jsonValue, shortConfig]
        mappings := by simpa [Field, jsonValue, shortConfig, IsMappings] using hmapping }
  · rintro ⟨c, hc, hport, -⟩
    rw [hload, Option.some.injEq] at hc
    rw [← hc, hshow] at hport
    exact absurd hport (by decide)

end SmartFactory.Bridge
