import SmartFactory.Proofs.Depth

/-!
# `SmartFactory.Proofs.Reload`: what a load reads back from a saved file

`node_to_json` writes every field of a definition but one: the data type is written for
variables only, and `parse_node` reads `Boolean` where there is none. `saved` is what is left
of a definition after a save and a load. It keeps everything that the build looks at.

A configuration without definitions is not read back: the load gives the defaults instead.
-/

set_option autoImplicit false

namespace SmartFactory.Server

/-- The definition after a save and a load. -/
def ServerNodeDef.saved (d : ServerNodeDef) : ServerNodeDef :=
  { d with dataType := if d.isVariable then d.dataType else .boolean }

/-- cJSON prints a configuration as a text that it reads back. -/
def RoundTrips (cjson : CJson) (cfg : ServerConfig) : Prop :=
  cjson.print (configToJson cfg) ≠ [] ∧
    cjson.parse (cjson.print (configToJson cfg)) = some (configToJson cfg)

/-- The two configurations have the same definitions, up to what a file keeps of them. -/
def SameNodes (cfg cfg' : ServerConfig) : Prop :=
  cfg.nodes.map ServerNodeDef.saved = cfg'.nodes.map ServerNodeDef.saved

variable {cfg cfg' : ServerConfig}

/-- Saving twice loses nothing more. -/
@[simp] theorem saved_saved (d : ServerNodeDef) : d.saved.saved = d.saved := by
  have hkind : d.saved.isVariable = d.isVariable := rfl
  rw [ServerNodeDef.saved, hkind]
  cases hv : d.isVariable with
  | true => rfl
  | false => simp [ServerNodeDef.saved, hv]

/-- Two definitions that a file does not tell apart differ in nothing that the build looks
at. -/
theorem fields_of_saved {d d' : ServerNodeDef} (h : d'.saved = d.saved) :
    d'.kind = d.kind ∧ d'.browseName = d.browseName ∧ d'.displayName = d.displayName ∧
      d'.parentBrowseName = d.parentBrowseName ∧
      (d.isVariable = true → d'.dataType = d.dataType) := by
  have hkind := congrArg ServerNodeDef.kind h
  have hbrowse := congrArg ServerNodeDef.browseName h
  have hdisplay := congrArg ServerNodeDef.displayName h
  have hparent := congrArg ServerNodeDef.parentBrowseName h
  refine ⟨hkind, hbrowse, hdisplay, hparent, fun hv => ?_⟩
  have hv' : d'.isVariable = true := by
    rw [ServerNodeDef.isVariable, show d'.kind = d.kind from hkind]
    exact hv
  have htype := congrArg ServerNodeDef.dataType h
  simpa [ServerNodeDef.saved, hv, hv'] using htype

/-! ### Documents -/

/-- The fields of the document of a definition. -/
theorem getObjectItem_nodeToJson (d : ServerNodeDef) :
    (nodeToJson d).getObjectItem "kind".toList = some (.string d.kind.chars) ∧
    (nodeToJson d).getObjectItem "browseName".toList = some (.string d.browseName.chars) ∧
    (nodeToJson d).getObjectItem "displayName".toList = some (.string d.displayName.chars) ∧
    (nodeToJson d).getObjectItem "parentBrowseName".toList
      = some (.string d.parentBrowseName.chars) ∧
    (nodeToJson d).getObjectItem "dataType".toList
      = (if d.isVariable then some (.string (serverDataTypeToString d.dataType)) else none) ∧
    (nodeToJson d).getObjectItem "simulation".toList
      = (if d.simulation then some (.bool true) else none) ∧
    (nodeToJson d).getObjectItem "role".toList
      = (if d.role.chars ≠ [] then some (.string d.role.chars) else none) := by
  cases hv : d.isVariable <;> cases hs : d.simulation <;> by_cases hr : d.role.chars = [] <;>
    simp [nodeToJson, Json.getObjectItem, hv, hs, hr]

/-- A definition is read back from its document. -/
theorem parseNode_nodeToJson (d : ServerNodeDef) : parseNode (nodeToJson d) = some d.saved := by
  obtain ⟨hkind, hbrowse, hdisplay, hparent, htype, hsim, hrole⟩ := getObjectItem_nodeToJson d
  have hsim' : Json.isTrue (if d.simulation then some (Json.bool true) else none)
      = d.simulation := by
    cases d.simulation <;> rfl
  have hrole' : (Json.stringValue
      (if d.role.chars ≠ [] then some (Json.string d.role.chars) else none)).getD []
        = d.role.chars := by
    by_cases hr : d.role.chars = []
    · rw [if_neg (fun h => h hr), hr]
      rfl
    · rw [if_pos hr]
      rfl
  simp only [parseNode, hkind, hbrowse, hdisplay, hparent, htype, hsim, hrole, hsim', hrole']
  -- A folder has no data type in its document.
  cases hv : d.isVariable with
  | true =>
      simp [Json.stringValue, ServerNodeDef.saved, hv, serverDataTypeFromString_toString]
  | false => simp [Json.stringValue, ServerNodeDef.saved, hv]

/-- The loop of the load reads every document that is a definition, as long as they fit. -/
theorem loadNodes_nodes (cfg : ServerConfig) (items : List ServerNodeDef)
    (hfit : cfg.nodes.length + items.length ≤ serverMaxNodes) :
    (loadNodes cfg (items.map nodeToJson)).nodes
      = cfg.nodes ++ items.map ServerNodeDef.saved := by
  induction items generalizing cfg with
  | nil => rw [List.map_nil, loadNodes, List.map_nil, List.append_nil]
  | cons d rest ih =>
      rw [List.length_cons] at hfit
      have hroom : cfg.nodes.length < serverMaxNodes := by omega
      rw [List.map_cons, loadNodes, dif_pos hroom, parseNode_nodeToJson]
      simp only
      rw [ih, ServerConfig.push_nodes, List.append_assoc]
      · rfl
      · rw [ServerConfig.push_nodes, List.length_append, List.length_singleton]
        omega

/-- The loop of the load keeps the namespace. -/
theorem loadNodes_namespaceUri (cfg : ServerConfig) (items : List Json) :
    (loadNodes cfg items).namespaceUri = cfg.namespaceUri := by
  induction items generalizing cfg with
  | nil => rfl
  | cons item rest ih =>
      rw [loadNodes]
      split
      · split
        · exact ih _
        · exact ih _
      · rfl

/-- What the load makes of the document of a configuration, before it counts the
definitions. -/
def reloaded (cfg : ServerConfig) : ServerConfig :=
  loadNodes { cfg with nodes := [], nodes_le := Nat.zero_le _ } (cfg.nodes.map nodeToJson)

theorem reloaded_nodes (cfg : ServerConfig) :
    (reloaded cfg).nodes = cfg.nodes.map ServerNodeDef.saved := by
  rw [reloaded, loadNodes_nodes _ _ (by simpa using cfg.nodes_le)]
  rfl

theorem reloaded_namespaceUri (cfg : ServerConfig) :
    (reloaded cfg).namespaceUri = cfg.namespaceUri :=
  loadNodes_namespaceUri _ _

/-- The document of a configuration without definitions is read as the defaults, any other is
read back. -/
theorem configOfJson_eq (cfg : ServerConfig) : configOfJson (configToJson cfg)
    = if cfg.nodes = [] then serverConfigSeedDefaults else reloaded cfg := by
  have huri : (configToJson cfg).getObjectItem "namespaceUri".toList
      = some (.string cfg.namespaceUri.chars) := by
    simp [configToJson, Json.getObjectItem]
  have hitems : (configToJson cfg).getObjectItem "nodes".toList
      = some (.array (cfg.nodes.map nodeToJson)) := by
    simp [configToJson, Json.getObjectItem]
  have hcount : (reloaded cfg).nodes.length = 0 ↔ cfg.nodes = [] := by
    rw [reloaded_nodes, List.length_map, List.length_eq_zero_iff]
  simp only [configOfJson, huri, Json.stringValue, hitems, snprintf_buf]
  exact if_congr hcount rfl rfl

/-- A configuration with definitions is read back from its document. -/
theorem configOfJson_configToJson (hne : cfg.nodes ≠ []) :
    (configOfJson (configToJson cfg)).nodes = cfg.nodes.map ServerNodeDef.saved := by
  rw [configOfJson_eq, if_neg hne, reloaded_nodes]

/-- Loading a printed configuration reads its document. -/
theorem load_printed {cjson : CJson} (hcjson : RoundTrips cjson cfg) :
    serverConfigLoad cjson .ok (some (cjson.print (configToJson cfg)))
      = (some (configOfJson (configToJson cfg)), some (cjson.print (configToJson cfg))) := by
  have hlen : (cjson.print (configToJson cfg)).length ≠ 0 := fun h =>
    hcjson.1 (List.eq_nil_of_length_eq_zero h)
  simp [serverConfigLoad, LoadIo.ok, hlen, hcjson.2]

/-- **A saved configuration is loaded.** It has the definitions that were saved, up to the
data type of a definition that is not a variable. -/
theorem load_saved {cjson : CJson} (hcjson : RoundTrips cjson cfg) (hne : cfg.nodes ≠ []) :
    ∃ cfg', serverConfigLoad cjson .ok (some (cjson.print (configToJson cfg)))
        = (some cfg', some (cjson.print (configToJson cfg))) ∧ SameNodes cfg' cfg := by
  refine ⟨configOfJson (configToJson cfg), load_printed hcjson, ?_⟩
  rw [SameNodes, configOfJson_configToJson hne, List.map_map]
  exact List.map_congr_left fun d _ => saved_saved d

/-! ### What the file keeps -/

theorem SameNodes.symm (h : SameNodes cfg cfg') : SameNodes cfg' cfg := Eq.symm h

/-- Each definition has its counterpart. -/
theorem SameNodes.mem (h : SameNodes cfg cfg') {d : ServerNodeDef} (hd : d ∈ cfg.nodes) :
    ∃ d' ∈ cfg'.nodes, d'.saved = d.saved := by
  have hmem : d.saved ∈ cfg'.nodes.map ServerNodeDef.saved := h ▸ List.mem_map_of_mem hd
  obtain ⟨d', hd', heq⟩ := List.mem_map.mp hmem
  exact ⟨d', hd', heq⟩

/-- A function of the definitions that the file keeps. -/
theorem SameNodes.map_eq {β : Type} (h : SameNodes cfg cfg') (f : ServerNodeDef → β)
    (hf : ∀ d, f d.saved = f d) : cfg.nodes.map f = cfg'.nodes.map f := by
  have hcomp : ∀ l : List ServerNodeDef, (l.map ServerNodeDef.saved).map f = l.map f := by
    intro l
    rw [List.map_map]
    exact List.map_congr_left fun d _ => hf d
  rw [← hcomp cfg.nodes, ← hcomp cfg'.nodes, h]

theorem SameNodes.distinctNames (h : SameNodes cfg cfg') (hnd : DistinctNames cfg) :
    DistinctNames cfg' := by
  rw [DistinctNames, ← h.map_eq (fun d => d.browseName.chars) fun _ => rfl]
  exact hnd

/-- Two configurations that the file does not tell apart give the same depths. -/
theorem SameNodes.depth_eq (h : SameNodes cfg cfg') (d : ServerNodeDef) :
    nodeDepth cfg' d = nodeDepth cfg d := by
  refine nodeDepthLoop_congr (fun _ => True) (fun b _ => ?_) (fun _ _ => trivial) 32 0
    trivial
  -- What `node_depth` looks at is the list of names and names of parents.
  have hpairs := h.map_eq (fun d => (d.browseName.chars, d.parentBrowseName.chars))
    fun _ => rfl
  have hfind : ∀ c : ServerConfig, (c.nodes.find? (fun n => n.browseName.chars == b)).map
      (fun n => n.parentBrowseName.chars)
        = ((c.nodes.map (fun d => (d.browseName.chars, d.parentBrowseName.chars))).find?
            (fun q => q.1 == b)).map Prod.snd := by
    intro c
    rw [List.find?_map, Option.map_map]
    rfl
  rw [hfind, hfind, hpairs]

theorem SameNodes.wellOrdered (h : SameNodes cfg cfg') (hord : WellOrdered cfg) :
    WellOrdered cfg' := by
  intro d hd hnode p hp hparent
  obtain ⟨d₀, hd₀, hsaved⟩ := h.symm.mem hd
  obtain ⟨p₀, hp₀, hsaved'⟩ := h.symm.mem hp
  -- Depth, kind and parents of a definition do not depend on its data type.
  have hlt : nodeDepth cfg p₀.saved < nodeDepth cfg d₀.saved :=
    hord d₀ hd₀ (show d₀.saved.isNode = true by rw [hsaved]; exact hnode) p₀ hp₀
      (show p₀.saved.isParentOf d₀.saved = true by rw [hsaved, hsaved']; exact hparent)
  rw [hsaved, hsaved'] at hlt
  rw [h.depth_eq, h.depth_eq]
  exact hlt

/-! ### A cJSON for runs -/

mutual

/-- The text of a document, in the layout of `cJSON_Print`. Strings are written as they
are: the documents below need no escape sequences. -/
def Json.text (depth : Nat) : Json → CString
  | .null => "null".toList
  | .bool b => if b then "true".toList else "false".toList
  | .number n => n
  | .string s => "\"".toList ++ s ++ "\"".toList
  | .array items => "[".toList ++ Json.textItems (depth + 1) items ++ "]".toList
  | .object fields => "\x7b\n".toList ++ Json.textFields (depth + 1) fields
      ++ List.replicate depth '\t' ++ "\x7d".toList

def Json.textItems (depth : Nat) : List Json → CString
  | [] => []
  | item :: rest => item.text depth ++ (if rest.isEmpty then [] else ", ".toList)
      ++ Json.textItems depth rest

def Json.textField (depth : Nat) : CString × Json → CString
  | (name, item) => List.replicate depth '\t' ++ "\"".toList ++ name ++ "\":\t".toList
      ++ item.text depth

def Json.textFields (depth : Nat) : List (CString × Json) → CString
  | [] => []
  | field :: rest => Json.textField depth field
      ++ (if rest.isEmpty then "\n".toList else ",\n".toList) ++ Json.textFields depth rest

end

/-- A cJSON that prints every document and reads one of them back. -/
def CJson.knowing (doc : Json) : CJson :=
  ⟨Json.text 0, fun text => if text = doc.text 0 then some doc else Option.none⟩

theorem roundTrips_knowing (cfg : ServerConfig) :
    RoundTrips (.knowing (configToJson cfg)) cfg := by
  refine ⟨?_, if_pos rfl⟩
  show Json.text 0 (configToJson cfg) ≠ []
  simp [configToJson, Json.text]

/-- A cJSON that prints every document and reads several of them back. -/
def CJson.knowingEach (docs : List Json) : CJson :=
  ⟨Json.text 0, fun text => docs.find? (fun doc => doc.text 0 == text)⟩

/-- Documents with different texts are told apart. -/
theorem roundTrips_knowingEach {docs : List Json} (hnd : (docs.map (Json.text 0)).Nodup)
    {cfg : ServerConfig} (hcfg : configToJson cfg ∈ docs) : RoundTrips (.knowingEach docs) cfg := by
  refine ⟨?_, Keyed.find?_eq_some (Json.text 0) hnd hcfg⟩
  show Json.text 0 (configToJson cfg) ≠ []
  simp [configToJson, Json.text]

end SmartFactory.Server
