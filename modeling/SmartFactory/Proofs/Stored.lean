import SmartFactory.Proofs.Events

/-!
# `SmartFactory.Proofs.Stored`: what is accepted and what is stored

Three requests give the server something to store: the fields of a folder, of a variable, or
the namespace. `given` reads a field from the document of the request, whatever it holds, and
`Route.StoredIn` says that `GET /api/nodes` and `GET /api/config` show each field as it was given
and that the node hangs below the parent that was named.

The browse name is checked before it is copied. Every other string goes through `snprintf` into
the buffer of its field, and a string that does not fit is cut without a word. A parent name that
is cut is looked up as such. A data type, a parent or a flag of another JSON type is taken for none.
`stored_iff` is the exact extent: the strings fit, the fields have their types, and the browse map
knows the parent.
-/

set_option autoImplicit false

namespace SmartFactory.Server

open Run

/-! ### What a request gives to be stored -/

/-- What a document gives for a key. `null` gives nothing. -/
def given (root : Json) (key : CString) : Option Json :=
  match root.getObjectItem key with
  | some .null => none
  | item => item

/-- The three routes that store something. -/
inductive Route where
  | postFolder
  | postVariable
  | putConfig

def Route.method : Route → CString
  | .postFolder | .postVariable => "POST".toList
  | .putConfig => "PUT".toList

def Route.url : Route → CString
  | .postFolder => "/api/nodes/folder".toList
  | .postVariable => "/api/nodes/variable".toList
  | .putConfig => "/api/config".toList

/-! ### What is stored -/

section
variable (env : HttpEnv)

/-- The document behind `GET /api/nodes`. -/
def nodesDocument (w : World) : List Json := w.nm.config.nodes.map (listedNode w.nm.nsIdx)

/-- The document behind `GET /api/config`. -/
def configDocument (w : World) : Json :=
  .object [("namespaceUri".toList, .string w.nm.config.namespaceUri.chars),
    ("configPath".toList, .string env.configPath)]

end

/-- The entry has the browse name. -/
def listsName (b : CString) (o : Json) : Bool :=
  Json.stringValue (o.getObjectItem "browseName".toList) = some b

/-- The entry shows each field as the request gives it. When it gives none, the parent is empty, a
variable is a `Boolean`, and nothing is simulated; a flag that is false is not shown. -/
structure Carries (isVariable : Bool) (root o : Json) : Prop where
  kind : o.getObjectItem "kind".toList
    = some (.string (if isVariable then serverNodeKindVariable else serverNodeKindFolder))
  displayName : o.getObjectItem "displayName".toList = given root "displayName".toList
  parentBrowseName : o.getObjectItem "parentBrowseName".toList
    = some ((given root "parentBrowseName".toList).getD (.string []))
  dataType : o.getObjectItem "dataType".toList = (given root "dataType".toList).or
    (if isVariable then some (.string "Boolean".toList) else none)
  simulation : (o.getObjectItem "simulation".toList).getD (.bool false)
    = (given root "simulation".toList).getD (.bool false)

/-- The node of the parent that the request names, or `Objects` when it names none. -/
def namedParent (root : Json) (w : World) : NodeId :=
  match given root "parentBrowseName".toList with
  | some (.string (c :: cs)) => w.nodeIdOf (c :: cs)
  | _ => objectsFolder

/-- A posted node is stored as it was given: one entry has its browse name and carries its fields,
and the node hangs below the parent that was named. -/
def NodeStored (isVariable : Bool) (root : Json) (w : World) : Prop :=
  ∃ b, given root "browseName".toList = some (.string b) ∧
    (∃ o, (nodesDocument w).filter (listsName b) = [o] ∧ Carries isVariable root o) ∧
    ∃ n, w.space.find (w.nodeIdOf b) = some n ∧ n.parent = namedParent root w

/-- What the request gives is stored as it was given. -/
def Route.StoredIn (env : HttpEnv) (root : Json) (w : World) : Route → Prop
  | .postFolder => NodeStored false root w
  | .postVariable => NodeStored true root w
  | .putConfig =>
      (configDocument env w).getObjectItem "namespaceUri".toList
        = given root "namespaceUri".toList

/-! ### What can be stored as it is given -/

/-- A parent is named by a string that fits its buffer and that the browse map knows. -/
def ParentFits (w : World) (v : Json) : Prop :=
  ∃ b, v = .string b ∧ b.length < serverBrowseNameMax ∧ (b = [] ∨ w.InMap b)

/-- The display name fits its buffer, the parent fits, and the data type and the flag of a variable
have their types. A folder has no data type and is not simulated. -/
structure NodeFits (isVariable : Bool) (root : Json) (w : World) : Prop where
  displayName : ∀ s, given root "displayName".toList = some (.string s) →
    s.length < serverDisplayNameMax
  parentBrowseName : ∀ v, given root "parentBrowseName".toList = some v → ParentFits w v
  dataType : ∀ v, given root "dataType".toList = some v → isVariable = true ∧ ∃ s, v = .string s
  simulation : ∀ v, given root "simulation".toList = some v →
    ∃ b, v = .bool b ∧ (b = true → isVariable = true)

/-- What the request gives fits. -/
def Route.Fits (root : Json) (w : World) : Route → Prop
  | .postFolder => NodeFits false root w
  | .postVariable => NodeFits true root w
  | .putConfig => ∀ s, given root "namespaceUri".toList = some (.string s) →
      s.length < serverNamespaceMax

/-! ### What the handlers read -/

/-- The node that a handler reads from a request: a variable has a data type and may be
simulated. -/
structure PostedNode where
  parent : CString
  browse : CString
  display : CString
  typed : Option (ServerDataType × Bool)
  deriving DecidableEq

/-- The definition that the program makes of a posted node. -/
def PostedNode.definition (p : PostedNode) : ServerNodeDef :=
  match p.typed with
  | none => folderDef (some p.parent) p.browse p.display
  | some (dt, sim) => variableDef (some p.parent) p.browse p.display dt sim

/-- The operation that posts it. -/
def PostedNode.op (p : PostedNode) (host : Host) : Op :=
  match p.typed with
  | none => .addFolder host (some p.parent) p.browse p.display
  | some (dt, sim) => .addVariable host (some p.parent) p.browse p.display dt sim

theorem PostedNode.op_adds (p : PostedNode) (host : Host) :
    (p.op host).adds = some (host, p.definition) := by
  rw [PostedNode.op, PostedNode.definition]
  cases p.typed <;> rfl

/-- How a handler reads the node: it asks for strings and for `true`, and it takes anything else for
nothing. -/
structure ReadAs (root : Json) (p : PostedNode) : Prop where
  browse : Json.stringValue (root.getObjectItem "browseName".toList) = some p.browse
  display : Json.stringValue (root.getObjectItem "displayName".toList) = some p.display
  parent : (Json.stringValue (root.getObjectItem "parentBrowseName".toList)).getD [] = p.parent
  typed : ∀ v, p.typed = some v → postedType root = some v.1 ∧
    Json.isTrue (root.getObjectItem "simulation".toList) = v.2

/-- A string is read as it is given, and what is no string is not read. -/
theorem stringValue_given (root : Json) (key : CString) :
    Json.stringValue (root.getObjectItem key) = Json.stringValue (given root key) := by
  rw [given]
  split
  · rename_i h
    rw [h]
    rfl
  · rfl

theorem isTrue_given (root : Json) (key : CString) :
    Json.isTrue (root.getObjectItem key) = Json.isTrue (given root key) := by
  rw [given]
  split
  · rename_i h
    rw [h]
    rfl
  · rfl

theorem given_of_stringValue {root : Json} {key s : CString}
    (h : Json.stringValue (root.getObjectItem key) = some s) :
    given root key = some (.string s) := by
  rw [stringValue_given] at h
  cases hgiven : given root key with
  | none =>
      rw [hgiven] at h
      cases h
  | some v =>
      rw [hgiven] at h
      cases v with
      | string t =>
          obtain rfl := Option.some.inj h
          rfl
      | _ => cases h

/-- A buffer holds a string as it is exactly when the string fits. -/
theorem snprintf_eq_iff {size : Nat} [NeZero size] {s : CString} :
    (snprintf size s).chars = s ↔ s.length < size := by
  constructor
  · intro h
    have hfits := (snprintf size s).fits
    rw [h] at hfits
    exact hfits
  · exact snprintf_of_lt

/-- An item that is added hides no other item. -/
theorem getObjectItem_addItem_of_ne {o item : Json} {name key : CString} (h : name ≠ key) :
    (o.addItem name item).getObjectItem key = o.getObjectItem key := by
  have hkey : (name == key) = false := beq_eq_false_iff_ne.mpr h
  cases o with
  | object fields => simp [Json.addItem, Json.getObjectItem, List.find?_append, hkey]
  | _ => rfl

/-- The entry of a definition shows what its document holds. -/
theorem getObjectItem_listedNode (ns : Nat) (d : ServerNodeDef) {key : CString}
    (h : "nodeIdString".toList ≠ key) :
    (listedNode ns d).getObjectItem key = (nodeToJson d).getObjectItem key :=
  getObjectItem_addItem_of_ne h

/-- The entry of a definition has its browse name. -/
theorem listsName_listedNode (b : CString) (ns : Nat) (d : ServerNodeDef) :
    listsName b (listedNode ns d) = (d.browseName.chars == b) := by
  have hbrowse := (getObjectItem_nodeToJson d).2.1
  rw [listsName, getObjectItem_listedNode ns d (by decide), hbrowse, Bool.eq_iff_iff]
  simp [Json.stringValue]

/-- The kind, the type and the flag of the new definition are the posted ones. -/
theorem PostedNode.definition_typed (p : PostedNode) :
    p.definition.kind.chars = (if p.typed.isSome then serverNodeKindVariable
      else serverNodeKindFolder) ∧
    p.definition.isVariable = p.typed.isSome ∧
    (∀ dt sim, p.typed = some (dt, sim) → p.definition.dataType = dt) ∧
    p.definition.simulation = p.typed.any Prod.snd := by
  rw [PostedNode.definition]
  cases p.typed with
  | none => exact ⟨rfl, isVariable_of_isFolder (isFolder_folderDef ..), nofun, rfl⟩
  | some v =>
      obtain ⟨dt, sim⟩ := v
      refine ⟨rfl, isVariable_variableDef .., fun dt' sim' h => ?_, rfl⟩
      obtain ⟨rfl, rfl⟩ := Prod.mk.inj (Option.some.inj h)
      rfl

/-- The strings of the new definition are the posted ones, as far as they fit. -/
theorem PostedNode.definition_strings (p : PostedNode) :
    p.definition.browseName = snprintf serverBrowseNameMax p.browse ∧
    p.definition.displayName = snprintf serverDisplayNameMax p.display ∧
    p.definition.parentBrowseName = snprintf serverBrowseNameMax p.parent := by
  rw [PostedNode.definition]
  cases p.typed <;> exact ⟨rfl, rfl, rfl⟩

/-! ### Field by field -/

section
variable {root : Json} {p : PostedNode}

/-- A name of a data type is the one that is shown for the type. -/
theorem toString_of_fromString {s : CString} {dt : ServerDataType}
    (h : serverDataTypeFromString s = some dt) : serverDataTypeToString dt = s := by
  rw [serverDataTypeFromString] at h
  repeat' split at h
  all_goals
    first
    | (rename_i hs
       obtain rfl := Option.some.inj h
       exact (beq_iff_eq.mp hs).symm)
    | cases h

/-- The display name is shown as it was given exactly when it fits. -/
theorem ReadAs.displayName_iff (h : ReadAs root p) :
    some (Json.string (snprintf serverDisplayNameMax p.display).chars)
        = given root "displayName".toList ↔
      ∀ s, given root "displayName".toList = some (.string s) →
        s.length < serverDisplayNameMax := by
  rw [given_of_stringValue h.display]
  constructor
  · intro hsame s hs
    obtain rfl := Json.string.inj (Option.some.inj hs)
    exact snprintf_eq_iff.mp (Json.string.inj (Option.some.inj hsame))
  · intro hfits
    rw [snprintf_of_lt (hfits _ rfl)]

/-- The parent is shown as it was given exactly when it is a string that fits. -/
theorem ReadAs.parent_iff (h : ReadAs root p) :
    some (Json.string (snprintf serverBrowseNameMax p.parent).chars)
        = some ((given root "parentBrowseName".toList).getD (.string [])) ↔
      ∀ v, given root "parentBrowseName".toList = some v →
        ∃ b, v = .string b ∧ b.length < serverBrowseNameMax := by
  have hparent := h.parent
  rw [stringValue_given] at hparent
  cases hgiven : given root "parentBrowseName".toList with
  | none =>
      rw [hgiven] at hparent
      have hnone : p.parent = [] := hparent.symm
      rw [hnone]
      exact iff_of_true rfl nofun
  | some v =>
      rw [hgiven] at hparent
      cases v with
      | string b =>
          have hsome : p.parent = b := hparent.symm
          rw [hsome, Option.getD_some, Option.some.injEq, Json.string.injEq, snprintf_eq_iff]
          simp
      | _ => simp

/-- A parent that fits is read as it is. -/
theorem ReadAs.length_parent (h : ReadAs root p)
    (hfits : ∀ v, given root "parentBrowseName".toList = some v →
      ∃ b, v = .string b ∧ b.length < serverBrowseNameMax) :
    p.parent.length < serverBrowseNameMax := by
  have hparent := h.parent
  rw [stringValue_given] at hparent
  cases hgiven : given root "parentBrowseName".toList with
  | none =>
      rw [hgiven] at hparent
      rw [← hparent]
      decide
  | some v =>
      obtain ⟨b, rfl, hlt⟩ := hfits v hgiven
      rw [hgiven] at hparent
      rwa [← hparent]

/-- The data type is shown as it was given exactly when it is a string. -/
theorem ReadAs.dataType_iff (h : ReadAs root p) {shown : Option Json}
    (hshown : shown = p.typed.map fun v => Json.string (serverDataTypeToString v.1)) :
    shown = (given root "dataType".toList).or
        (if p.typed.isSome then some (.string "Boolean".toList) else none) ↔
      ∀ v, given root "dataType".toList = some v → p.typed.isSome = true ∧ ∃ s, v = .string s := by
  subst hshown
  cases htyped : p.typed with
  | none => cases given root "dataType".toList <;> simp
  | some t =>
      obtain ⟨hdt, -⟩ := h.typed t htyped
      rw [postedType, stringValue_given] at hdt
      cases hgiven : given root "dataType".toList with
      | none =>
          rw [hgiven] at hdt
          -- Not given: the handler takes Boolean, which is the default.
          have hboolean : t.1 = .boolean := (Option.some.inj hdt).symm
          simp [hboolean, serverDataTypeToString]
      | some v =>
          rw [hgiven] at hdt
          cases v with
          | string s => simp [toString_of_fromString hdt]
          | _ => simp

/-- The flag is shown as it was given exactly when it is a Boolean, and false for a folder. -/
theorem ReadAs.simulation_iff (h : ReadAs root p) {shown : Bool}
    (hshown : shown = p.typed.any Prod.snd) :
    (if shown then some (Json.bool true) else none).getD (.bool false)
        = (given root "simulation".toList).getD (.bool false) ↔
      ∀ v, given root "simulation".toList = some v →
        ∃ b, v = .bool b ∧ (b = true → p.typed.isSome = true) := by
  have hbool : (if shown then some (Json.bool true) else none).getD (.bool false)
      = .bool shown := by
    cases shown <;> rfl
  rw [hbool, hshown]
  cases htyped : p.typed with
  -- A folder shows no flag, whatever was given for one.
  | none =>
      cases given root "simulation".toList with
      | none => simp
      | some v => cases v <;> simp
  | some t =>
      obtain ⟨-, hsim⟩ := h.typed t htyped
      rw [isTrue_given] at hsim
      cases hgiven : given root "simulation".toList with
      | none =>
          rw [hgiven] at hsim
          have hfalse : t.2 = false := hsim.symm
          simp [hfalse]
      | some v =>
          rw [hgiven] at hsim
          cases v with
          | bool b =>
              have hb : t.2 = b := hsim.symm
              simp [hb]
          | _ => simp

/-- The entry of the new definition carries the fields exactly when the strings fit and the others
have their types. -/
theorem carries_listedNode_iff (h : ReadAs root p) (ns : Nat) :
    Carries p.typed.isSome root (listedNode ns p.definition) ↔
      (∀ s, given root "displayName".toList = some (.string s) →
        s.length < serverDisplayNameMax) ∧
      (∀ v, given root "parentBrowseName".toList = some v →
        ∃ b, v = .string b ∧ b.length < serverBrowseNameMax) ∧
      (∀ v, given root "dataType".toList = some v →
        p.typed.isSome = true ∧ ∃ s, v = .string s) ∧
      ∀ v, given root "simulation".toList = some v →
        ∃ b, v = .bool b ∧ (b = true → p.typed.isSome = true) := by
  obtain ⟨hkind, -, hdisplay, hparent, htype, hsim, -⟩ := getObjectItem_nodeToJson p.definition
  obtain ⟨hk, hv, hdt, hs⟩ := p.definition_typed
  obtain ⟨-, hd, hp⟩ := p.definition_strings
  have hshown : (if p.definition.isVariable then
      some (Json.string (serverDataTypeToString p.definition.dataType)) else none)
        = p.typed.map fun v => Json.string (serverDataTypeToString v.1) := by
    rw [hv]
    cases htyped : p.typed with
    | none => rfl
    | some v => simp [hdt v.1 v.2 htyped]
  -- Each field of the entry is compared with the field of the request.
  rw [← h.displayName_iff, ← h.parent_iff, ← h.dataType_iff hshown, ← h.simulation_iff hs, ← hd,
    ← hp, ← hdisplay, ← hparent, ← htype, ← hsim]
  constructor
  · rintro ⟨-, hdisplay', hparent', htype', hsim'⟩
    rw [getObjectItem_listedNode ns _ (by decide)] at hdisplay' hparent' htype' hsim'
    exact ⟨hdisplay', hparent', htype', hsim'⟩
  · rintro ⟨hdisplay', hparent', htype', hsim'⟩
    refine ⟨?_, ?_, ?_, ?_, ?_⟩
    · rw [getObjectItem_listedNode ns _ (by decide), hkind, hk]
    · rwa [getObjectItem_listedNode ns _ (by decide)]
    · rwa [getObjectItem_listedNode ns _ (by decide)]
    · rwa [getObjectItem_listedNode ns _ (by decide)]
    · rwa [getObjectItem_listedNode ns _ (by decide)]

end

/-! ### A node that was accepted -/

variable {env : HttpEnv} {w w' : World} {host : Host} {p : PostedNode}

/-- A parent that is looked up is the named one exactly when the browse map knows it. -/
theorem resolveParent_eq_iff (hw : Sound w) (b : CString) :
    w.resolveParent b = (if b = [] then objectsFolder else w.nodeIdOf b) ↔
      b = [] ∨ w.InMap b := by
  rw [World.resolveParent]
  by_cases hnil : b = []
  · rw [if_pos hnil, if_pos hnil]
    exact iff_of_true rfl (Or.inl hnil)
  · rw [if_neg hnil, if_neg hnil, or_iff_right hnil, ← mapFind_ne_none]
    cases hfind : w.mapFind b with
    | none => exact iff_of_false nofun fun h => h rfl
    | some e =>
        obtain ⟨he, rfl⟩ := mem_of_mapFind hfind
        exact iff_of_true (hw.map_id e he) nofun

/-- Both additions check the browse name. -/
theorem PostedNode.valid_of_checks (h : (p.op host).checks w) :
    serverConfigValidateBrowseName p.browse = true := by
  rw [PostedNode.op] at h
  cases hp : p.typed with
  | none =>
      rw [hp] at h
      exact h.1
  | some v =>
      rw [hp] at h
      exact h.1

/-- After an addition with room for it, exactly one entry has the new browse name. -/
theorem filter_nodesDocument {nodes : List ServerNodeDef} {d : ServerNodeDef} (ns : Nat)
    (hnew : ∀ x ∈ nodes, x.browseName.chars ≠ d.browseName.chars) :
    ((nodes ++ [d]).map (listedNode ns)).filter (listsName d.browseName.chars)
      = [listedNode ns d] := by
  have hold : ∀ o ∈ nodes.map (listedNode ns), ¬ listsName d.browseName.chars o = true := by
    intro o ho
    obtain ⟨x, hx, rfl⟩ := List.mem_map.mp ho
    rw [listsName_listedNode, beq_iff_eq]
    exact hnew x hx
  have hself : listsName d.browseName.chars (listedNode ns d) = true := by
    rw [listsName_listedNode, beq_self_eq_true]
  rw [List.map_append, List.filter_append, List.filter_eq_nil_iff.mpr hold, List.nil_append,
    List.map_singleton, List.filter_singleton, hself]
  rfl

/-- The node of an addition, in the world after the save. -/
theorem Created.appended_node {cjson : CJson} {io : SaveIo} {w₁ : World} {d : ServerNodeDef}
    (hc : Created host d w w₁) (hw' : w' = appendAndSave cjson io d w₁) :
    w'.nm.nsIdx = w.nm.nsIdx ∧ ∃ n, w'.space.find (w.nodeIdOf d.browseName.chars) = some n ∧
      n.parent = w.resolveParent d.parentBrowseName.chars := by
  obtain ⟨n, hn, hparent, -⟩ := hc.self
  rw [hw', appendAndSave_eq]
  exact ⟨hc.nsIdx, n, hn, hparent⟩

/-- Without a name that is cut, the parent is the named one exactly when the browse map knows it. -/
theorem ReadAs.attached_iff {root : Json} (h : ReadAs root p) (hw : Sound w) :
    w.resolveParent p.parent = namedParent root w ↔ p.parent = [] ∨ w.InMap p.parent := by
  have hparent := h.parent
  have hnamed : namedParent root w = if p.parent = [] then objectsFolder
      else w.nodeIdOf p.parent := by
    rw [stringValue_given] at hparent
    rw [namedParent, ← hparent]
    cases given root "parentBrowseName".toList with
    | none => rfl
    | some v =>
        cases v with
        | string b => cases b <;> rfl
        | _ => rfl
  rw [hnamed]
  exact resolveParent_eq_iff hw p.parent

/-- A parent that is given as it is read. -/
theorem ReadAs.parentFits_iff {root : Json} (h : ReadAs root p) :
    (∀ v, given root "parentBrowseName".toList = some v → ParentFits w v) ↔
      (∀ v, given root "parentBrowseName".toList = some v →
        ∃ b, v = .string b ∧ b.length < serverBrowseNameMax) ∧
      (p.parent = [] ∨ w.InMap p.parent) := by
  have hparent := h.parent
  rw [stringValue_given] at hparent
  cases hgiven : given root "parentBrowseName".toList with
  | none =>
      rw [hgiven] at hparent
      have hnone : p.parent = [] := hparent.symm
      simp [hnone]
  | some v =>
      rw [hgiven] at hparent
      cases v with
      | string b =>
          have hsome : p.parent = b := hparent.symm
          simp [ParentFits, hsome]
      | _ => simp [ParentFits]

/-- **A posted node** that was accepted with room for it is stored as it was given exactly when
what was given fits. -/
theorem nodeStored_iff {root : Json} (hread : ReadAs root p) (hw : Sound w)
    (hroom : w.nm.config.nodes.length < serverMaxNodes)
    (hrun : (perform env.cjson (p.op host)).run w = .ok (.good, w')) :
    NodeStored p.typed.isSome root w' ↔ NodeFits p.typed.isSome root w := by
  obtain ⟨rc, w₂, hrun', hadded⟩ := step_adds env.cjson (p.op_adds host) hw.mutex
  obtain ⟨rfl, hw₂⟩ := run_unique hrun hrun'
  cases hadded with
  | refused _ hrc _ => exact absurd rfl hrc
  | added w₁ hchecks hc =>
      obtain ⟨hbrowse, -, hparent⟩ := p.definition_strings
      have hname : p.definition.browseName.chars = p.browse := by
        rw [hbrowse]
        exact snprintf_of_lt (length_lt_of_valid (PostedNode.valid_of_checks hchecks))
      have hlisted : (nodesDocument w').filter (listsName p.browse)
          = [listedNode w'.nm.nsIdx p.definition] := by
        rw [nodesDocument, hc.appended_nodes hw₂, if_pos hroom, ← hname]
        exact filter_nodesDocument _ (not_has_of_checks (p.op_adds host) hchecks)
      obtain ⟨hns, n, hn, hresolved⟩ := hc.appended_node hw₂
      rw [hname] at hn
      have hnamed : namedParent root w' = namedParent root w := by
        rw [namedParent, namedParent]
        split
        · rw [nodeIdOf_congr hns]
        · rfl
      have hattached : (∃ n, w'.space.find (w'.nodeIdOf p.browse) = some n ∧
          n.parent = namedParent root w') ↔
          w.resolveParent p.definition.parentBrowseName.chars = namedParent root w := by
        rw [nodeIdOf_congr hns, hnamed, hn, ← hresolved]
        simp
      have hentry : (∃ o, (nodesDocument w').filter (listsName p.browse) = [o] ∧
          Carries p.typed.isSome root o) ↔
            Carries p.typed.isSome root (listedNode w'.nm.nsIdx p.definition) := by
        rw [hlisted]
        simp
      have hgiven : NodeStored p.typed.isSome root w' ↔
          Carries p.typed.isSome root (listedNode w'.nm.nsIdx p.definition) ∧
            w.resolveParent p.definition.parentBrowseName.chars = namedParent root w := by
        rw [NodeStored, given_of_stringValue hread.browse, ← hentry, ← hattached]
        simp
      rw [hgiven, carries_listedNode_iff hread]
      constructor
      · rintro ⟨⟨hdisplay, hfits, htype, hsim⟩, hresolve⟩
        -- A parent name that is not cut is looked up as it was named.
        rw [hparent, snprintf_of_lt (hread.length_parent hfits)] at hresolve
        exact ⟨hdisplay, hread.parentFits_iff.mpr ⟨hfits, (hread.attached_iff hw).mp hresolve⟩,
          htype, hsim⟩
      · rintro ⟨hdisplay, hparents, htype, hsim⟩
        obtain ⟨hfits, hknown⟩ := hread.parentFits_iff.mp hparents
        refine ⟨⟨hdisplay, hfits, htype, hsim⟩, ?_⟩
        rw [hparent, snprintf_of_lt (hread.length_parent hfits)]
        exact (hread.attached_iff hw).mpr hknown

/-! ### The handlers -/

/-- An error is no success. -/
theorem status_sendErrorJson_ne {msg : CString} {r : Reply}
    (h : sendErrorJson env host httpBadRequest msg = some r) : r.status ≠ httpOk := by
  obtain ⟨text, -, rfl⟩ := Option.map_eq_some_iff.mp h
  show httpBadRequest ≠ httpOk
  decide

/-- A handler that answers with an error at once has not succeeded. -/
theorem not_ok_of_return {msg : CString} {r : Reply}
    (h : (pure (sendErrorJson env host httpBadRequest msg) : M (Option Reply)).run w
      = .ok (some r, w')) : r.status ≠ httpOk :=
  status_sendErrorJson_ne (ok_of_run_return h).1.symm

/-- A handler that reports the failure of an operation succeeds with the operation. -/
theorem good_of_reported {op : M StatusCode} {failure : StatusCode → CString} {doc : Json}
    {r : Reply}
    (h : (do
      let rc ← op
      if rc ≠ .good then return sendErrorJson env host httpBadRequest (failure rc)
      sendUnchecked env host doc : M (Option Reply)).run w = .ok (some r, w'))
    (hok : r.status = httpOk) : op.run w = .ok (.good, w') := by
  obtain ⟨rc, w₁, hrun, hrest⟩ := ok_of_run_bind h
  by_cases hrc : rc = .good
  · rw [if_neg (not_not.mpr hrc)] at hrest
    obtain rfl := (ok_of_run_sendUnchecked env hrest).2
    exact hrc ▸ hrun
  · rw [if_pos hrc] at hrest
    exact absurd hok (not_ok_of_return hrest)

/-- `POST /api/nodes/folder` succeeds when the addition of the folder does that it reads. -/
theorem posted_of_postFolder {body : CString} {r : Reply}
    (h : (handlePostFolder env host body).run w = .ok (some r, w')) (hok : r.status = httpOk) :
    ∃ root p, env.cjson.parse body = some root ∧ ReadAs root p ∧ p.typed.isSome = false ∧
      (perform env.cjson (p.op host)).run w = .ok (.good, w') := by
  rw [handlePostFolder] at h
  split at h
  · exact absurd hok (not_ok_of_return h)
  · rename_i root hparse
    dsimp only at h
    split at h
    · rename_i browse display hbrowse hdisplay
      let parent := (Json.stringValue (root.getObjectItem "parentBrowseName".toList)).getD []
      have htyped : ∀ v, (none : Option (ServerDataType × Bool)) = some v →
          postedType root = some v.1 ∧
            Json.isTrue (root.getObjectItem "simulation".toList) = v.2 := by
        intro v hv
        cases hv
      refine ⟨root, ⟨parent, browse, display, none⟩, hparse, ⟨hbrowse, hdisplay, rfl, htyped⟩,
        rfl, ?_⟩
      split at h
      · exact absurd hok (not_ok_of_return h)
      · -- An addition that fails is answered with 400, so that this one has succeeded.
        exact good_of_reported h hok
    · exact absurd hok (not_ok_of_return h)

/-- `POST /api/nodes/variable` likewise. -/
theorem posted_of_postVariable {body : CString} {r : Reply}
    (h : (handlePostVariable env host body).run w = .ok (some r, w')) (hok : r.status = httpOk) :
    ∃ root p, env.cjson.parse body = some root ∧ ReadAs root p ∧ p.typed.isSome = true ∧
      (perform env.cjson (p.op host)).run w = .ok (.good, w') := by
  rw [handlePostVariable] at h
  split at h
  · exact absurd hok (not_ok_of_return h)
  · rename_i root hparse
    dsimp only at h
    split at h
    · rename_i browse display hbrowse hdisplay
      split at h
      · exact absurd hok (not_ok_of_return h)
      · split at h
        · exact absurd hok (not_ok_of_return h)
        · -- The last branch that answers with 200: the node manager has returned `good`.
          rename_i dt hdt
          let parent := (Json.stringValue (root.getObjectItem "parentBrowseName".toList)).getD []
          let sim := Json.isTrue (root.getObjectItem "simulation".toList)
          refine ⟨root, ⟨parent, browse, display, some (dt, sim)⟩, hparse,
            ⟨hbrowse, hdisplay, rfl, ?_⟩, rfl, ?_⟩
          · rintro _ ⟨⟩
            exact ⟨hdt, rfl⟩
          · split at h
            · exact absurd hok (not_ok_of_return h)
            · exact good_of_reported h hok
    · exact absurd hok (not_ok_of_return h)

/-- `PUT /api/config` succeeds when the body has a namespace, and stores what fits of it. -/
theorem submitted_of_putConfig {body : CString} {r : Reply} (hm : w.nm.mutexHeld = false)
    (h : (handlePutConfig env host body).run w = .ok (some r, w')) (hok : r.status = httpOk) :
    ∃ root ns, env.cjson.parse body = some root ∧
      given root "namespaceUri".toList = some (.string ns) ∧
      w'.nm.config.namespaceUri = snprintf serverNamespaceMax ns := by
  rw [handlePutConfig] at h
  split at h
  · exact absurd hok (not_ok_of_return h)
  · rename_i root hparse
    split at h
    · exact absurd hok (not_ok_of_return h)
    · rename_i ns hns
      rw [run_bind_ok (putNamespaceUri_run env host.save ns hm)] at h
      obtain rfl := (ok_of_run_sendUnchecked env h).2
      exact ⟨root, ns, hparse, given_of_stringValue hns, rfl⟩

/-- **A namespace** that was accepted is stored as it was given exactly when it fits. -/
theorem namespaceStored_iff {root : Json} {ns : CString}
    (hgiven : given root "namespaceUri".toList = some (.string ns))
    (h : w'.nm.config.namespaceUri = snprintf serverNamespaceMax ns) :
    Route.putConfig.StoredIn env root w' ↔ Route.putConfig.Fits root w := by
  show some (Json.string w'.nm.config.namespaceUri.chars) = given root "namespaceUri".toList ↔ _
  rw [Route.Fits, hgiven, h, Option.some.injEq, Json.string.injEq, snprintf_eq_iff]
  simp

/-! ### The requests -/

/-- A request that a handler answers: the response is queued, and the world is the one that the
handler leaves. -/
theorem request_run_of_route {handler : M (Option Reply)} {method url : CString}
    {chunks : List (List Char)} (hm : method ≠ "OPTIONS".toList)
    (hroute : route env host method url (requestBody method chunks) = nodeManager handler)
    (s : HttpServer) :
    (request env host method url chunks).run s
      = (handler.run s.world).map fun q =>
          (q.1.or (fallback env host method url), { s with world := q.2 }) := by
  rw [request_eq, if_neg hm, respond, hroute, StateT.run_bind]
  show ((handler.run s.world).bind fun q => .ok (q.1, { s with world := q.2 })).bind _ = _
  cases handler.run s.world <;> rfl

/-- The documents that the server shows, when there is memory for their texts. -/
structure Shows (env : HttpEnv) (s : HttpServer) : Prop where
  nodes : ∀ host chunks, host.prints (.array (nodesDocument s.world)) = true →
    (request env host "GET".toList "/api/nodes".toList chunks).run s
      = .ok (some (sendJson httpOk (env.printUnformatted (.array (nodesDocument s.world)))), s)
  config : ∀ host chunks, host.prints (configDocument env s.world) = true →
    (request env host "GET".toList "/api/config".toList chunks).run s
      = .ok (some (sendJson httpOk (env.printUnformatted (configDocument env s.world))), s)

/-- With a free mutex, the two `GET` requests show their documents and change nothing. -/
theorem shows_of_free {s : HttpServer} (hm : s.world.nm.mutexHeld = false) : Shows env s where
  nodes host chunks hprints := by
    have hrun : (handleGetNodes env host).run s.world = .ok (some (sendJson httpOk
        (env.printUnformatted (.array (nodesDocument s.world)))), s.world) := by
      rw [handleGetNodes, run_bind_ok (lock_run hm), run_get_bind, run_unlock_bind, run_return,
        setMutex_setMutex, setMutex_of_eq hm]
      show Except.ok (sendPrinted env host (.array (nodesDocument s.world)), s.world) = _
      rw [sendPrinted, print, if_pos hprints]
      rfl
    rw [request_run_of_route (by decide) rfl, hrun]
    rfl
  config host chunks hprints := by
    have hrun : (handleGetConfig env host).run s.world = .ok (some (sendJson httpOk
        (env.printUnformatted (configDocument env s.world))), s.world) := by
      show Except.ok (sendPrinted env host (configDocument env s.world), s.world) = _
      rw [sendPrinted, print, if_pos hprints]
      rfl
    rw [request_run_of_route (by decide) rfl, hrun]
    rfl

/-- The handler behind a route that stores something. -/
def Route.handler (env : HttpEnv) (host : Host) (body : CString) : Route → M (Option Reply)
  | .postFolder => handlePostFolder env host body
  | .postVariable => handlePostVariable env host body
  | .putConfig => handlePutConfig env host body

/-- When no route takes a request with a body, it is not found. -/
theorem Route.fallback_eq (route : Route) (host : Host) : fallback env host route.method route.url
    = sendErrorJson env host httpNotFound "not found".toList := by
  cases route <;> exact if_neg (by decide)

/-- A request on such a route that succeeds runs the handler, which answers. -/
theorem Route.run_request (route : Route) {chunks : List (List Char)} {s s' : HttpServer}
    {r : Reply} (h : (request env host route.method route.url chunks).run s = .ok (some r, s'))
    (hok : r.status = httpOk) :
    (route.handler env host (requestBody route.method chunks)).run s.world
      = .ok (some r, s'.world) := by
  have hrun : (request env host route.method route.url chunks).run s
      = ((route.handler env host (requestBody route.method chunks)).run s.world).map fun q =>
          (q.1.or (fallback env host route.method route.url), { s with world := q.2 }) := by
    cases route <;> exact request_run_of_route (by decide) rfl s
  rw [hrun] at h
  cases hhandler : (route.handler env host (requestBody route.method chunks)).run s.world with
  | error e =>
      rw [hhandler] at h
      cases h
  | ok q =>
      obtain ⟨res, w⟩ := q
      rw [hhandler] at h
      obtain ⟨hreply, rfl⟩ := Prod.mk.inj (Except.ok.inj h)
      cases res with
      | some r' => rw [← hreply, Option.some_or]
      | none =>
          -- The answer is that nothing was found.
          rw [Option.none_or, route.fallback_eq] at hreply
          obtain ⟨text, -, rfl⟩ := Option.map_eq_some_iff.mp hreply
          have hne : httpNotFound ≠ httpOk := by decide
          exact absurd hok hne

/-- A handler that succeeds in a sound state has read a document, and what this gives is stored as
it was given exactly when it fits. -/
theorem Route.storedIn_iff (route : Route) (hw : Sound w)
    (hroom : w.nm.config.nodes.length < serverMaxNodes) {body : CString} {r : Reply}
    (h : (route.handler env host body).run w = .ok (some r, w')) (hok : r.status = httpOk) :
    ∃ root, env.cjson.parse body = some root ∧
      (route.StoredIn env root w' ↔ route.Fits root w) := by
  cases route with
  | postFolder =>
      obtain ⟨root, p, hparse, hread, htyped, hrun⟩ := posted_of_postFolder h hok
      have hiff := nodeStored_iff hread hw hroom hrun
      rw [htyped] at hiff
      exact ⟨root, hparse, hiff⟩
  | postVariable =>
      obtain ⟨root, p, hparse, hread, htyped, hrun⟩ := posted_of_postVariable h hok
      have hiff := nodeStored_iff hread hw hroom hrun
      rw [htyped] at hiff
      exact ⟨root, hparse, hiff⟩
  | putConfig =>
      obtain ⟨root, ns, hparse, hgiven, hstored⟩ := submitted_of_putConfig hw.mutex h hok
      exact ⟨root, hparse, namespaceStored_iff hgiven hstored⟩

/-- The same for the request, along with the documents that the server shows afterwards. -/
theorem stored_iff_of_sound {s s' : HttpServer} (hw : Sound s.world)
    (hroom : s.world.nm.config.nodes.length < serverMaxNodes) (route : Route)
    {chunks : List (List Char)} {r : Reply}
    (hreq : (request env host route.method route.url chunks).run s = .ok (some r, s'))
    (hok : r.status = httpOk) :
    Shows env s' ∧ ∃ root, env.cjson.parse (requestBody route.method chunks) = some root ∧
      (route.StoredIn env root s'.world ↔ route.Fits root s.world) := by
  have hstep : stepEvent env s (.request host route.method route.url chunks) = some s' := by
    rw [stepEvent, handleEvent, StateT.run_bind, hreq]
    rfl
  refine ⟨shows_of_free (sound_stepEvent hw hstep).mutex, ?_⟩
  exact route.storedIn_iff hw hroom (route.run_request hreq hok) hok

/-- **What is accepted and what is stored.** In any state of a running server with room in its
configuration, a request that is answered with status 200 has a document, the server shows its own
documents afterwards, and what the request gives is stored as it was given exactly when its strings
fit, its other fields have their types, and the browse map knows the parent. -/
theorem stored_iff {host₀ : Host} {nsIdx : Nat} {cfg : ServerConfig} {file : Option CString}
    {flag : Bool} {s s' : HttpServer} {es : List Event}
    (hstart : start host₀ nsIdx cfg file = some w)
    (hr : run (stepEvent env) ⟨w, flag⟩ es = some s)
    (hroom : s.world.nm.config.nodes.length < serverMaxNodes) (route : Route)
    {chunks : List (List Char)} {r : Reply}
    (hreq : (request env host route.method route.url chunks).run s = .ok (some r, s'))
    (hok : r.status = httpOk) :
    Shows env s' ∧ ∃ root, env.cjson.parse (requestBody route.method chunks) = some root ∧
      (route.StoredIn env root s'.world ↔ route.Fits root s.world) :=
  stored_iff_of_sound (sound_of_events hstart hr) hroom route hreq hok

/-! ### Two requests -/

/-- A name of `n` letters. -/
def longName (n : Nat) : CString := List.replicate n 'a'

/-- The document of a folder. -/
def folderDoc (parent b : CString) : Json :=
  .object [("browseName".toList, .string b), ("displayName".toList, .string b),
    ("parentBrowseName".toList, .string parent)]

/-- A folder with the longest name that is valid, a folder below `Sensors`, and one whose parent
has a name of one letter more than the first. -/
def folderDocs : List Json :=
  [folderDoc [] (longName 63), folderDoc "Sensors".toList "Line1".toList,
    folderDoc (longName 64) "Line1".toList]

/-- An environment whose cJSON reads these documents. -/
def folderEnv : HttpEnv := { HttpEnv.knowing .null with cjson := .knowingEach folderDocs }

/-- The body of the request for such a folder. -/
def folderChunks (parent b : CString) : List (List Char) := [(folderDoc parent b).text 0]

set_option maxRecDepth 10000 in
theorem parse_line : folderEnv.cjson.parse (requestBody "POST".toList
    (folderChunks "Sensors".toList "Line1".toList))
      = some (folderDoc "Sensors".toList "Line1".toList) := by
  rfl

set_option maxRecDepth 10000 in
theorem parse_longParent : folderEnv.cjson.parse (requestBody "POST".toList
    (folderChunks (longName 64) "Line1".toList))
      = some (folderDoc (longName 64) "Line1".toList) := by
  rfl

set_option maxRecDepth 10000 in
/-- A folder below `Sensors` is stored as it was given. -/
theorem stored_line : ∃ w r s', start .ok 1 serverConfigSeedDefaults none = some w ∧
    (request folderEnv .ok "POST".toList "/api/nodes/folder".toList
      (folderChunks "Sensors".toList "Line1".toList)).run ⟨w, false⟩ = .ok (some r, s') ∧
    r.status = httpOk ∧ Route.postFolder.StoredIn folderEnv
      (folderDoc "Sensors".toList "Line1".toList) s'.world := by
  -- The request is answered with 200, and `Sensors` is in the browse map when it comes.
  have hcheck : ((start .ok 1 serverConfigSeedDefaults none).any fun w =>
      decide (w.nm.config.nodes.length < serverMaxNodes) &&
      decide (w.mapFind "Sensors".toList ≠ none) &&
      queuedStatus ((request folderEnv .ok "POST".toList "/api/nodes/folder".toList
        (folderChunks "Sensors".toList "Line1".toList)).run ⟨w, false⟩) = some httpOk) = true := by
    decide
  obtain ⟨w, hw, hcheck⟩ := (Option.any_eq_true _ _).mp hcheck
  simp only [Bool.and_eq_true, decide_eq_true_eq] at hcheck
  obtain ⟨⟨hroom, hparent⟩, hstatus⟩ := hcheck
  obtain ⟨r, s', hrun, hok⟩ := ok_of_queuedStatus hstatus
  refine ⟨w, r, s', hw, hrun, hok, ?_⟩
  have hnil : run (stepEvent folderEnv) ⟨w, false⟩ [] = some ⟨w, false⟩ := rfl
  obtain ⟨-, root, hroot, hiff⟩ := stored_iff hw hnil hroom .postFolder hrun hok
  obtain rfl := Option.some.inj (hroot.symm.trans parse_line)
  exact hiff.mpr
    { displayName := by
        rintro s ⟨⟩
        decide
      parentBrowseName := by
        rintro v ⟨⟩
        exact ⟨_, rfl, by decide, .inr (mapFind_ne_none.mp hparent)⟩
      dataType := nofun
      simulation := nofun }

/-- A run that has a result was no fault. -/
theorem ok_of_toOption {ε α : Type} {r : Except ε α} {a : α} (h : r.toOption = some a) :
    r = .ok a := by
  cases r with
  | error e => cases h
  | ok b => rw [Option.some.inj h]

set_option maxRecDepth 10000 in
/-- With the folder of 63 letters in place, `Line1` is posted below a name of 64 letters. The
request is answered with status 200, and `Line1` goes below the folder of 63 letters. -/
theorem not_stored_longParent : ∃ w s r s',
    start .ok 1 serverConfigSeedDefaults none = some w ∧
    run (stepEvent folderEnv) ⟨w, false⟩ [.request .ok "POST".toList "/api/nodes/folder".toList
      (folderChunks [] (longName 63))] = some s ∧
    s.world.nm.config.nodes.length < serverMaxNodes ∧
    (request folderEnv .ok "POST".toList "/api/nodes/folder".toList
      (folderChunks (longName 64) "Line1".toList)).run s = .ok (some r, s') ∧
    r.status = httpOk ∧
    (s'.world.space.find (.string 1 "Line1".toList)).map UaNode.parent
      = some (.string 1 (longName 63)) ∧
    ¬ Route.postFolder.StoredIn folderEnv (folderDoc (longName 64) "Line1".toList) s'.world := by
  have hcheck : ((start .ok 1 serverConfigSeedDefaults none).any fun w =>
      (run (stepEvent folderEnv) ⟨w, false⟩ [.request .ok "POST".toList
          "/api/nodes/folder".toList (folderChunks [] (longName 63))]).any fun s =>
        decide (s.world.nm.config.nodes.length < serverMaxNodes) &&
        ((request folderEnv .ok "POST".toList "/api/nodes/folder".toList
          (folderChunks (longName 64) "Line1".toList)).run s).toOption.any fun q =>
            q.1.any (fun r => r.status = httpOk) &&
            decide ((q.2.world.space.find (.string 1 "Line1".toList)).map UaNode.parent
              = some (.string 1 (longName 63)))) = true := by
    decide
  obtain ⟨w, hw, hcheck⟩ := (Option.any_eq_true _ _).mp hcheck
  obtain ⟨s, hs, hcheck⟩ := (Option.any_eq_true _ _).mp hcheck
  rw [Bool.and_eq_true, decide_eq_true_eq] at hcheck
  obtain ⟨hroom, hcheck⟩ := hcheck
  obtain ⟨⟨reply, s'⟩, hrun, hcheck⟩ := (Option.any_eq_true _ _).mp hcheck
  rw [Bool.and_eq_true, decide_eq_true_eq, Option.any_eq_true] at hcheck
  obtain ⟨⟨r, rfl, hok⟩, hparent⟩ := hcheck
  have hrun := ok_of_toOption hrun
  have hok := of_decide_eq_true hok
  refine ⟨w, s, r, s', hw, hs, hroom, hrun, hok, hparent, fun hstored => ?_⟩
  obtain ⟨-, root, hroot, hiff⟩ := stored_iff_of_sound (sound_of_events hw hs) hroom .postFolder
    hrun hok
  obtain rfl := Option.some.inj (hroot.symm.trans parse_longParent)
  -- Stored as given, the name would have fewer than 64 characters.
  obtain ⟨b, hb, hlong, -⟩ := (hiff.mp hstored).parentBrowseName (.string (longName 64)) rfl
  obtain rfl := Json.string.inj hb
  revert hlong
  decide

end SmartFactory.Server
