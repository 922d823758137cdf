import SmartFactory.Lib.Forest
import SmartFactory.Proofs.Filling

/-!
# `SmartFactory.Proofs.Hierarchy`: the definitions form a forest

A configuration is a flat list, and each definition names its parent. `WellFormed` says that
the names are valid and that the list is a forest (`SmartFactory.Forest`) whose inner nodes
are folders.

Deletions keep it so, for a node with children is not deleted. Additions look at the new name
only: an unknown parent, a variable or the new node itself is recorded as the parent without
a word. `wellFormed_iff` names the additions that break the forest. In a well-formed
configuration everything except the simulation switch and its ancestors can be deleted,
leaves first (`removable`).
-/

set_option autoImplicit false

namespace SmartFactory.Server

open Run Relation Forest

/-- The browse name as a key. -/
def ServerNodeDef.name (d : ServerNodeDef) : CString := d.browseName.chars

/-- The parent that a definition names, if it names one. -/
def ServerNodeDef.parentName (d : ServerNodeDef) : Option CString :=
  if d.parentBrowseName.chars = [] then none else some d.parentBrowseName.chars

/-- The browse names are valid and distinct, every parent is a folder of the list, and nobody
is its own ancestor. -/
structure WellFormed (nodes : List ServerNodeDef) : Prop where
  valid : ∀ d ∈ nodes, serverConfigValidateBrowseName d.browseName.chars = true
  forest : IsForest ServerNodeDef.name ServerNodeDef.parentName (·.isFolder = true) nodes

/-- The definition is a simulation switch or an ancestor of one. -/
def Protected (nodes : List ServerNodeDef) (d : ServerNodeDef) : Prop :=
  d.isSimulationSwitch = true ∨ ∃ s ∈ nodes, s.isSimulationSwitch = true ∧
    TransGen (Below ServerNodeDef.name ServerNodeDef.parentName nodes) d s

/-- A deletion that succeeds. -/
def stepDelete (cjson : CJson) (host : Host) (w : World) (b : CString) : Option World :=
  match (nodeManagerDelete cjson host b).run w with
  | .ok (.good, w') => some w'
  | _ => none

/-- Successful deletions can remove every definition except the protected ones. A node with
children is not deleted, so they remove leaves first. -/
def Removable (cjson : CJson) (w : World) : Prop :=
  ∀ host, ∃ bs w', run (stepDelete cjson host) w bs = some w' ∧
    ∀ d, d ∈ w'.nm.config.nodes ↔ d ∈ w.nm.config.nodes ∧ Protected w.nm.config.nodes d

/-- A definition that is appended names no parent or an existing folder. -/
def ParentsExist (w : World) (op : Op) : Prop :=
  ∀ host d, Creates w op host d → w.nm.config.nodes.length < serverMaxNodes →
    d.parentBrowseName.chars ≠ [] →
    ∃ p ∈ w.nm.config.nodes, p.isFolder = true ∧
      p.browseName.chars = d.parentBrowseName.chars

variable {cjson : CJson} {w w' : World} {host : Host} {nodes : List ServerNodeDef}
variable {d : ServerNodeDef} {b : CString}

/-- A valid name is not empty. -/
theorem ne_nil_of_valid (h : serverConfigValidateBrowseName b = true) : b ≠ [] := by
  rintro rfl
  cases h

/-- Somebody names `b` as the parent exactly when the scan for children finds it. -/
theorem parentName_eq_some (hb : b ≠ []) :
    d.parentName = some b ↔ d.parentBrowseName.chars = b := by
  rw [ServerNodeDef.parentName]
  split
  · rename_i hnil
    exact iff_of_false nofun fun he => hb (he.symm.trans hnil)
  · rw [Option.some.injEq]

/-- The scan for children finds nothing exactly when nobody names the parent. -/
theorem hasChildrenInConfig_eq_false (hb : b ≠ []) :
    hasChildrenInConfig w.nm.config b = false ↔
      ∀ d ∈ w.nm.config.nodes, d.parentName ≠ some b := by
  rw [hasChildrenInConfig, List.any_eq_false]
  refine forall₂_congr fun d _ => ?_
  rw [beq_iff_eq, Ne, parentName_eq_some hb]

/-! ### Appending and removing -/

/-- A definition with a new valid name may be appended exactly when its parent is there. -/
theorem wellFormed_append_iff (h : WellFormed nodes)
    (hvalid : serverConfigValidateBrowseName d.browseName.chars = true)
    (hnew : ∀ d' ∈ nodes, d'.browseName.chars ≠ d.browseName.chars) :
    WellFormed (nodes ++ [d]) ↔ (d.parentBrowseName.chars ≠ [] →
      ∃ p ∈ nodes, p.isFolder = true ∧ p.browseName.chars = d.parentBrowseName.chars) := by
  have hkey : d.name ∉ nodes.map ServerNodeDef.name := by
    intro hmem
    obtain ⟨d', hd', he⟩ := List.mem_map.mp hmem
    exact hnew d' hd' he
  -- The names stay valid either way, so that the forest alone decides.
  have happend := isForest_append_iff h.forest hkey
  have hnames : ∀ x ∈ nodes ++ [d],
      serverConfigValidateBrowseName x.browseName.chars = true := by
    intro x hx
    rcases List.mem_append.mp hx with hx | hx
    · exact h.valid x hx
    · rw [List.mem_singleton] at hx
      exact hx ▸ hvalid
  constructor
  · intro hwell hne
    exact happend.mp hwell.forest _ (if_neg hne)
  · intro hparent
    refine ⟨hnames, happend.mpr fun k hk => ?_⟩
    rw [ServerNodeDef.parentName] at hk
    split at hk
    · cases hk
    · rename_i hne
      obtain rfl := Option.some.inj hk
      exact hparent hne

/-- Removing a definition without children keeps the list well formed. -/
theorem WellFormed.eraseP (h : WellFormed nodes) (hleaf : ∀ d ∈ nodes, d.parentName ≠ some b) :
    WellFormed (nodes.eraseP (fun d => d.browseName.chars == b)) where
  valid := fun d hd => h.valid d (List.eraseP_sublist.subset hd)
  forest := h.forest.eraseP hleaf

/-- The name of a deleted definition is not empty. -/
theorem Deletes.ne_nil {op : Op} {idx : Nat} (hwell : WellFormed w.nm.config.nodes)
    (h : Deletes w op host b idx) : b ≠ [] := by
  obtain ⟨hlt, hname, -⟩ := List.findIdx?_eq_some_iff_getElem.mp h.index
  have hvalid := hwell.valid _ (List.getElem_mem hlt)
  rw [eq_of_beq hname] at hvalid
  exact ne_nil_of_valid hvalid

/-- **One step.** From a well-formed configuration a step leads to one exactly when what it
appends has its parent. -/
theorem wellFormed_step_iff (hw : Sound w) (hwell : WellFormed w.nm.config.nodes) {op : Op}
    (hop : op.isStructural = true) (h : stepOp cjson w op = some w') :
    WellFormed w'.nm.config.nodes ↔ ParentsExist w op := by
  cases stepKind_of_structural hw hop h with
  | quiet _ hsame hrefused _ =>
      rw [hsame hop]
      refine iff_of_true hwell fun host d hcreates => ?_
      exact absurd hcreates.accepted (hrefused host d hcreates.adds hcreates.checks hcreates.fresh)
  | added host d w₁ hadds hchecks hc hw' =>
      have hcreates : Creates w op host d := ⟨hadds, hchecks, hc.fresh, hc.accepted⟩
      rw [hc.appended_nodes hw']
      split
      · rename_i hroom
        rw [wellFormed_append_iff hwell (name_of_checks hadds hchecks).1
          (not_has_of_checks hadds hchecks)]
        constructor
        · intro hparent host' d' hcreates' _
          obtain ⟨rfl, rfl⟩ := adds_inj hadds hcreates'.adds
          exact hparent
        · exact fun hguard => hguard host d hcreates hroom
      -- A full configuration stays as it is.
      · rename_i hfull
        exact iff_of_true hwell fun _ _ _ hroom => absurd hroom hfull
  | removed host b idx hdel hremoved =>
      rw [hremoved.nodes hdel.index]
      refine iff_of_true (hwell.eraseP ?_) fun host' d' hcreates => ?_
      · exact (hasChildrenInConfig_eq_false (hdel.ne_nil hwell)).mp hdel.children
      · rw [hdel.op] at hcreates
        cases hcreates.adds

/-! ### Deleting leaves first -/

/-- The parent of a protected definition is protected. -/
theorem Protected.parent {p : ServerNodeDef}
    (hbelow : Below ServerNodeDef.name ServerNodeDef.parentName nodes p d)
    (h : Protected nodes d) : Protected nodes p := by
  rcases h with hswitch | ⟨s, hs, hswitch, hpath⟩
  · exact Or.inr ⟨d, hbelow.mem, hswitch, TransGen.single hbelow⟩
  · exact Or.inr ⟨s, hs, hswitch, TransGen.head hbelow hpath⟩

/-- The deletion of a leaf that is no switch succeeds. -/
theorem stepDelete_of_leaf (cjson : CJson) (host : Host) (hw : Sound w)
    (hwell : WellFormed w.nm.config.nodes) (hd : d ∈ w.nm.config.nodes)
    (hswitch : d.isSimulationSwitch = false)
    (hleaf : ∀ x ∈ w.nm.config.nodes, x.parentName ≠ some d.browseName.chars) :
    ∃ w', stepDelete cjson host w d.browseName.chars = some w' ∧ Sound w' ∧
      w'.nm.config.nodes
        = w.nm.config.nodes.eraseP (fun x => x.browseName.chars == d.browseName.chars) := by
  obtain ⟨rc, w', hrun, hdeleted, -⟩ := nodeManagerDelete_run cjson host d.browseName.chars hw.mutex
  have hne := ne_nil_of_valid (hwell.valid d hd)
  cases hdeleted with
  | unknown hnone =>
      have hmiss := List.findIdx?_eq_none_iff.mp hnone d hd
      simp at hmiss
  | denied idx d' hidx hd' hdenied =>
      -- With distinct names the definition that was found is the one that was meant.
      obtain ⟨hlt, hname, -⟩ := List.findIdx?_eq_some_iff_getElem.mp hidx
      obtain rfl := Option.some.inj ((List.getElem?_eq_getElem hlt).symm.trans hd')
      have hsame := Keyed.eq_of_key_eq ServerNodeDef.name hwell.forest.nodup
        (List.getElem_mem hlt) hd (eq_of_beq hname)
      rw [hsame] at hdenied
      cases hswitch.symm.trans hdenied
  | children hchildren =>
      cases ((hasChildrenInConfig_eq_false hne).mpr hleaf).symm.trans hchildren
  | deleted idx d' hidx hd' _ _ _ =>
      have hremoved := removed cjson hw host.save d.browseName.chars idx
      refine ⟨_, ?_, hremoved.sound hw, hremoved.nodes hidx⟩
      rw [stepDelete, hrun]

/-- **In a well-formed configuration everything else can be deleted.** -/
theorem removable (cjson : CJson) (hw : Sound w) (hwell : WellFormed w.nm.config.nodes) :
    Removable cjson w := by
  intro host
  -- The set of protected definitions is the one of the start, whatever is deleted meanwhile.
  let Keep := Protected w.nm.config.nodes
  let motive : List ServerNodeDef → Prop := fun l => ∀ w, Sound w → WellFormed l →
    w.nm.config.nodes = l → ∃ bs w', run (stepDelete cjson host) w bs = some w' ∧
      ∀ d, d ∈ w'.nm.config.nodes ↔ d ∈ l ∧ Keep d
  have hall : motive w.nm.config.nodes := by
    refine leaf_induction Keep ?_ ?_ hwell.forest fun p a => Protected.parent
    · rintro l hkeep w - - rfl
      exact ⟨[], w, rfl, fun d => ⟨fun hd => ⟨hd, hkeep d hd⟩, fun hd => hd.1⟩⟩
    · rintro l a - ha hout hleaf ih w hw hwell rfl
      have hswitch : a.isSimulationSwitch = false :=
        Bool.not_eq_true _ ▸ fun hs => hout (Or.inl hs)
      obtain ⟨w₁, hdelete, hw₁, hnodes⟩ :=
        stepDelete_of_leaf cjson host hw hwell ha hswitch hleaf
      obtain ⟨bs, w', hrun, hmem⟩ := ih w₁ hw₁ (hwell.eraseP hleaf) hnodes
      refine ⟨a.browseName.chars :: bs, w', ?_, fun d => (hmem d).trans ?_⟩
      · rw [run, hdelete]
        exact hrun
      · rw [Keyed.mem_eraseP_key ServerNodeDef.name hwell.forest.nodup, and_assoc]
        refine and_congr_right fun hd => and_iff_right_of_imp fun hkeep hname => ?_
        rw [Keyed.eq_of_key_eq ServerNodeDef.name hwell.forest.nodup hd ha hname] at hkeep
        exact hout hkeep
  exact hall w hw hwell rfl

/-- **The extent of the hierarchy.** From any well-formed configuration, along any run of
additions and deletions, the configuration is well formed and can be emptied up to the
simulation switch in every state exactly when every definition that is appended names no
parent or an existing folder. -/
theorem wellFormed_iff (cjson : CJson) {cfg : ServerConfig} {nsIdx : Nat} {file : Option CString}
    (hcfg : WellFormed cfg.nodes) (hstart : start host nsIdx cfg file = some w) {ops : List Op}
    (hops : ∀ op ∈ ops, op.isStructural = true) :
    Always (stepOp cjson) (fun w => WellFormed w.nm.config.nodes ∧ Removable cjson w) w ops ↔
      Each (stepOp cjson) ParentsExist w ops := by
  have hsound := start_sound hstart
  have hwell : WellFormed w.nm.config.nodes := (start_config hstart).symm ▸ hcfg
  refine always_iff_each (I := Sound) (fun op => op.isStructural = true) ?_ ?_ hops hsound
    ⟨hwell, removable cjson hsound hwell⟩
  · intro w op w' hop hw hlaw hguard hstep
    have hw' := (stepKind_of_structural hw hop hstep).sound hw
    have hwell' := (wellFormed_step_iff hw hlaw.1 hop hstep).mpr hguard
    exact ⟨hw', hwell', removable cjson hw' hwell'⟩
  · intro w op w' hop hw hlaw hnot hstep hlaw'
    exact hnot ((wellFormed_step_iff hw hlaw.1 hop hstep).mp hlaw'.1)

/-! ### Runs from the defaults -/

/-- The default configuration is well formed. -/
theorem wellFormed_defaults : WellFormed serverConfigSeedDefaults.nodes where
  valid := by decide
  forest := isForest_of_parentsFirst serverConfigSeedDefaults.nodes isForest_nil (by decide)

/-- The addition of a folder, with every library call succeeding. -/
def addFolderBelow (parent b : String) : Op :=
  .addFolder .ok (some parent.toList) b.toList b.toList

/-- A hall with a door is added below the sensors and removed again. -/
def hallOps : List Op :=
  [addFolderBelow "Sensors" "Hall",
    .addVariable .ok (some "Hall".toList) "Door".toList "Door".toList .boolean true,
    .delete .ok "Door".toList, .delete .ok "Hall".toList]

/-- The check of `ParentsExist`, for any addition. -/
def parentsExistb (w : World) (op : Op) : Bool :=
  op.adds.all fun add => w.nm.config.nodes.any fun p =>
    p.isFolder && p.browseName.chars == add.2.parentBrowseName.chars

/-- Each of these additions names an existing folder, so every state is well formed and can be
emptied up to the switch. -/
theorem wellFormed_hall : ∃ w, start .ok 1 serverConfigSeedDefaults none = some w ∧
    Always (stepOp .none) (fun w => WellFormed w.nm.config.nodes ∧ Removable .none w) w
      hallOps := by
  have hcheck : ((start .ok 1 serverConfigSeedDefaults none).any fun w =>
      eachb (stepOp .none) parentsExistb w hallOps) = true := by
    decide
  obtain ⟨w, hw, hcheck⟩ := (Option.any_eq_true _ _).mp hcheck
  refine ⟨w, hw, (wellFormed_iff .none wellFormed_defaults hw (by decide)).mpr ?_⟩
  refine each_of_eachb (fun w op hop host d hcreates _ _ => ?_) hcheck
  rw [parentsExistb, hcreates.adds, Option.all_some, List.any_eq_true] at hop
  simpa using hop

/-- A folder that names itself as its parent is accepted. It is its own ancestor, and it cannot
be deleted any more. -/
theorem not_wellFormed_loop : ∃ w, start .ok 1 serverConfigSeedDefaults none = some w ∧
    WellFormed serverConfigSeedDefaults.nodes ∧
    ∃ w', run (stepOp .none) w [addFolderBelow "Loop" "Loop"] = some w' ∧
      ¬ WellFormed w'.nm.config.nodes ∧
      (perform .none (.delete .ok "Loop".toList)).run w' = .ok (.badNotImplemented, w') := by
  have hcheck : ((start .ok 1 serverConfigSeedDefaults none).any fun w =>
      (run (stepOp .none) w [addFolderBelow "Loop" "Loop"]).any fun w' =>
        w'.nm.config.nodes.any (fun d => d.parentName = some d.name) &&
        decide ((perform .none (.delete .ok "Loop".toList)).run w'
          = .ok (.badNotImplemented, w'))) = true := by
    decide +kernel
  obtain ⟨w, hw, hcheck⟩ := (Option.any_eq_true _ _).mp hcheck
  obtain ⟨w', hrun, hcheck⟩ := (Option.any_eq_true _ _).mp hcheck
  rw [Bool.and_eq_true, List.any_eq_true] at hcheck
  obtain ⟨⟨d, hd, hown⟩, hdenied⟩ := hcheck
  refine ⟨w, hw, wellFormed_defaults, w', hrun, fun hwell => ?_, of_decide_eq_true hdenied⟩
  exact hwell.forest.acyclic d (TransGen.single ⟨hd, hd, of_decide_eq_true hown⟩)

end SmartFactory.Server
