import SmartFactory.Proofs.Reload

/-!
# `SmartFactory.Proofs.Restart`: a restart rebuilds the tree

`configTree` is the tree of nodes that a configuration describes: each definition of kind
folder or variable is a node under the node of its recorded parent, or under `Objects` when
there is no such node. A build produces that tree (`start_tree`), so a restart leads back to
the tree of the running server as long as the running server keeps to it.

Additions and deletions keep to it under the condition `KeepsTree`. The parent of a node is
resolved when the node is created, and the recorded name stays what it was. An addition of a
name that somebody recorded as a missing parent moves that child at the next restart only.
-/

set_option autoImplicit false

namespace SmartFactory.Server

open Run

/-- A node of the tree: no data type for a folder. -/
structure TreeNode where
  dataType : Option ServerDataType
  displayName : CharBuf serverDisplayNameMax
  parent : NodeId
  deriving DecidableEq

/-- The tree in the address space. -/
def World.tree (w : World) (id : NodeId) : Option TreeNode :=
  (w.space.find id).map fun n =>
    { dataType := n.vAttr.map UaVariable.dataType
      displayName := n.displayName
      parent := n.parent }

/-- The parent that a configuration describes. -/
def configParent (nsIdx : Nat) (cfg : ServerConfig) (d : ServerNodeDef) : NodeId :=
  if cfg.nodes.any (fun p => p.isParentOf d) then .string nsIdx d.parentBrowseName.chars
  else objectsFolder

/-- The node that a definition describes. -/
def ServerNodeDef.treeNode (nsIdx : Nat) (cfg : ServerConfig) (d : ServerNodeDef) : TreeNode :=
  { dataType := if d.isFolder then none else some d.dataType
    displayName := d.displayName
    parent := configParent nsIdx cfg d }

/-- The tree that a configuration describes. -/
def configTree (nsIdx : Nat) (cfg : ServerConfig) (id : NodeId) : Option TreeNode :=
  (cfg.nodes.find? (fun d => d.isNode && id = .string nsIdx d.browseName.chars)).map
    (ServerNodeDef.treeNode nsIdx cfg)

/-- Whatever the library calls do, as long as the server accepts every new node, a restart
succeeds and leads to the same tree. -/
def RestartLaw (cjson : CJson) (w : World) : Prop :=
  RoundTrips cjson w.nm.config → ∀ host : Host, (∀ b, host.refuse b = none) →
    ∃ w', restart cjson host w.nm.nsIdx w.file = some w' ∧ ∀ id, w'.tree id = w.tree id

/-- A node is created only with room in the configuration, under a name that nobody records
as a parent, and below a parent that is less than 32 deep. A deletion does not empty the
configuration. -/
structure KeepsTree (w : World) (op : Op) : Prop where
  room : ∀ host d, Creates w op host d → w.nm.config.nodes.length < serverMaxNodes
  childless : ∀ host d, Creates w op host d →
    hasChildrenInConfig w.nm.config d.browseName.chars = false
  deep : ∀ host d, Creates w op host d →
    ∀ p ∈ w.nm.config.nodes, p.isParentOf d = true → nodeDepth w.nm.config p < 32
  rest : ∀ host b idx, Deletes w op host b idx → 1 < w.nm.config.nodes.length

/-- All file operations of the operation succeed. -/
def Op.saves : Op → Prop
  | .addFolder host .. | .addVariable host .. | .delete host _ => host.save = .ok
  | _ => True

variable {cjson : CJson} {w w' : World} {host : Host} {d : ServerNodeDef}
variable {cfg cfg' : ServerConfig} {nsIdx : Nat} {file : Option CString}

/-! ### The tree of a configuration -/

/-- With distinct names, the tree of a configuration has one node for each definition. -/
theorem configTree_eq_some (hnd : DistinctNames cfg) {id : NodeId} {t : TreeNode} :
    configTree nsIdx cfg id = some t ↔ ∃ d ∈ cfg.nodes, d.isNode = true ∧
      id = .string nsIdx d.browseName.chars ∧ d.treeNode nsIdx cfg = t := by
  rw [configTree, Option.map_eq_some_iff]
  constructor
  · rintro ⟨d, hfind, ht⟩
    have hd : d.isNode = true ∧ id = .string nsIdx d.browseName.chars := by
      simpa using List.find?_some hfind
    exact ⟨d, List.mem_of_find?_eq_some hfind, hd.1, hd.2, ht⟩
  · rintro ⟨d, hd, hnode, rfl, ht⟩
    refine ⟨d, ?_, ht⟩
    cases hfind : cfg.nodes.find? (fun x => x.isNode &&
        NodeId.string nsIdx d.browseName.chars = .string nsIdx x.browseName.chars) with
    | none =>
        have hnone := List.find?_eq_none.mp hfind d hd
        simp [hnode] at hnone
    | some x =>
        have hx : x.isNode = true ∧ d.browseName.chars = x.browseName.chars := by
          simpa using List.find?_some hfind
        -- The search finds a definition of this name, and there is only one.
        rw [hnd.eq_of_name (List.mem_of_find?_eq_some hfind) hd hx.2.symm]

/-- The parent of a definition depends on the definitions that record its parent's name. -/
theorem configParent_congr (h : ∀ p, p.isParentOf d = true → (p ∈ cfg'.nodes ↔ p ∈ cfg.nodes)) :
    configParent nsIdx cfg' d = configParent nsIdx cfg d := by
  have hany : cfg'.nodes.any (fun p => p.isParentOf d)
      = cfg.nodes.any (fun p => p.isParentOf d) := by
    rw [Bool.eq_iff_iff, List.any_eq_true, List.any_eq_true]
    exact exists_congr fun p => and_congr_left fun hp => h p hp
  rw [configParent, configParent, hany]

/-- What a file keeps of a configuration is enough for its tree. -/
theorem SameNodes.treeNode (h : SameNodes cfg cfg') {d' : ServerNodeDef}
    (hsaved : d'.saved = d.saved) (hnode : d.isNode = true) :
    d'.treeNode nsIdx cfg' = d.treeNode nsIdx cfg := by
  obtain ⟨hkind, hbrowse, hdisplay, hparentName, htype⟩ := fields_of_saved hsaved
  have hfolder : d'.isFolder = d.isFolder := by
    rw [ServerNodeDef.isFolder, ServerNodeDef.isFolder, hkind]
  have hparent : configParent nsIdx cfg' d' = configParent nsIdx cfg d := by
    -- Who is a parent depends on names and kinds, and the file keeps those.
    have hof : (fun p : ServerNodeDef => p.isParentOf d') = (fun p => p.isParentOf d) := by
      funext p
      rw [ServerNodeDef.isParentOf, ServerNodeDef.isParentOf, hbrowse, hparentName]
    have hany := h.map_eq (fun p => p.isParentOf d) fun _ => rfl
    have hmap : ∀ (l : List ServerNodeDef) (f : ServerNodeDef → Bool),
        l.any f = (l.map f).any id := fun l f => by rw [List.any_map]; rfl
    rw [configParent, configParent, hparentName, hof, hmap cfg'.nodes, hmap cfg.nodes, hany]
  rw [ServerNodeDef.treeNode, ServerNodeDef.treeNode, hfolder, hdisplay, hparent]
  cases hf : d.isFolder with
  | true => rfl
  | false =>
      have hv : d.isVariable = true := by simpa [ServerNodeDef.isNode, hf] using hnode
      rw [htype hv]

theorem SameNodes.configTree (h : SameNodes cfg cfg') (hnd : DistinctNames cfg)
    (id : NodeId) : configTree nsIdx cfg' id = configTree nsIdx cfg id := by
  have hle : ∀ {cfg cfg' : ServerConfig}, SameNodes cfg cfg' → DistinctNames cfg →
      ∀ t, Server.configTree nsIdx cfg id = some t →
        Server.configTree nsIdx cfg' id = some t := by
    intro cfg cfg' h hnd t ht
    obtain ⟨d, hd, hnode, hid, ht⟩ := (configTree_eq_some hnd).mp ht
    obtain ⟨d', hd', hsaved⟩ := h.mem hd
    refine (configTree_eq_some (h.distinctNames hnd)).mpr ⟨d', hd', ?_, ?_, ?_⟩
    · rw [ServerNodeDef.isNode, ServerNodeDef.isFolder, ServerNodeDef.isVariable,
        (fields_of_saved hsaved).1]
      exact hnode
    · rw [hid, (fields_of_saved hsaved).2.1]
    · exact (h.treeNode hsaved hnode).trans ht
  refine Option.ext fun t => ⟨hle h.symm (h.distinctNames hnd) t, hle h hnd t⟩

/-! ### Creations -/

/-- In a state that lists the nodes of `ds`, the parent is found among them. -/
theorem NodesListed.resolveParent {ds : List ServerNodeDef} (h : NodesListed w ds)
    (hw : Sound w) (parent : CString) :
    (parent ≠ [] ∧ Defines ds ServerNodeDef.isNode parent ∧
      w.resolveParent parent = w.nodeIdOf parent) ∨
    (¬ (parent ≠ [] ∧ Defines ds ServerNodeDef.isNode parent) ∧
      w.resolveParent parent = objectsFolder) := by
  by_cases hnil : parent = []
  · exact Or.inr ⟨fun hboth => hboth.1 hnil, by rw [World.resolveParent, if_pos hnil]⟩
  · rw [World.resolveParent, if_neg hnil]
    cases hfind : w.mapFind parent with
    | none =>
        refine Or.inr ⟨fun hboth => ?_, rfl⟩
        exact mapFind_ne_none.mpr ((h.map parent).mpr ((h.config parent).mp hboth.2)) hfind
    | some e =>
        obtain ⟨he, rfl⟩ := mem_of_mapFind hfind
        exact Or.inl ⟨hnil, (h.config _).mpr ((h.map _).mp ⟨e, he, rfl⟩), hw.map_id e he⟩

/-- Once the nodes of `ds` are listed, a new node gets the parent that the configuration
describes, if the parents of its definition are among `ds` and nothing else is. -/
theorem NodesListed.resolveParent_eq {ds : List ServerNodeDef} (h : NodesListed w ds)
    (hw : Sound w) (hfresh : ∀ x ∈ ds, x.browseName.chars ≠ d.browseName.chars)
    (hparents : ∀ p, p.isParentOf d = true → (p ∈ ds ↔ p ∈ cfg.nodes)) :
    w.resolveParent d.parentBrowseName.chars = configParent w.nm.nsIdx cfg d := by
  -- The parent is in the browse map exactly when the configuration defines it.
  have hdefines : (d.parentBrowseName.chars ≠ [] ∧
      Defines ds ServerNodeDef.isNode d.parentBrowseName.chars) ↔
      cfg.nodes.any (fun p => p.isParentOf d) = true := by
    rw [List.any_eq_true]
    constructor
    · rintro ⟨hne, p, hp, hnode, hname⟩
      have hparent := isParentOf_iff.mpr ⟨hnode, hne, hname, hfresh p hp⟩
      exact ⟨p, (hparents p hparent).mp hp, hparent⟩
    · rintro ⟨p, hp, hparent⟩
      obtain ⟨hnode, hne, hname, -⟩ := isParentOf_iff.mp hparent
      exact ⟨hne, p, (hparents p hparent).mpr hp, hnode, hname⟩
  rw [configParent]
  rcases h.resolveParent hw d.parentBrowseName.chars with ⟨hne, hdef, hid⟩ | ⟨hnot, hid⟩
  · rw [hid, if_pos (hdefines.mp ⟨hne, hdef⟩)]
    rfl
  · rw [hid, if_neg fun hany => hnot (hdefines.mpr hany)]

/-- The tree after a creation. -/
theorem Created.tree (hc : Created host d w w') (id : NodeId) :
    w'.tree id = if id = w.nodeIdOf d.browseName.chars then
        some { dataType := if d.isFolder then none else some d.dataType
               displayName := d.displayName
               parent := w.resolveParent d.parentBrowseName.chars }
      else w.tree id := by
  by_cases hid : id = w.nodeIdOf d.browseName.chars
  · obtain ⟨n, hn, hparent, hdisplay, htype, -⟩ := hc.self
    rw [if_pos hid, hid, World.tree, hn, Option.map_some, hparent, hdisplay, htype]
  · rw [if_neg hid, World.tree, World.tree, hc.others id hid]

/-- The tree after a removal. -/
theorem Removed.tree {io : SaveIo} {b : CString} {idx : Nat}
    (hr : Removed cjson io b idx w w') (hlisted : w.InMap b ↔ w.Live b) (id : NodeId) :
    w'.tree id = if id = w.nodeIdOf b then none else w.tree id := by
  by_cases hid : id = w.nodeIdOf b
  · have hgone : w'.space.find id = none := by
      rw [AddressSpace.find_eq_none, hr.mem_ids]
      rintro ⟨hlive, hnot⟩
      rw [hid] at hlive
      exact hnot ⟨hlisted.mpr hlive, hid⟩
    rw [if_pos hid, World.tree, hgone, Option.map_none]
  · rw [if_neg hid, World.tree, World.tree, hr.find_of_ne hid]

/-! ### The tree of the running server -/

/-- The tree in the address space has one node for each definition of `ds`, as the
configuration `cfg` describes it. -/
def TreeOf (nsIdx : Nat) (cfg : ServerConfig) (ds : List ServerNodeDef) (w : World) : Prop :=
  ∀ id t, w.tree id = some t ↔ ∃ d ∈ ds, d.isNode = true ∧
    id = .string nsIdx d.browseName.chars ∧ d.treeNode nsIdx cfg = t

/-- A creation under the described parent extends the tree. -/
theorem Created.treeOf {ds : List ServerNodeDef} (hc : Created host d w w')
    (h : TreeOf w.nm.nsIdx cfg ds w) (hnode : d.isNode = true)
    (hfresh : ∀ x ∈ ds, x.browseName.chars ≠ d.browseName.chars)
    (hparent : w.resolveParent d.parentBrowseName.chars = configParent w.nm.nsIdx cfg d) :
    TreeOf w.nm.nsIdx cfg (ds ++ [d]) w' := by
  intro id t
  rw [hc.tree, hparent]
  by_cases hid : id = w.nodeIdOf d.browseName.chars
  · rw [if_pos hid, Option.some.injEq]
    constructor
    · exact fun ht => ⟨d, List.mem_append_right _ (List.mem_singleton_self d), hnode, hid, ht⟩
    · rintro ⟨x, hx, -, hidx, ht⟩
      rcases List.mem_append.mp hx with hx | hx
      · -- No definition has the name of the new one, so that the id is that of no other node.
        exact absurd (nodeIdOf_inj.mp (hidx.symm.trans hid)) (hfresh x hx)
      · rw [List.mem_singleton] at hx
        exact hx ▸ ht
  · rw [if_neg hid, h id t]
    constructor
    · rintro ⟨x, hx, hrest⟩
      exact ⟨x, List.mem_append_left _ hx, hrest⟩
    · rintro ⟨x, hx, hnodex, hidx, ht⟩
      rcases List.mem_append.mp hx with hx | hx
      · exact ⟨x, hx, hnodex, hidx, ht⟩
      · rw [List.mem_singleton] at hx
        exact absurd (hx ▸ hidx) hid

/-- A skipped definition adds nothing to the tree. -/
theorem TreeOf.skip {ds : List ServerNodeDef} (h : TreeOf nsIdx cfg ds w)
    (hother : d.isNode = false) : TreeOf nsIdx cfg (ds ++ [d]) w := by
  intro id t
  rw [h id t]
  constructor
  · rintro ⟨x, hx, hrest⟩
    exact ⟨x, List.mem_append_left _ hx, hrest⟩
  · rintro ⟨x, hx, hnode, hrest⟩
    rcases List.mem_append.mp hx with hx | hx
    · exact ⟨x, hx, hnode, hrest⟩
    · rw [List.mem_singleton] at hx
      cases (hx ▸ hother).symm.trans hnode

/-- A build that takes up each parent before its children produces the tree that the
configuration describes. -/
theorem start_tree_of_before (hnd : DistinctNames cfg)
    (hbefore : ∀ d ∈ cfg.nodes, d.isNode = true → ∀ p ∈ cfg.nodes, p.isParentOf d = true →
      Before (sortNodesByDepth cfg) p d)
    (hstart : start host nsIdx cfg file = some w) : TreeOf nsIdx cfg cfg.nodes w := by
  have hsorted := hnd.sorted
  have hdone := start_induction_listed (P := TreeOf nsIdx cfg) ?_ ?_ ?_ hstart
  · intro id t
    rw [hdone.2 id t]
    exact exists_congr fun d => and_congr_left fun _ => mem_sortNodesByDepth
  · rintro done d w w' ⟨post, hcut⟩ hw hlisted rfl htree hnode hc
    rw [List.append_assoc, List.singleton_append] at hcut
    have hsub : ∀ x ∈ done, x ∈ cfg.nodes := fun x hx =>
      mem_sortNodesByDepth.mp (hcut ▸ List.mem_append_left _ hx)
    have hd : d ∈ cfg.nodes :=
      mem_sortNodesByDepth.mp (hcut ▸ List.mem_append_right _ (List.mem_cons_self ..))
    have hfresh : ∀ x ∈ done, x.browseName.chars ≠ d.browseName.chars := by
      intro x hx he
      rw [← hcut, List.map_append, List.map_cons, List.nodup_append] at hsorted
      exact hsorted.2.2 _ (List.mem_map_of_mem hx) _ (List.mem_cons_self ..) he
    -- The parent of `d`, if there is one at all, was taken up before it. So `resolve_parent` finds
    -- what the configuration says.
    have hparents : ∀ p, p.isParentOf d = true → (p ∈ done ↔ p ∈ cfg.nodes) := fun p hp =>
      ⟨hsub p, fun hmem => hbefore d hd hnode p hmem hp done post hcut.symm⟩
    exact hc.treeOf htree hnode hfresh (hlisted.resolveParent_eq hw hfresh hparents)
  · exact fun _ _ _ htree hother => htree.skip hother
  · intro id t
    simp [World.tree, nodeManagerCreate, AddressSpace.find]

/-- **A build produces the tree that the configuration describes**, when parents are less deep
than their children: the sort puts them before. -/
theorem start_tree (hnd : DistinctNames cfg) (hord : WellOrdered cfg)
    (hstart : start host nsIdx cfg file = some w) : TreeOf nsIdx cfg cfg.nodes w :=
  start_tree_of_before hnd (fun d hd hnode p hp hparent =>
    exchangeSort_before (nodeDepth cfg) hp (hord d hd hnode p hp hparent)) hstart

/-- A build of distinct names succeeds when the server accepts every node. -/
theorem exists_start (host : Host) (nsIdx : Nat) (file : Option CString)
    (hhost : ∀ b, host.refuse b = none) (hnd : DistinctNames cfg) :
    ∃ w, start host nsIdx cfg file = some w := by
  obtain ⟨w, hbuild⟩ := buildLoop_good (w := nodeManagerCreate nsIdx cfg file) hhost hnd.sorted
    fun _ _ => rfl
  refine ⟨w, ?_⟩
  have hgood : nodeManagerBuild host (nodeManagerCreate nsIdx cfg file) = (.good, w) := hbuild
  rw [start, hgood]

/-! ### Runs -/

/-- What a restart needs of the running server: its tree is the one that its configuration
describes, and the file holds that configuration. -/
structure KeptTree (cjson : CJson) (w : World) : Prop where
  sound : Sound w
  names : DistinctNames w.nm.config
  ordered : WellOrdered w.nm.config
  listed : NodesListed w w.nm.config.nodes
  tree : TreeOf w.nm.nsIdx w.nm.config w.nm.config.nodes w
  saved : RoundTrips cjson w.nm.config → ∃ cfg file,
    serverConfigLoad cjson .ok w.file = (some cfg, file) ∧ SameNodes cfg w.nm.config

/-- A tree with one node for each definition is the described one. -/
theorem TreeOf.eq (h : TreeOf nsIdx cfg cfg.nodes w) (hnd : DistinctNames cfg) (id : NodeId) :
    w.tree id = configTree nsIdx cfg id :=
  Option.ext fun t => (h id t).trans (configTree_eq_some hnd).symm

/-- **A restart leads back to the kept tree.** -/
theorem KeptTree.restartLaw (h : KeptTree cjson w) : RestartLaw cjson w := by
  intro hcjson host hhost
  obtain ⟨cfg, file, hload, hsame⟩ := h.saved hcjson
  -- The restart builds what the file describes, which is what the server has.
  have hnd := hsame.symm.distinctNames h.names
  obtain ⟨w', hstart⟩ := exists_start host w.nm.nsIdx file hhost hnd
  have htree := start_tree hnd (hsame.symm.wellOrdered h.ordered) hstart
  refine ⟨w', ?_, fun id => ?_⟩
  · simp only [restart, hload, hstart]
  · rw [htree.eq hnd, h.tree.eq h.names]
    exact hsame.symm.configTree h.names id

/-- The tree depends on what is described only. -/
theorem TreeOf.congr {ds : List ServerNodeDef} (h : TreeOf nsIdx cfg ds w)
    (hsame : ∀ x ∈ ds, x.treeNode nsIdx cfg' = x.treeNode nsIdx cfg) :
    TreeOf nsIdx cfg' ds w := by
  intro id t
  rw [h id t]
  exact exists_congr fun x => and_congr_right fun hx => by rw [hsame x hx]

/-- What a definition describes stays the same when no name that it records comes or goes. -/
theorem treeNode_congr (h : ∀ p, p.isParentOf d = true → (p ∈ cfg'.nodes ↔ p ∈ cfg.nodes)) :
    d.treeNode nsIdx cfg' = d.treeNode nsIdx cfg := by
  rw [ServerNodeDef.treeNode, ServerNodeDef.treeNode, configParent_congr h]

/-- A definition whose recorded parent is not of the name `b` is not a child of such a one. -/
theorem ne_of_isParentOf {p x : ServerNodeDef} {b : CString}
    (hx : x.parentBrowseName.chars ≠ b) (hp : p.isParentOf x = true) :
    p.browseName.chars ≠ b := by
  obtain ⟨-, -, hname, -⟩ := isParentOf_iff.mp hp
  exact fun he => hx (hname.symm.trans he)

/-- A creation within the condition keeps the tree. -/
theorem Created.keptTree (hc : Created host d w w') (h : KeptTree cjson w) {op : Op}
    (hcreates : Creates w op host d) (hg : KeepsTree w op) (hsave : host.save = .ok) :
    KeptTree cjson (appendAndSave cjson host.save d w') := by
  have hroom := hg.room host d hcreates
  have hchildless := hg.childless host d hcreates
  have hnot := hasChildren_eq_false.mp hchildless
  have hfresh := not_has_of_checks hcreates.adds hcreates.checks
  have hnode := isNode_of_adds hcreates.adds
  have hnodes : (w'.nm.config.append d).nodes = w.nm.config.nodes ++ [d] := by
    rw [hc.config, ServerConfig.append_nodes, if_pos hroom]
  have hmem : ∀ p, p.browseName.chars ≠ d.browseName.chars →
      (p ∈ (w'.nm.config.append d).nodes ↔ p ∈ w.nm.config.nodes) := by
    intro p hne
    rw [hnodes, List.mem_append, List.mem_singleton]
    exact or_iff_left fun he => hne (congrArg (fun x : ServerNodeDef => x.browseName.chars) he)
  -- The parent that is resolved now is the one that a restart will find: no definition that
  -- comes later in the run takes its name.
  have hparent := h.listed.resolveParent_eq h.sound hfresh fun p hp =>
    (hmem p (isParentOf_iff.mp hp).2.2.2).symm
  have hlisted := hc.nodesListed h.sound h.listed w.nm.config.nodes_le hnode
  have htree := hc.treeOf (h.tree.congr fun x hx => treeNode_congr fun p hp =>
    hmem p (ne_of_isParentOf (hnot x hx) hp)) hnode hfresh hparent
  rw [← hnodes] at hlisted htree
  rw [appendAndSave_eq, hc.config, if_pos hroom, hsave]
  rw [hc.config] at hlisted htree hnodes
  rw [← hc.nsIdx] at htree
  refine ⟨(hc.sound h.sound).withConfig _ _, ?_, h.ordered.append h.names hnodes hchildless
    (hg.deep host d hcreates), ⟨hlisted.ids, hlisted.map, hlisted.config⟩, htree,
    fun hcjson => ?_⟩
  · rw [DistinctNames, hnodes, List.map_append, List.nodup_append]
    refine ⟨h.names, List.nodup_singleton _, fun a ha b hb hab => ?_⟩
    obtain ⟨x, hx, rfl⟩ := List.mem_map.mp ha
    rw [List.map_singleton, List.mem_singleton] at hb
    exact hfresh x hx (hab.trans hb)
  · obtain ⟨cfg, hload, hsame⟩ := load_saved hcjson (by
      rw [hnodes]
      exact List.append_ne_nil_of_right_ne_nil _ (List.cons_ne_nil d []))
    exact ⟨cfg, _, hload, hsame⟩

/-- A removal that leaves a definition keeps the tree. -/
theorem Removed.keptTree {b : CString} {idx : Nat} (hr : Removed cjson host.save b idx w w')
    (h : KeptTree cjson w) {op : Op} (hdel : Deletes w op host b idx) (hg : KeepsTree w op)
    (hsave : host.save = .ok) : KeptTree cjson w' := by
  have hnodes := hr.nodes hdel.index
  have hnot := hasChildren_eq_false.mp hdel.children
  have hmem : ∀ x, x ∈ w'.nm.config.nodes ↔
      x ∈ w.nm.config.nodes ∧ x.browseName.chars ≠ b := fun x => by
    rw [hnodes]
    exact Keyed.mem_eraseP_key (fun d : ServerNodeDef => d.browseName.chars) h.names
  have hns : w'.nm.nsIdx = w.nm.nsIdx := by rw [hr.nm]
  refine ⟨hr.sound h.sound, ?_, h.ordered.eraseP hnodes hdel.children,
    hr.nodesListed h.sound hdel.index h.names h.listed, fun id t => ?_, fun hcjson => ?_⟩
  · rw [DistinctNames, hnodes]
    exact ((List.eraseP_sublist).map _).nodup h.names
  · -- Nobody has the removed definition as its parent, for a folder with children is not removed.
    have hsame : ∀ x ∈ w.nm.config.nodes,
        x.treeNode w.nm.nsIdx w'.nm.config = x.treeNode w.nm.nsIdx w.nm.config := by
      intro x hx
      refine treeNode_congr fun p hp => ?_
      rw [hmem]
      exact and_iff_left (ne_of_isParentOf (hnot x hx) hp)
    rw [hr.tree (h.listed.map b), hns]
    by_cases hid : id = w.nodeIdOf b
    · rw [if_pos hid]
      refine iff_of_false (Option.some_ne_none t).symm ?_
      rintro ⟨x, hx, -, hidx, -⟩
      exact ((hmem x).mp hx).2 (nodeIdOf_inj.mp (hidx.symm.trans hid))
    · rw [if_neg hid, h.tree.congr hsame id t]
      refine exists_congr fun x => ?_
      rw [hmem]
      constructor
      · rintro ⟨hx, hnode, hidx, ht⟩
        exact ⟨⟨hx, fun he => hid (by rw [hidx, he]; rfl)⟩, hnode, hidx, ht⟩
      · rintro ⟨⟨hx, -⟩, hrest⟩
        exact ⟨hx, hrest⟩
  · have hlen : w'.nm.config.nodes.length = w.nm.config.nodes.length - 1 := by
      obtain ⟨hlt, hname, -⟩ := List.findIdx?_eq_some_iff_getElem.mp hdel.index
      rw [hnodes, List.length_eraseP_of_mem (List.getElem_mem hlt) hname]
    -- An empty list would come back as the defaults.
    have hne : w'.nm.config.nodes ≠ [] := by
      intro hnil
      have hmany := hg.rest host b idx hdel
      rw [hnil, List.length_nil] at hlen
      omega
    obtain ⟨cfg, hload, hsame⟩ := load_saved hcjson hne
    have hfile : w'.file = some (cjson.print (configToJson w'.nm.config)) := by
      rw [hr.file, hsave, serverConfigSave_ok, hr.nm]
    exact ⟨cfg, _, hfile ▸ hload, hsame⟩

/-- **One step** within the condition keeps the tree. -/
theorem keptTree_step (h : KeptTree cjson w) {op : Op} (hop : op.isStructural = true)
    (hsaves : op.saves) (hg : KeepsTree w op) (hstep : stepOp cjson w op = some w') :
    KeptTree cjson w' := by
  cases stepKind_of_structural h.sound hop hstep with
  | quiet _ hsame => exact hsame hop ▸ h
  | added host d w₁ hadds hchecks hc hw' =>
      have hsave : host.save = .ok := by
        cases op with
        | addFolder host' parent b display =>
            obtain ⟨rfl, -⟩ := Prod.mk.inj (Option.some.inj hadds)
            exact hsaves
        | addVariable host' parent b display dt sim =>
            obtain ⟨rfl, -⟩ := Prod.mk.inj (Option.some.inj hadds)
            exact hsaves
        | _ => cases hadds
      rw [hw']
      exact hc.keptTree h ⟨hadds, hchecks, hc.fresh, hc.accepted⟩ hg hsave
  | removed host b idx hdel hremoved =>
      have hsave : host.save = .ok := by
        have hsaves' := hsaves
        rw [hdel.op] at hsaves'
        exact hsaves'
      exact hremoved.keptTree h hdel hg hsave

/-- A server that was just started has the tree that its file describes. -/
theorem start_keptTree {file₀ : Option CString}
    (hload : serverConfigLoad cjson .ok file₀ = (some cfg, file))
    (hnd : DistinctNames cfg) (hord : WellOrdered cfg)
    (hstart : start host nsIdx cfg file = some w) : KeptTree cjson w := by
  have hlisted := start_nodesListed hstart
  have htree := start_tree hnd hord hstart
  have hconfig := start_config hstart
  have hns := start_nsIdx hstart
  refine ⟨start_sound hstart, hconfig.symm ▸ hnd, hconfig.symm ▸ hord, hlisted, ?_,
    fun hcjson => ?_⟩
  · rw [hns, hconfig]
    exact htree
  · rw [start_file hstart, hconfig] at *
    -- The first load read a file, or it wrote the defaults into a new one.
    have hseed : (serverConfigSeedDefaults, some (cjson.print (configToJson
        serverConfigSeedDefaults))) = (cfg, file) →
        ∃ cfg' file', serverConfigLoad cjson .ok file = (some cfg', file') ∧
          SameNodes cfg' cfg := by
      rintro heq
      obtain ⟨rfl, rfl⟩ := Prod.mk.inj heq
      obtain ⟨cfg', hload', hsame⟩ := load_saved hcjson (by
        intro hnil
        have hlen := length_defaults
        rw [hnil] at hlen
        cases hlen)
      exact ⟨cfg', _, hload', hsame⟩
    cases file₀ with
    | none =>
        exact hseed (by simpa [serverConfigLoad, LoadIo.ok] using hload)
    | some text =>
        by_cases hempty : text = []
        · subst hempty
          exact hseed (by simpa [serverConfigLoad, LoadIo.ok] using hload)
        · have hfile : file = some text := by
            have hlen : text.length ≠ 0 := fun h0 => hempty (List.eq_nil_of_length_eq_zero h0)
            simp only [serverConfigLoad, LoadIo.ok, Bool.not_true, Bool.false_or,
              decide_eq_true_eq, if_neg hlen, Bool.false_eq_true, if_false] at hload
            split at hload
            · exact (Prod.mk.inj hload).2.symm
            · exact (Prod.mk.inj hload).2.symm
          exact ⟨cfg, file, hfile ▸ hload, rfl⟩

variable (cjson)

/-- **The extent of the law.** From the build of a loaded configuration with distinct names
whose parents are less deep than their children, along any run of additions and deletions
whose file operations succeed, a restart leads back to the tree in every state, if every
step keeps the tree. -/
theorem restartLaw_of_keepsTree {file₀ : Option CString}
    (hload : serverConfigLoad cjson .ok file₀ = (some cfg, file))
    (hnames : DistinctNames cfg) (hordered : WellOrdered cfg)
    (hstart : start host nsIdx cfg file = some w) {ops : List Op}
    (hops : ∀ op ∈ ops, op.isStructural = true ∧ op.saves)
    (hkeeps : Each (stepOp cjson) KeepsTree w ops) :
    Always (stepOp cjson) (RestartLaw cjson) w ops :=
  always_of_each (I := KeptTree cjson) (fun op => op.isStructural = true ∧ op.saves)
    (fun _ _ _ hop h hg hstep => keptTree_step h hop.1 hop.2 hg hstep)
    (fun _ h => h.restartLaw) hops (start_keptTree hload hnames hordered hstart) hkeeps

/-! ### Two runs -/

/-- The addition of a folder, with every library call succeeding. -/
def addFolderOp (parent b : CString) : Op := .addFolder .ok (some parent) b b

/-- The default configuration with one more folder. -/
def withFolder (cfg : ServerConfig) (parent b : CString) : ServerConfig :=
  addNode cfg serverNodeKindFolder b b parent .boolean false []

set_option maxRecDepth 10000 in
/-- In the default configuration, each parent is less deep than its children. -/
theorem wellOrdered_defaults : WellOrdered serverConfigSeedDefaults := by
  unfold WellOrdered
  decide

set_option maxRecDepth 10000 in
/-- Adding a folder below `Sensors` to the default configuration, and deleting a sensor, keeps
the law. -/
theorem restartLaw_add_delete :
    let cjson := CJson.knowing (configToJson (withFolder serverConfigSeedDefaults
      "Sensors".toList "Line1".toList))
    ∃ file w, serverConfigLoad cjson .ok none = (some serverConfigSeedDefaults, file) ∧
      start .ok 1 serverConfigSeedDefaults file = some w ∧
      Always (stepOp cjson) (RestartLaw cjson) w
        [addFolderOp "Sensors".toList "Line1".toList, .delete .ok "Sensor1".toList] := by
  intro cjson
  obtain ⟨w, hw⟩ := exists_start .ok 1 (serverConfigLoad cjson .ok none).2 (fun _ => rfl)
    distinctNames_defaults
  have hload : serverConfigLoad cjson .ok none
      = (some serverConfigSeedDefaults, (serverConfigLoad cjson .ok none).2) := rfl
  refine ⟨_, w, hload, hw, restartLaw_of_keepsTree cjson hload distinctNames_defaults
    wellOrdered_defaults hw ?_ ?_⟩
  · simp [addFolderOp, Op.isStructural, Op.saves, Host.ok]
  · have hconfig := start_config hw
    have hlen : 1 < w.nm.config.nodes.length := by
      rw [hconfig, length_defaults]
      decide
    have hadd : KeepsTree w (addFolderOp "Sensors".toList "Line1".toList) := by
      refine ⟨fun host d hcreates => ?_, fun host d hcreates => ?_, fun host d hcreates => ?_,
        fun host b idx hdel => ?_⟩
      · rw [hconfig, length_defaults]
        decide
      · obtain ⟨rfl, rfl⟩ := Prod.mk.inj (Option.some.inj hcreates.adds)
        rw [hconfig]
        decide
      · obtain ⟨rfl, rfl⟩ := Prod.mk.inj (Option.some.inj hcreates.adds)
        rw [hconfig]
        decide
      · cases hdel.op
    refine fun w₁ hstep => ⟨hadd, fun w₂ _ => ⟨?_, trivial⟩⟩
    refine ⟨fun host d hcreates => ?_, fun host d hcreates => ?_, fun host d hcreates => ?_,
      fun host b idx _ => ?_⟩
    · cases hcreates.adds
    · cases hcreates.adds
    · cases hcreates.adds
    · -- The addition left the configuration as it was or made it longer.
      cases stepKind_of_structural (start_sound hw) rfl hstep with
      | quiet _ hsame =>
          rw [hsame rfl]
          exact hlen
      | added host' d w' _ _ hc hw₁ =>
          rw [hw₁, appendAndSave_eq]
          show 1 < (w'.nm.config.append d).nodes.length
          rw [hc.config, ServerConfig.append_nodes]
          split
          · rw [List.length_append]
            omega
          · exact hlen
      | removed _ _ _ hdel => cases hdel.op

/-- The default configuration after `Line1` was added below `Hall`, and then `Hall`. -/
def drifted : ServerConfig :=
  withFolder (withFolder serverConfigSeedDefaults "Hall".toList "Line1".toList) [] "Hall".toList

set_option maxRecDepth 10000 in
/-- `Line1` is added below `Hall`, which does not exist yet, and then `Hall` is added. `Line1`
stays under `Objects` until the restart, which puts it under `Hall`. -/
theorem not_restartLaw_lateParent :
    let cjson := CJson.knowing (configToJson drifted)
    ∃ file w, serverConfigLoad cjson .ok none = (some serverConfigSeedDefaults, file) ∧
      start .ok 1 serverConfigSeedDefaults file = some w ∧
      ¬ Always (stepOp cjson) (RestartLaw cjson) w
        [addFolderOp "Hall".toList "Line1".toList, addFolderOp [] "Hall".toList] := by
  intro cjson
  have hcheck : ((start .ok 1 serverConfigSeedDefaults (serverConfigLoad
        (.knowing (configToJson drifted)) .ok none).2).any fun w =>
      (run (stepOp (.knowing (configToJson drifted))) w
        [addFolderOp "Hall".toList "Line1".toList, addFolderOp [] "Hall".toList]).any fun w' =>
      w'.nm.config = drifted &&
        (w'.tree (.string 1 "Line1".toList)).any (fun t => t.parent = objectsFolder) &&
        (restart (.knowing (configToJson drifted)) .ok w'.nm.nsIdx w'.file).any fun w'' =>
          (w''.tree (.string 1 "Line1".toList)).any
            (fun t => t.parent = .string 1 "Hall".toList)) = true := by
    decide +kernel
  obtain ⟨w, hw, hcheck⟩ := (Option.any_eq_true _ _).mp hcheck
  obtain ⟨w', hrun, hcheck⟩ := (Option.any_eq_true _ _).mp hcheck
  simp only [Bool.and_eq_true, decide_eq_true_eq, Option.any_eq_true] at hcheck
  obtain ⟨⟨hconfig, t, htree, hobjects⟩, w'', hrestart, t', htree', hhall⟩ := hcheck
  refine ⟨_, w, rfl, hw, fun hlaw => ?_⟩
  obtain ⟨w₂, hrestart₂, hsame⟩ := hlaw.last hrun (hconfig ▸ roundTrips_knowing drifted) .ok
    fun _ => rfl
  -- The restart is the one that was computed, and it moved the folder.
  obtain rfl := Option.some.inj (hrestart.symm.trans hrestart₂)
  have hmoved := hsame (.string 1 "Line1".toList)
  rw [htree, htree', Option.some.injEq] at hmoved
  rw [hmoved, hobjects] at hhall
  cases hhall

end SmartFactory.Server
