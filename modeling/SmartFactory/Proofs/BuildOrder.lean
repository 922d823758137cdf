import SmartFactory.Proofs.Growth
import SmartFactory.Proofs.Restart
import SmartFactory.Proofs.Hierarchy

/-!
# `SmartFactory.Proofs.BuildOrder`: the build of a deep configuration

`node_manager_build` sorts the definitions by `node_depth` and then creates the nodes, so that
`resolve_parent` finds each parent in the browse map. A parent that it does not find is no
error: the node goes below `Objects`.

`node_depth` counts 32 ancestors at most. From there on a parent and its child have the same
depth, and their order is left to the sort, which is not stable. `buildLaw_of_deepInOrder` and
`deepInOrder_of_buildLaw` tell when it comes out right: among the definitions of depth 32, the
queue that the sort makes of them has each parent before its children. No configuration of
depth below 32 is concerned (`deepInOrder_of_shallow`).
-/

set_option autoImplicit false

namespace SmartFactory.Server

open Forest

/-- The configurations that a build is meant for: folders and variables whose names are
distinct, whose parents are in the list, and of which none is its own ancestor. -/
structure Buildable (cfg : ServerConfig) : Prop where
  nodes : ∀ d ∈ cfg.nodes, d.isNode = true
  forest : IsForest ServerNodeDef.name ServerNodeDef.parentName (·.isNode = true) cfg.nodes

/-- The node id of a definition. -/
def ServerNodeDef.nodeId (nsIdx : Nat) (d : ServerNodeDef) : NodeId :=
  .string nsIdx d.browseName.chars

/-- Every node was created once, after its parent, and is attached to it. -/
structure BuildsTree (nsIdx : Nat) (cfg : ServerConfig) (w : World) : Prop where
  once : w.space.ids.Perm (cfg.nodes.map (ServerNodeDef.nodeId nsIdx))
  parentFirst : ∀ d ∈ cfg.nodes, ∀ p ∈ cfg.nodes, p.isParentOf d = true →
    Before w.space.ids (p.nodeId nsIdx) (d.nodeId nsIdx)
  attached : ∀ d ∈ cfg.nodes, ∃ n, w.space.find (d.nodeId nsIdx) = some n ∧
    n.parent = if d.parentBrowseName.chars = [] then objectsFolder
      else .string nsIdx d.parentBrowseName.chars

/-- The build succeeds and leads to the tree. -/
def BuildLaw (host : Host) (nsIdx : Nat) (cfg : ServerConfig) (file : Option CString) : Prop :=
  ∃ w, nodeManagerBuild host (nodeManagerCreate nsIdx cfg file) = (.good, w) ∧
    BuildsTree nsIdx cfg w

/-- The definitions of depth 32, in the order that the sort gives them: each joins the end of
a queue, and each definition of a smaller depth moves the first of the queue to its end. -/
def deepQueue (cfg : ServerConfig) : List ServerNodeDef :=
  queueScan (fun d => nodeDepth cfg d == 32) [] cfg.nodes

/-- In the queue each parent stands before its children. -/
def DeepInOrder (cfg : ServerConfig) : Prop :=
  ∀ d ∈ cfg.nodes, ∀ p ∈ cfg.nodes, p.isParentOf d = true → nodeDepth cfg p = 32 →
    Before (deepQueue cfg) p d

variable {cfg : ServerConfig} {host : Host} {nsIdx : Nat} {file : Option CString}
variable {w : World} {d p : ServerNodeDef}

/-! ### The order of the definitions -/

/-- Nothing is left to the sort when no parent has depth 32. -/
theorem deepInOrder_of_shallow
    (h : ∀ d ∈ cfg.nodes, ∀ p ∈ cfg.nodes, p.isParentOf d = true → nodeDepth cfg p < 32) :
    DeepInOrder cfg := by
  intro d hd p hp hparent hdeep
  have hlt := h d hd p hp hparent
  omega

/-- The names of a buildable configuration are distinct. -/
theorem Buildable.names (h : Buildable cfg) : DistinctNames cfg := h.forest.nodup

/-- The sort takes the definitions of depth 32 in the order of the queue. -/
theorem filter_sortNodesByDepth :
    (sortNodesByDepth cfg).filter (fun d => nodeDepth cfg d == 32) = deepQueue cfg :=
  exchangeSort_filter_top (nodeDepth cfg) fun d _ => nodeDepth_le d

/-- The sort puts a parent before its child when it is less deep, and otherwise when the queue
does. -/
theorem Buildable.before_iff (h : Buildable cfg) (hp : p ∈ cfg.nodes)
    (hparent : p.isParentOf d = true) :
    Before (sortNodesByDepth cfg) p d ↔
      (nodeDepth cfg p = 32 → Before (deepQueue cfg) p d) := by
  have hne := (isParentOf_iff.mp hparent).2.1
  have hfind := h.names.find_parent hp hparent
  by_cases hdeep : nodeDepth cfg p = 32
  · -- Below depth 32 the guard stops the count, so that parent and child have the same depth.
    have hchild := nodeDepth_eq_of_deep hne hfind hdeep
    have hfilter : Before (deepQueue cfg) p d ↔ Before (sortNodesByDepth cfg) p d := by
      rw [← filter_sortNodesByDepth]
      exact before_filter_iff (beq_iff_eq.mpr hdeep)
        (beq_iff_eq.mpr hchild)
    rw [hfilter]
    exact ⟨fun h _ => h, fun h => h hdeep⟩
  · have hlt : nodeDepth cfg p < 32 := by
      have hle : nodeDepth cfg p ≤ 32 := nodeDepth_le p
      omega
    -- Otherwise the child is one deeper, and the sort puts it behind.
    have hsucc := nodeDepth_eq_succ hne hfind hlt
    refine iff_of_true ?_ fun hdeep' => absurd hdeep' hdeep
    exact exchangeSort_before (nodeDepth cfg) hp (by omega)

/-! ### The build -/

/-- The nodes stand in the address space in the order of the build. -/
theorem Buildable.ids (h : Buildable cfg) (hstart : start host nsIdx cfg file = some w) :
    w.space.ids = (sortNodesByDepth cfg).map (ServerNodeDef.nodeId nsIdx) := by
  have hall : (sortNodesByDepth cfg).filter ServerNodeDef.isNode = sortNodesByDepth cfg := by
    rw [List.filter_eq_self]
    exact fun d hd => h.nodes d (mem_sortNodesByDepth.mp hd)
  rw [start_ids hstart, hall]
  rfl

/-- In the address space two nodes stand as their definitions do in the sorted list. -/
theorem Buildable.before_ids_iff (h : Buildable cfg)
    (hids : w.space.ids = (sortNodesByDepth cfg).map (ServerNodeDef.nodeId nsIdx))
    (hd : d ∈ cfg.nodes) (hp : p ∈ cfg.nodes) :
    Before w.space.ids (p.nodeId nsIdx) (d.nodeId nsIdx) ↔
      Before (sortNodesByDepth cfg) p d := by
  have hinj : ∀ y ∈ cfg.nodes, ∀ x ∈ sortNodesByDepth cfg,
      x.nodeId nsIdx = y.nodeId nsIdx → x = y := by
    intro y hy x hx he
    have hname : x.browseName.chars = y.browseName.chars := by
      simpa [ServerNodeDef.nodeId] using he
    exact h.names.eq_of_name (mem_sortNodesByDepth.mp hx) hy hname
  rw [hids]
  exact before_map_iff (hinj p hp) (hinj d hd)

/-- In a buildable configuration every recorded name is the name of a parent. -/
theorem Buildable.configParent_eq (h : Buildable cfg) (hd : d ∈ cfg.nodes) :
    configParent nsIdx cfg d = if d.parentBrowseName.chars = [] then objectsFolder
      else .string nsIdx d.parentBrowseName.chars := by
  rw [configParent]
  by_cases hnil : d.parentBrowseName.chars = []
  · have hnone : ¬ cfg.nodes.any (fun p => p.isParentOf d) = true := by
      simp [ServerNodeDef.isParentOf, hnil]
    rw [if_neg hnone, if_pos hnil]
  · obtain ⟨p, hp, hnode, hname⟩ := h.forest.parents d hd _ (if_neg hnil)
    -- It is not `d` itself: that would be a cycle.
    have hother : p.browseName.chars ≠ d.browseName.chars := by
      intro he
      obtain rfl : p = d := h.names.eq_of_name hp hd he
      exact h.forest.acyclic p (.single ⟨hp, hp, (if_neg hnil).trans (congrArg some hname.symm)⟩)
    have hany : cfg.nodes.any (fun p => p.isParentOf d) = true :=
      List.any_eq_true.mpr ⟨p, hp, isParentOf_iff.mpr ⟨hnode, hnil, hname, hother⟩⟩
    rw [if_pos hany, if_neg hnil]

/-- A build that the server accepts is a start. -/
theorem start_of_build
    (hbuild : nodeManagerBuild host (nodeManagerCreate nsIdx cfg file) = (.good, w)) :
    start host nsIdx cfg file = some w := by
  rw [start, hbuild]

/-- A build that leads to the tree had the deep definitions in order. -/
theorem deepInOrder_of_buildLaw (h : Buildable cfg) (hlaw : BuildLaw host nsIdx cfg file) :
    DeepInOrder cfg := by
  obtain ⟨w, hbuild, htree⟩ := hlaw
  have hids := h.ids (start_of_build hbuild)
  intro d hd p hp hparent
  have hbefore := (h.before_ids_iff hids hd hp).mp (htree.parentFirst d hd p hp hparent)
  exact (h.before_iff hp hparent).mp hbefore

/-- A build with the deep definitions in order leads to the tree. -/
theorem buildLaw_of_deepInOrder (hhost : ∀ b, host.refuse b = none) (h : Buildable cfg)
    (horder : DeepInOrder cfg) : BuildLaw host nsIdx cfg file := by
  have hbefore : ∀ d ∈ cfg.nodes, ∀ p ∈ cfg.nodes, p.isParentOf d = true →
      Before (sortNodesByDepth cfg) p d := fun d hd p hp hparent =>
    (h.before_iff hp hparent).mpr (horder d hd p hp hparent)
  obtain ⟨w, hstart⟩ := exists_start host nsIdx file hhost h.names
  have hids := h.ids hstart
  -- Each parent is there when its children are created.
  have htree := start_tree_of_before h.names (fun d hd _ => hbefore d hd) hstart
  refine ⟨w, ?_, ?_, fun d hd p hp hparent => ?_, fun d hd => ?_⟩
  · rw [start] at hstart
    split at hstart
    · rename_i hgood
      rw [hgood, Option.some.inj hstart]
    · cases hstart
  · rw [hids]
    exact sortNodesByDepth_perm.map _
  · exact (h.before_ids_iff hids hd hp).mpr (hbefore d hd p hp hparent)
  · have hd' := (htree (d.nodeId nsIdx) _).mpr ⟨d, hd, h.nodes d hd, rfl, rfl⟩
    rw [World.tree, Option.map_eq_some_iff] at hd'
    obtain ⟨n, hn, ht⟩ := hd'
    refine ⟨n, hn, ?_⟩
    rw [← h.configParent_eq hd]
    exact congrArg TreeNode.parent ht

/-- A definition that the build takes up before its parent goes below `Objects`. -/
theorem attached_of_late (h : Buildable cfg) (hd : d ∈ cfg.nodes) (hp : p ∈ cfg.nodes)
    (hparent : p.isParentOf d = true) (hlate : ¬ Before (sortNodesByDepth cfg) p d)
    (hstart : start host nsIdx cfg file = some w) :
    ∃ n, w.space.find (d.nodeId nsIdx) = some n ∧ n.parent = objectsFolder := by
  have hsorted := h.names.sorted
  have hdone := start_induction_listed (P := fun done w => d ∈ done →
    ∃ n, w.space.find (d.nodeId nsIdx) = some n ∧ n.parent = objectsFolder) ?_ ?_ nofun hstart
  · exact hdone.2 (mem_sortNodesByDepth.mpr hd)
  · rintro done x w w' ⟨post, hcut⟩ hw hlisted rfl hdone hnode hc hmem
    rw [List.append_assoc, List.singleton_append] at hcut
    rw [← hcut] at hsorted
    have hnodup := List.Nodup.of_map _ hsorted
    rw [List.map_append, List.map_cons, List.nodup_append] at hsorted
    obtain ⟨-, -, hfront⟩ := hsorted
    have hfresh : ∀ y ∈ done, y.browseName.chars ≠ x.browseName.chars := fun y hy =>
      hfront _ (List.mem_map_of_mem hy) _ (List.mem_cons_self ..)
    rcases List.mem_append.mp hmem with hdone' | hx
    · -- The node of `d` is there already, and stays.
      obtain ⟨n, hn, hobjects⟩ := hdone hdone'
      refine ⟨n, (hc.others _ fun he => hfresh d hdone' ?_).trans hn, hobjects⟩
      exact nodeIdOf_inj.mp he
    · rw [List.mem_singleton] at hx
      subst hx
      obtain ⟨n, hn, hresolved, -⟩ := hc.self
      refine ⟨n, hn, hresolved.trans ?_⟩
      rcases hlisted.resolveParent hw d.parentBrowseName.chars with
        ⟨-, ⟨y, hy, -, hname⟩, -⟩ | ⟨-, hobjects⟩
      · -- The name of the parent was created before: then the parent was.
        have hmem : y ∈ cfg.nodes :=
          mem_sortNodesByDepth.mp (hcut ▸ List.mem_append_left _ hy)
        have hyp : y = p := h.names.eq_of_name hmem hp
          (hname.trans (isParentOf_iff.mp hparent).2.2.1.symm)
        rw [← hcut] at hlate
        exact absurd (before_of_nodup hnodup (hyp ▸ hy)) hlate
      · exact hobjects
  · intro done x w hdone hother hmem
    rcases List.mem_append.mp hmem with hmem | hx
    · exact hdone hmem
    · rw [List.mem_singleton] at hx
      rw [← hx, h.nodes d hd] at hother
      cases hother

/-- **The extent of the law.** For a server that accepts every node, the build leads to the
tree exactly when the deep definitions are in order. -/
theorem buildLaw_iff (host : Host) (nsIdx : Nat) (file : Option CString)
    (hhost : ∀ b, host.refuse b = none) (h : Buildable cfg) :
    BuildLaw host nsIdx cfg file ↔ DeepInOrder cfg :=
  ⟨deepInOrder_of_buildLaw h, buildLaw_of_deepInOrder hhost h⟩

/-! ### A chain of folders -/

/-- Folders with these names, each in the one before it. -/
def chainFrom : CString → List CString → ServerConfig → ServerConfig
  | _, [], cfg => cfg
  | parent, b :: bs, cfg => chainFrom b bs (withFolder cfg parent b)

/-- A chain of 34 folders, with a depth of 33. -/
def deepChain : ServerConfig := chainFrom [] (fillNames 34) emptyConfig

/-- The chain, and then one more folder under `Objects`. -/
def deepChainAndRoot : ServerConfig := withFolder deepChain [] "Hall".toList

/-- A configuration that lists parents first is buildable. -/
theorem buildable_of_parentsFirst
    (h : (cfg.nodes.all ServerNodeDef.isNode &&
      parentsFirst ServerNodeDef.name ServerNodeDef.parentName ServerNodeDef.isNode []
        cfg.nodes) = true) : Buildable cfg := by
  rw [Bool.and_eq_true, List.all_eq_true] at h
  exact ⟨h.1, isForest_of_parentsFirst cfg.nodes isForest_nil h.2⟩

theorem buildable_deepChain : Buildable deepChain :=
  buildable_of_parentsFirst (by decide +kernel)

theorem buildable_deepChainAndRoot : Buildable deepChainAndRoot :=
  buildable_of_parentsFirst (by decide +kernel)

/-- The build of the chain leads to the tree: its last two folders are in order. -/
theorem buildLaw_deepChain : BuildLaw .ok 1 deepChain none := by
  refine (buildLaw_iff .ok 1 none (fun _ => rfl) buildable_deepChain).mpr ?_
  unfold DeepInOrder
  decide +kernel

/-- With one more folder at the end of the list, the last folder of the chain comes before its
parent, and goes below `Objects`. -/
theorem not_buildLaw_deepChainAndRoot :
    Buildable deepChainAndRoot ∧ ¬ BuildLaw .ok 1 deepChainAndRoot none ∧
    ∃ w n, start .ok 1 deepChainAndRoot none = some w ∧
      w.space.find (.string 1 (fillName 33)) = some n ∧ n.parent = objectsFolder := by
  have hbuildable := buildable_deepChainAndRoot
  -- The folder at the end of the list moves the first of the queue behind the second, its child.
  have hlate : ∃ d ∈ deepChainAndRoot.nodes, d.browseName.chars = fillName 33 ∧
      ∃ p ∈ deepChainAndRoot.nodes, p.isParentOf d = true ∧
        nodeDepth deepChainAndRoot p = 32 ∧ ¬ Before (deepQueue deepChainAndRoot) p d := by
    decide +kernel
  obtain ⟨d, hd, hname, p, hp, hparent, hdeep, hlate⟩ := hlate
  refine ⟨hbuildable, fun hlaw => ?_, ?_⟩
  · exact hlate (deepInOrder_of_buildLaw hbuildable hlaw d hd p hp hparent hdeep)
  · obtain ⟨w, hstart⟩ := exists_start .ok 1 none (fun _ => rfl) hbuildable.names
    obtain ⟨n, hn, hobjects⟩ := attached_of_late hbuildable hd hp hparent
      (fun hbefore => hlate ((hbuildable.before_iff hp hparent).mp hbefore hdeep)) hstart
    rw [ServerNodeDef.nodeId, hname] at hn
    exact ⟨w, n, hstart, hn, hobjects⟩

end SmartFactory.Server
