import SmartFactory.Proofs.Agreement

/-!
# `SmartFactory.Proofs.Depth`: the order of the build

`node_manager_build` creates the nodes by `node_depth`, so that a parent exists before its
children. That works as long as a recorded parent has a smaller depth than its child:
`WellOrdered`. It fails for parents that form a cycle, and from a depth of 32 on, where
`node_depth` stops counting.

The depth of a definition depends on the names above it only. An addition whose name nobody
records as a parent, and a deletion of a name without children, leave it alone.
-/

set_option autoImplicit false

namespace SmartFactory.Server

/-- The definition `p` is a node, and `d` records its name as the name of its parent. A
definition that records its own name has no parent in this sense: when its node is created,
`resolve_parent` does not find the name yet. -/
def ServerNodeDef.isParentOf (p d : ServerNodeDef) : Bool :=
  p.isNode && d.parentBrowseName.chars ≠ [] &&
    p.browseName.chars = d.parentBrowseName.chars && p.browseName.chars ≠ d.browseName.chars

theorem isParentOf_iff {p d : ServerNodeDef} : p.isParentOf d = true ↔
    p.isNode = true ∧ d.parentBrowseName.chars ≠ [] ∧
      p.browseName.chars = d.parentBrowseName.chars ∧
      p.browseName.chars ≠ d.browseName.chars := by
  simp [ServerNodeDef.isParentOf, and_assoc]

/-- With distinct names, a search for the recorded name finds the parent. -/
theorem DistinctNames.find_parent {cfg : ServerConfig} (h : DistinctNames cfg)
    {p d : ServerNodeDef} (hp : p ∈ cfg.nodes) (hparent : p.isParentOf d = true) :
    cfg.nodes.find? (fun n => n.browseName.chars == d.parentBrowseName.chars) = some p := by
  obtain ⟨-, -, hname, -⟩ := isParentOf_iff.mp hparent
  have hfind := Keyed.find?_eq_some (fun n : ServerNodeDef => n.browseName.chars) h hp
  rw [hname] at hfind
  exact hfind

/-- Each parent is less deep than its children. -/
def WellOrdered (cfg : ServerConfig) : Prop :=
  ∀ d ∈ cfg.nodes, d.isNode = true → ∀ p ∈ cfg.nodes, p.isParentOf d = true →
    nodeDepth cfg p < nodeDepth cfg d

/-- Nobody records the name as the name of a parent. -/
theorem hasChildren_eq_false {cfg : ServerConfig} {b : CString} :
    hasChildrenInConfig cfg b = false ↔
      ∀ x ∈ cfg.nodes, x.parentBrowseName.chars ≠ b := by
  simp [hasChildrenInConfig, List.any_eq_false]

/-! ### The loop of `node_depth` -/

variable {cfg cfg' : ServerConfig}

/-- The counter of the loop only adds up. -/
theorem nodeDepthLoop_succ (guard depth : Nat) (parent : CString) :
    nodeDepthLoop cfg guard (depth + 1) parent = nodeDepthLoop cfg guard depth parent + 1 := by
  induction guard generalizing depth parent with
  | zero => rfl
  | succ guard ih =>
      rw [nodeDepthLoop, nodeDepthLoop]
      split
      · rfl
      · split
        · exact ih _ _
        · rfl

/-- A loop that ends before its last round does not need the last round. -/
theorem nodeDepthLoop_of_lt {guard depth : Nat} {parent : CString}
    (h : nodeDepthLoop cfg (guard + 1) depth parent < depth + (guard + 1)) :
    nodeDepthLoop cfg guard depth parent = nodeDepthLoop cfg (guard + 1) depth parent := by
  induction guard generalizing depth parent with
  | zero =>
      rw [nodeDepthLoop] at h ⊢
      rw [nodeDepthLoop]
      split at h
      · rename_i hnil
        rw [if_pos hnil]
      · rename_i hne
        rw [if_neg hne]
        split at h
        · -- One round was made, and there was only one.
          rw [nodeDepthLoop] at h
          omega
        · rfl
  | succ guard ih =>
      rw [nodeDepthLoop] at h
      rw [nodeDepthLoop, nodeDepthLoop]
      split
      · rfl
      · rename_i hne
        rw [if_neg hne] at h
        split
        · rename_i n hfind
          simp only [hfind] at h
          exact ih (by omega)
        · rfl

/-- A definition whose parent is found is one deeper than its parent, as long as the count
of the parent ends before the last round. -/
theorem nodeDepth_eq_succ {d p : ServerNodeDef} (hne : d.parentBrowseName.chars ≠ [])
    (hfind : cfg.nodes.find? (fun n => n.browseName.chars == d.parentBrowseName.chars) = some p)
    (hlt : nodeDepth cfg p < 32) : nodeDepth cfg d = nodeDepth cfg p + 1 := by
  -- The first round finds the parent; the other 31 count its ancestors.
  have hround : nodeDepth cfg d = nodeDepthLoop cfg 31 1 p.parentBrowseName.chars := by
    rw [nodeDepth, nodeDepthLoop, if_neg hne, hfind]
  have hshort : nodeDepthLoop cfg 31 0 p.parentBrowseName.chars = nodeDepth cfg p :=
    nodeDepthLoop_of_lt (by rw [nodeDepth] at hlt; omega)
  rw [hround, nodeDepthLoop_succ, hshort]

/-- The loop counts at most its rounds. -/
theorem nodeDepthLoop_le (guard depth : Nat) (parent : CString) :
    nodeDepthLoop cfg guard depth parent ≤ depth + guard := by
  induction guard generalizing depth parent with
  | zero => exact Nat.le_refl _
  | succ guard ih =>
      rw [nodeDepthLoop]
      split
      · omega
      · split
        · rename_i n _
          have h := ih (depth + 1) n.parentBrowseName.chars
          omega
        · omega

/-- The last round adds one at most. -/
theorem nodeDepthLoop_le_succ (guard depth : Nat) (parent : CString) :
    nodeDepthLoop cfg (guard + 1) depth parent ≤ nodeDepthLoop cfg guard depth parent + 1 := by
  induction guard generalizing depth parent with
  | zero => exact nodeDepthLoop_le 1 depth parent
  | succ guard ih =>
      rw [nodeDepthLoop, nodeDepthLoop]
      split
      · omega
      · split
        · exact ih _ _
        · omega

/-- No depth is more than 32. -/
theorem nodeDepth_le (d : ServerNodeDef) : nodeDepth cfg d ≤ 32 := by
  have h : nodeDepth cfg d ≤ 0 + 32 := nodeDepthLoop_le 32 0 d.parentBrowseName.chars
  omega

/-- From 32 on the depth stays the same: a definition below one of depth 32 has depth 32. -/
theorem nodeDepth_eq_of_deep {d p : ServerNodeDef} (hne : d.parentBrowseName.chars ≠ [])
    (hfind : cfg.nodes.find? (fun n => n.browseName.chars == d.parentBrowseName.chars) = some p)
    (hdeep : nodeDepth cfg p = 32) : nodeDepth cfg d = 32 := by
  have hround : nodeDepth cfg d = nodeDepthLoop cfg 31 0 p.parentBrowseName.chars + 1 := by
    rw [nodeDepth, nodeDepthLoop, if_neg hne, hfind]
    exact nodeDepthLoop_succ 31 0 _
  have hlast : nodeDepth cfg p ≤ nodeDepthLoop cfg 31 0 p.parentBrowseName.chars + 1 :=
    nodeDepthLoop_le_succ 31 0 _
  have hle : nodeDepth cfg d ≤ 32 := nodeDepth_le d
  omega

/-- The loop depends on what it finds only: two configurations that find the same parents
for every name that comes up give the same count. -/
theorem nodeDepthLoop_congr (ok : CString → Prop)
    (hsame : ∀ b, ok b →
      (cfg'.nodes.find? (fun n => n.browseName.chars == b)).map
          (fun n => n.parentBrowseName.chars)
        = (cfg.nodes.find? (fun n => n.browseName.chars == b)).map
            (fun n => n.parentBrowseName.chars))
    (hnext : ∀ n ∈ cfg.nodes, ok n.parentBrowseName.chars)
    (guard depth : Nat) {parent : CString} (hok : ok parent) :
    nodeDepthLoop cfg' guard depth parent = nodeDepthLoop cfg guard depth parent := by
  induction guard generalizing depth parent with
  | zero => rfl
  | succ guard ih =>
      rw [nodeDepthLoop, nodeDepthLoop]
      split
      · rfl
      · -- The loop goes on with the parent of what it finds, which both configurations find.
        have h := hsame parent hok
        cases hfind : cfg.nodes.find? (fun n => n.browseName.chars == parent) with
        | none =>
            rw [hfind, Option.map_none, Option.map_eq_none_iff] at h
            rw [h]
        | some n =>
            rw [hfind, Option.map_some, Option.map_eq_some_iff] at h
            obtain ⟨n', hfind', hparent⟩ := h
            rw [hfind']
            simp only [hparent]
            exact ih _ (hnext n (List.mem_of_find?_eq_some hfind))

/-! ### Additions and deletions -/

/-- A name that no definition records as a parent can be added without changing a depth. -/
theorem nodeDepth_append {d x : ServerNodeDef} (hnodes : cfg'.nodes = cfg.nodes ++ [d])
    (hchildless : hasChildrenInConfig cfg d.browseName.chars = false)
    (hx : x.parentBrowseName.chars ≠ d.browseName.chars) :
    nodeDepth cfg' x = nodeDepth cfg x := by
  -- The loop never asks for the new name: no definition records it.
  refine nodeDepthLoop_congr (fun b => b ≠ d.browseName.chars) (fun b hb => ?_)
    (hasChildren_eq_false.mp hchildless) 32 0 hx
  have hd : (d.browseName.chars == b) = false := by simpa using fun he => hb he.symm
  rw [hnodes, List.find?_append, List.find?_cons, hd, List.find?_nil, Option.or_none]

/-- A name that no definition records as a parent can be removed without changing a depth. -/
theorem nodeDepth_eraseP {b : CString} {x : ServerNodeDef}
    (hnodes : cfg'.nodes = cfg.nodes.eraseP (fun n => n.browseName.chars == b))
    (hchildless : hasChildrenInConfig cfg b = false)
    (hx : x.parentBrowseName.chars ≠ b) :
    nodeDepth cfg' x = nodeDepth cfg x := by
  refine nodeDepthLoop_congr (fun c => c ≠ b) (fun c hc => ?_)
    (hasChildren_eq_false.mp hchildless) 32 0 hx
  rw [hnodes, Keyed.find?_eraseP_of_ne (fun n : ServerNodeDef => n.browseName.chars) hc]

variable {d : ServerNodeDef}

/-- Adding a definition whose name nobody records as a parent, below a parent that is less
than 32 deep, keeps the parents less deep than their children. -/
theorem WellOrdered.append (h : WellOrdered cfg) (hnd : DistinctNames cfg)
    (hnodes : cfg'.nodes = cfg.nodes ++ [d])
    (hchildless : hasChildrenInConfig cfg d.browseName.chars = false)
    (hdeep : ∀ p ∈ cfg.nodes, p.isParentOf d = true → nodeDepth cfg p < 32) :
    WellOrdered cfg' := by
  have hnot := hasChildren_eq_false.mp hchildless
  have hold : ∀ x ∈ cfg.nodes, nodeDepth cfg' x = nodeDepth cfg x := fun x hx =>
    nodeDepth_append hnodes hchildless (hnot x hx)
  intro x hx hnode p hp hparent
  obtain ⟨-, hne, hname, hother⟩ := isParentOf_iff.mp hparent
  rw [hnodes, List.mem_append, List.mem_singleton] at hx hp
  rcases hp with hp | rfl
  · rcases hx with hx | rfl
    · rw [hold x hx, hold p hp]
      exact h x hx hnode p hp hparent
    · -- The parent of the new definition is an old one.
      have hself : x.parentBrowseName.chars ≠ x.browseName.chars := fun he =>
        hother (hname.trans he)
      rw [hold p hp, nodeDepth_append hnodes hchildless hself,
        nodeDepth_eq_succ hne (hnd.find_parent hp hparent) (hdeep p hp hparent)]
      exact Nat.lt_succ_self _
  · -- The new definition is nobody's parent.
    rcases hx with hx | rfl
    · exact absurd hname.symm (hnot x hx)
    · exact absurd rfl hother

/-- Removing a name that nobody records as a parent keeps the parents less deep than their
children. -/
theorem WellOrdered.eraseP {b : CString} (h : WellOrdered cfg)
    (hnodes : cfg'.nodes = cfg.nodes.eraseP (fun n => n.browseName.chars == b))
    (hchildless : hasChildrenInConfig cfg b = false) : WellOrdered cfg' := by
  have hnot := hasChildren_eq_false.mp hchildless
  have hmem : ∀ x ∈ cfg'.nodes, x ∈ cfg.nodes := fun x hx =>
    List.mem_of_mem_eraseP (hnodes ▸ hx)
  have hold : ∀ x ∈ cfg.nodes, nodeDepth cfg' x = nodeDepth cfg x := fun x hx =>
    nodeDepth_eraseP hnodes hchildless (hnot x hx)
  intro x hx hnode p hp hparent
  rw [hold x (hmem x hx), hold p (hmem p hp)]
  exact h x (hmem x hx) hnode p (hmem p hp) hparent

end SmartFactory.Server
