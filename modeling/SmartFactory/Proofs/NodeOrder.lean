import SmartFactory.Proofs.Depth

/-!
# `SmartFactory.Proofs.NodeOrder`: what `sort_nodes_by_depth` leaves in `sorted`

Nothing is assumed about the configuration: names may occur twice, parents may be missing and may
form a cycle. The order is by `node_depth` whatever that counts. `ParentChain` says what it counts
where the way up comes to an end, and `sortFirstNodesByDepth_correct` puts the two together.
-/

set_option autoImplicit false

namespace SmartFactory.Server

/-- From the recorded name of a parent, the way up leads over so many definitions until it comes to
an empty name or to one that no definition has. Of several definitions with a name the first one
counts. -/
inductive ParentChain (cfg : ServerConfig) : CString → Nat → Prop where
  | empty : ParentChain cfg [] 0
  | unknown {parent : CString} :
      cfg.nodes.find? (fun n => n.browseName.chars == parent) = none → ParentChain cfg parent 0
  | found {parent : CString} {n : ServerNodeDef} {d : Nat} : parent ≠ [] →
      cfg.nodes.find? (fun n => n.browseName.chars == parent) = some n →
      ParentChain cfg n.parentBrowseName.chars d → ParentChain cfg parent (d + 1)

/-- The loop counts the definitions of a chain that ends before its last round. -/
theorem nodeDepthLoop_of_chain {cfg : ServerConfig} {parent : CString} {d : Nat}
    (h : ParentChain cfg parent d) {guard : Nat} (hd : d < guard) (depth : Nat) :
    nodeDepthLoop cfg guard depth parent = depth + d := by
  induction h generalizing guard depth with
  | empty =>
      cases guard with
      | zero => omega
      | succ guard => rfl
  -- A parent that is not found ends the loop as an empty one does.
  | unknown hnone =>
      cases guard with
      | zero => omega
      | succ guard =>
          rw [nodeDepthLoop, hnone]
          split
          · rfl
          · rfl
  | found hne hfind _ ih =>
      cases guard with
      | zero => omega
      | succ guard =>
          rw [nodeDepthLoop, if_neg hne, hfind]
          show nodeDepthLoop cfg guard (depth + 1) _ = _
          rw [ih (by omega)]
          omega

/-- Sorting all nodes is sorting the first ones of them, as many as there are. -/
theorem sortFirstNodesByDepth_length (cfg : ServerConfig) :
    sortFirstNodesByDepth cfg cfg.nodes.length = sortNodesByDepth cfg := by
  rw [sortFirstNodesByDepth, List.take_length, exchangeInPlace_eq, sortNodesByDepth]

/-- **What is left in `sorted`.** The first `n` definitions, each as often as before, in an order in
which the depth does not fall. And the depth of a node is the length of its chain of parents, for a
chain that ends after 31 of them at most. -/
theorem sortFirstNodesByDepth_correct (cfg : ServerConfig) (n : Nat) :
    (sortFirstNodesByDepth cfg n).Perm (cfg.nodes.take n) ∧
      (sortFirstNodesByDepth cfg n).Pairwise (fun x y => nodeDepth cfg x ≤ nodeDepth cfg y) ∧
      ∀ (node : ServerNodeDef) (d : Nat), d ≤ 31 →
        ParentChain cfg node.parentBrowseName.chars d → nodeDepth cfg node = d := by
  rw [sortFirstNodesByDepth, exchangeInPlace_eq]
  refine ⟨exchangeSort_perm _ _, exchangeSort_sorted _ _, ?_⟩
  intro node d hd hchain
  have hcount := nodeDepthLoop_of_chain hchain (show d < 32 by omega) 0
  rw [Nat.zero_add] at hcount
  exact hcount

end SmartFactory.Server
