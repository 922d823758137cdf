import SmartFactory.Bridge.OpcUaBrowser
import SmartFactory.Bridge.NodeIdText
import SmartFactory.Lib.Walks

/-!
# `SmartFactory.Proofs.Bridge.Browsing`: what the browser finds

The browser has no memory of where it has been, so it follows all walks through the objects of the
address space (`browseRecursive_answer`). From there on everything is `Walks`: it comes to an end
when no cycle can be reached, whatever calls fail, and it finds a variable as often as there are
walks to it.

`discovers_iff` puts both together. A cycle of objects is enough to keep it busy for ever, and a
variable with two references to it is found twice.
-/

set_option autoImplicit false

namespace SmartFactory.Bridge

open Relation (ReflTransGen TransGen)
open Walks (Leads Edge walks walksFrom walksVia)

namespace AddressSpace

variable (s : AddressSpace)

/-- A reference to an object. -/
abbrev Child : NodeID → NodeID → Prop := Edge s.targets s.isObject

/-- The object can be reached from the Objects folder. -/
def Reachable (id : NodeID) : Prop := ReflTransGen s.Child objectsFolder id

/-- The variable is referenced from an object that can be reached from the Objects folder. -/
def Offers (v : NodeID) : Prop :=
  s.nodeClass v = .variable ∧ ∃ id, s.Reachable id ∧ v ∈ s.references id

/-- No object that can be reached can be reached from itself again. -/
def Acyclic : Prop := ∀ id, s.Reachable id → ¬ TransGen s.Child id id

/-- The references lead from the Objects folder to the node: the positions of the references that
are taken, one after the other. -/
def Way (w : List Nat) (id : NodeID) : Prop := Leads s.targets s.isObject objectsFolder w id

end AddressSpace

/-- The browser comes to an end, whatever calls fail. When none does it has found each variable
once. -/
structure Discovers (print : NodeID → String) (s : AddressSpace) : Prop where
  terminates : ∀ respond, s.Answers respond →
    ∃ fuel, (browseRecursive print respond fuel objectsFolder ⟨[], 0⟩).isSome
  once : ∀ fuel r, browseRecursive print (fun _ => s.answer) fuel objectsFolder ⟨[], 0⟩ = some r →
    ∀ v, s.Offers v → (r.2.nodes.countP fun n => n.nodeIdString = print v) = 1

section
variable (print : NodeID → String) {s : AddressSpace}

/-- An answer of the server describes the targets. -/
theorem answer_references (id : NodeID) :
    (s.answer id).references = some ((s.targets id).map s.describe) := by
  simp [AddressSpace.answer, BrowseResponse.references]

/-- Targets are the variables and objects that are referred to. -/
theorem mem_targets {id target : NodeID} : target ∈ s.targets id ↔
    target ∈ s.references id ∧ (s.nodeClass target = .variable ∨ s.isObject target = true) := by
  simp [AddressSpace.targets]

/-- What the browser does with a reference to an object. -/
theorem browseReference_object {id : NodeID} (h : s.isObject id = true)
    (browse : NodeID → OpcUaBrowser → Option (Bool × OpcUaBrowser)) (b : OpcUaBrowser) :
    browseReference print browse b (s.describe id) = (browse id b).map Prod.snd := by
  have hclass : s.nodeClass id = .object := of_decide_eq_true h
  simp [browseReference, AddressSpace.describe, hclass]

/-- What the browser does with a reference to a variable. -/
theorem browseReference_variable {id : NodeID} (h : s.nodeClass id = .variable)
    (browse : NodeID → OpcUaBrowser → Option (Bool × OpcUaBrowser)) (b : OpcUaBrowser) :
    browseReference print browse b (s.describe id) =
      some { b with nodes := b.nodes ++ [discoveredNode print (s.describe id)] } := by
  simp [browseReference, AddressSpace.describe, h]

/-- The nodes that the browser finds on its walks. -/
def found (s : AddressSpace) (ws : List (List Nat × NodeID)) : List DiscoveredNode :=
  ws.map fun p => discoveredNode print (s.describe p.2)

/-- The loop of `browseRecursive` follows the walks that begin with the references. -/
theorem foldlM_browseReference {browse : NodeID → OpcUaBrowser → Option (Bool × OpcUaBrowser)}
    {onward : NodeID → Option (List (List Nat × NodeID))}
    (hbrowse : ∀ id b, (browse id b).map (fun r => r.2.nodes) =
      (onward id).map fun ws => b.nodes ++ found print s ws)
    {ids : List NodeID} (hids : ∀ id ∈ ids, s.nodeClass id = .variable ∨ s.isObject id = true)
    (i : Nat) (b : OpcUaBrowser) :
    ((ids.map s.describe).foldlM (browseReference print browse) b).map OpcUaBrowser.nodes =
      (walksFrom s.isObject onward i ids).map fun ws => b.nodes ++ found print s ws := by
  induction ids generalizing i b with
  | nil => simp [walksFrom, found]
  | cons id ids ih =>
      rw [List.forall_mem_cons] at hids
      rw [List.map_cons, List.foldlM_cons, walksFrom, walksVia]
      cases hobject : s.isObject id with
      | true =>
          -- An object is entered. When its own walk runs out of fuel, so does the loop.
          rw [browseReference_object print hobject]
          have hid := hbrowse id b
          cases honward : onward id with
          | none =>
              rw [honward, Option.map_none, Option.map_eq_none_iff] at hid
              simp [hid]
          | some ws =>
              rw [honward, Option.map_some, Option.map_eq_some_iff] at hid
              obtain ⟨r, hr, hnodes⟩ := hid
              have hrest := ih hids.2 (i + 1) r.2
              rw [hnodes] at hrest
              cases hothers : walksFrom s.isObject onward (i + 1) ids with
              | none => simpa [hr, hothers] using hrest
              | some others => simpa [hr, hothers, found, Function.comp_def] using hrest
      | false =>
          -- A variable is taken down as it stands and ends its walk.
          have hvariable := hids.1.resolve_right (by simp [hobject])
          rw [browseReference_variable print hvariable]
          have hrest := ih hids.2 (i + 1)
            { b with nodes := b.nodes ++ [discoveredNode print (s.describe id)] }
          cases hothers : walksFrom s.isObject onward (i + 1) ids with
          | none => simpa [hothers] using hrest
          | some others => simpa [hothers, found] using hrest

/-- A call of the browser goes through the references of one answer. -/
theorem browseRecursive_succ {respond : Nat → NodeID → BrowseResponse} {fuel : Nat}
    {id : NodeID} {b : OpcUaBrowser} {references : List ReferenceDescription}
    (h : (respond b.calls id).references = some references) :
    browseRecursive print respond (fuel + 1) id b =
      (references.foldlM (browseReference print (browseRecursive print respond fuel))
        { b with calls := b.calls + 1 }).map fun b => (true, b) := by
  rw [browseRecursive, h]

/-- **When no call fails** the browser finds a node for each walk. -/
theorem browseRecursive_answer (fuel : Nat) (id : NodeID) (b : OpcUaBrowser) :
    (browseRecursive print (fun _ => s.answer) fuel id b).map (fun r => r.2.nodes) =
      (walks s.targets s.isObject fuel id).map fun ws => b.nodes ++ found print s ws := by
  induction fuel generalizing id b with
  | zero => rfl
  | succ fuel ih =>
      rw [browseRecursive_succ print (answer_references id), walks, Option.map_map]
      exact foldlM_browseReference print ih (fun t ht => (mem_targets.mp ht).2) 0
        { b with calls := b.calls + 1 }

/-- What `connectAndBrowse` leaves in the list. -/
theorem connectAndBrowse_answer (fuel : Nat) :
    connectAndBrowse print (fun _ => s.answer) true statusCodeGood statusCodeGood fuel =
      (walks s.targets s.isObject fuel objectsFolder).map fun ws => (true, found print s ws) := by
  have hnodes := browseRecursive_answer print (s := s) fuel objectsFolder ⟨[], 0⟩
  have hconnect : connectAndBrowse print (fun _ => s.answer) true statusCodeGood statusCodeGood
      fuel = (browseRecursive print (fun _ => s.answer) fuel objectsFolder ⟨[], 0⟩).map
        fun r => (r.1, r.2.nodes) := by
    simp [connectAndBrowse]
  cases fuel with
  | zero => rfl
  | succ fuel =>
      rw [browseRecursive_succ print (answer_references objectsFolder), Option.map_map] at hnodes
      rw [hconnect, browseRecursive_succ print (answer_references objectsFolder), Option.map_map]
      have hpair := congrArg (Option.map fun nodes => (true, nodes)) hnodes
      rw [Option.map_map, Option.map_map] at hpair
      exact hpair

/-- A loop comes to an end when each of its steps does. -/
theorem foldlM_isSome {α β : Type} {f : β → α → Option β} {as : List α}
    (h : ∀ a ∈ as, ∀ b, (f b a).isSome) (b : β) : (as.foldlM f b).isSome := by
  induction as generalizing b with
  | nil => rfl
  | cons a as ih =>
      rw [List.forall_mem_cons] at h
      obtain ⟨b', hb'⟩ := Option.isSome_iff_exists.mp (h.1 b)
      rw [List.foldlM_cons, hb']
      exact ih h.2 b'

/-- Whatever calls fail, the browser comes to an end when the walks do. -/
theorem browseRecursive_isSome {respond : Nat → NodeID → BrowseResponse}
    (hanswers : s.Answers respond) {fuel : Nat} {id : NodeID}
    (h : (walks s.targets s.isObject fuel id).isSome) (b : OpcUaBrowser) :
    (browseRecursive print respond fuel id b).isSome := by
  induction fuel generalizing id b with
  | zero => cases h
  | succ fuel ih =>
      rw [Walks.walks_succ_isSome_iff] at h
      rcases hanswers b.calls id with hanswer | hfails
      · have hrefs := answer_references (s := s) id
        rw [← hanswer] at hrefs
        rw [browseRecursive_succ print hrefs, Option.isSome_map]
        refine foldlM_isSome (List.forall_mem_map.mpr fun target htarget b' => ?_) _
        cases hobject : s.isObject target with
        | true =>
            rw [browseReference_object print hobject, Option.isSome_map]
            exact ih (h target ⟨htarget, hobject⟩) b'
        | false =>
            have hvariable := (mem_targets.mp htarget).2.resolve_right (by simp [hobject])
            rw [browseReference_variable print hvariable]
            rfl
      · -- A call that fails ends this branch.
        rw [browseRecursive, hfails]
        rfl

/-! ### The address space is finite -/

/-- What can be reached is a node of the address space. -/
theorem mem_nodes_of_reachable {id : NodeID} (h : s.Reachable id) : id ∈ s.nodes := by
  induction h with
  | refl => exact s.root
  | tail _ hedge ih => exact s.closed _ ih _ (mem_targets.mp hedge.1).1

/-- So it is finite. -/
theorem reachable_finite (s : AddressSpace) :
    {id | ReflTransGen (Edge s.targets s.isObject) objectsFolder id}.Finite :=
  s.nodes.finite_toSet.subset fun _ hid => mem_nodes_of_reachable hid

/-- A walk stays inside of the address space. -/
theorem mem_nodes_of_leads {id id' : NodeID} {w : List Nat} (hid : id ∈ s.nodes)
    (h : Leads s.targets s.isObject id w id') : id' ∈ s.nodes := by
  induction h with
  | last hget => exact s.closed _ hid _ (mem_targets.mp (List.mem_of_getElem? hget)).1
  | more hget _ _ ih => exact ih (s.closed _ hid _ (mem_targets.mp (List.mem_of_getElem? hget)).1)

/-! ### What the browser finds -/

/-- A server that always answers is one of the servers meant. -/
theorem answers_answer (s : AddressSpace) : s.Answers fun _ => s.answer := fun _ _ => .inl rfl

/-- The browser comes to an end exactly when no cycle can be reached. -/
theorem terminates_iff : (∀ respond, s.Answers respond →
    ∃ fuel, (browseRecursive print respond fuel objectsFolder ⟨[], 0⟩).isSome) ↔ s.Acyclic := by
  refine Iff.trans ?_ (Walks.exists_walks_iff (reachable_finite s))
  constructor
  · intro h
    obtain ⟨fuel, hfuel⟩ := h _ (answers_answer s)
    have hnodes := browseRecursive_answer print (s := s) fuel objectsFolder ⟨[], 0⟩
    refine ⟨fuel, ?_⟩
    rw [← Option.isSome_map, ← hnodes, Option.isSome_map]
    exact hfuel
  · rintro ⟨fuel, hfuel⟩ respond hanswers
    exact ⟨fuel, browseRecursive_isSome print hanswers hfuel _⟩

/-- A variable is found once exactly when there is one way to it. -/
theorem countP_found_eq_one_iff (hprint : ∀ x ∈ s.nodes, ∀ y ∈ s.nodes, print x = print y → x = y)
    {fuel : Nat} {r : Bool × OpcUaBrowser}
    (h : browseRecursive print (fun _ => s.answer) fuel objectsFolder ⟨[], 0⟩ = some r)
    {v : NodeID} (hv : s.Offers v) :
    (r.2.nodes.countP fun n => n.nodeIdString = print v) = 1 ↔ ∃! w, s.Way w v := by
  obtain ⟨hvariable, id, hid, href⟩ := hv
  have hmem : v ∈ s.nodes := s.closed id (mem_nodes_of_reachable hid) v href
  have hend : s.isObject v = false := by simp [AddressSpace.isObject, hvariable]
  have hnodes := browseRecursive_answer print (s := s) fuel objectsFolder ⟨[], 0⟩
  rw [h, Option.map_some, eq_comm, Option.map_eq_some_iff] at hnodes
  obtain ⟨ws, hws, hnodes⟩ := hnodes
  -- Different nodes have different texts, so that the texts are counted as the nodes are.
  have hcount : (r.2.nodes.countP fun n => n.nodeIdString = print v) =
      ws.countP fun p => p.2 = v := by
    rw [← hnodes, List.nil_append, found, List.countP_map]
    refine List.countP_congr fun p hp => ?_
    have hleads := ((Walks.mem_walks_iff hws).mp hp).1
    simp only [Function.comp_apply, discoveredNode, AddressSpace.describe, decide_eq_true_eq]
    exact ⟨hprint _ (mem_nodes_of_leads s.root hleads) _ hmem, congrArg print⟩
  rw [hcount]
  exact Walks.countP_walks_eq_one_iff hws hend

/-- On such an address space `connectAndBrowse` succeeds, and its list has each variable once. -/
theorem connectAndBrowse_finds
    (hprint : ∀ x ∈ s.nodes, ∀ y ∈ s.nodes, print x = print y → x = y) (hacyclic : s.Acyclic)
    (hways : ∀ v, s.Offers v → ∃! w, s.Way w v) : ∃ fuel nodes,
      connectAndBrowse print (fun _ => s.answer) true statusCodeGood statusCodeGood fuel
        = some (true, nodes) ∧
      ∀ v, s.Offers v → (nodes.countP fun n => n.nodeIdString = print v) = 1 := by
  obtain ⟨fuel, hfuel⟩ := (terminates_iff print).mpr hacyclic _ (answers_answer s)
  obtain ⟨r, hr⟩ := Option.isSome_iff_exists.mp hfuel
  have hnodes := browseRecursive_answer print (s := s) fuel objectsFolder ⟨[], 0⟩
  rw [hr, Option.map_some, eq_comm, Option.map_eq_some_iff] at hnodes
  obtain ⟨ws, hws, hnodes⟩ := hnodes
  refine ⟨fuel, r.2.nodes, ?_, fun v hv => ?_⟩
  · rw [connectAndBrowse_answer, hws, ← hnodes]
    rfl
  · exact (countP_found_eq_one_iff print hprint hr hv).mpr (hways v hv)

/-- The browser does what it is for exactly on the address spaces without a cycle in which there is
one way to each variable. -/
theorem discovers_iff (s : AddressSpace)
    (hprint : ∀ x ∈ s.nodes, ∀ y ∈ s.nodes, print x = print y → x = y) :
    Discovers print s ↔ s.Acyclic ∧ ∀ v, s.Offers v → ∃! w, s.Way w v := by
  constructor
  · rintro ⟨hterminates, honce⟩
    refine ⟨(terminates_iff print).mp hterminates, fun v hv => ?_⟩
    obtain ⟨fuel, hfuel⟩ := hterminates _ (answers_answer s)
    obtain ⟨r, hr⟩ := Option.isSome_iff_exists.mp hfuel
    exact (countP_found_eq_one_iff print hprint hr hv).mp (honce fuel r hr v hv)
  · rintro ⟨hacyclic, hways⟩
    refine ⟨(terminates_iff print).mpr hacyclic, fun fuel r hr v hv => ?_⟩
    exact (countP_found_eq_one_iff print hprint hr hv).mpr (hways v hv)

end

/-! ### A plant with one line -/

/-- A line of the plant. -/
def line : NodeID := ⟨2, .numeric 1⟩

/-- A variable of the line. -/
def speed : NodeID := ⟨2, .numeric 2⟩

/-- The references in the plant: the line has its variable, and others that are given. -/
def plantReferences (others : List NodeID) (id : NodeID) : List NodeID :=
  if id = objectsFolder then [line] else if id = line then speed :: others else []

/-- The address space of the plant. -/
def plant (others : List NodeID) (h : ∀ id ∈ others, id ∈ [objectsFolder, line, speed]) :
    AddressSpace where
  nodes := [objectsFolder, line, speed]
  nodeClass id := if id = speed then .variable else .object
  browseName _ := "Speed"
  displayName _ := ""
  references := plantReferences others
  root := List.mem_cons_self ..
  closed id _ target htarget := by
    rw [plantReferences] at htarget
    split at htarget
    · simp_all
    · split at htarget
      · rcases List.mem_cons.mp htarget with rfl | htarget
        · simp
        · exact h target htarget
      · cases htarget

/-- The texts of the three nodes of the example are distinct. -/
theorem showNodeID_plant : ∀ x ∈ [objectsFolder, line, speed], ∀ y ∈ [objectsFolder, line, speed],
    showNodeID x = showNodeID y → x = y := by
  decide

/-- A reference from the line back to the Objects folder, or a second one to its variable. -/
theorem not_discovers_plant : ¬ Discovers showNodeID (plant [objectsFolder] (by simp)) ∧
    ¬ Discovers showNodeID (plant [speed] (by simp)) := by
  constructor
  · intro h
    -- Objects, the line, and Objects again.
    have hacyclic := (terminates_iff showNodeID).mp h.terminates
    refine hacyclic objectsFolder .refl (.head (b := line) ?_ (.single ?_))
    · exact ⟨by decide, by decide⟩
    · exact ⟨by decide, by decide⟩
  · intro h
    have hoffers : (plant [speed] (by simp)).Offers speed :=
      ⟨rfl, line, .single ⟨by decide, by decide⟩, by decide⟩
    obtain ⟨fuel, hfuel⟩ := h.terminates _ (answers_answer _)
    obtain ⟨r, hr⟩ := Option.isSome_iff_exists.mp hfuel
    obtain ⟨w, -, honly⟩ := (countP_found_eq_one_iff showNodeID showNodeID_plant hr hoffers).mp
      (h.once fuel r hr speed hoffers)
    -- Two ways from the line to its variable, as its first and as its second reference.
    have hfirst := honly [0, 0] (.more (b := line) (by decide) (by decide) (.last (by decide)))
    have hsecond := honly [0, 1] (.more (b := line) (by decide) (by decide) (.last (by decide)))
    cases hfirst.trans hsecond.symm

/-- A plant without other references. -/
theorem discovers_plant : Discovers showNodeID (plant [] (by simp)) := by
  refine (discovers_iff showNodeID _ showNodeID_plant).mpr ⟨?_, fun v hv => ?_⟩
  · exact (Walks.exists_walks_iff (reachable_finite _)).mp ⟨3, by decide⟩
  · have hspeed : v = speed := by
      by_contra hne
      have hclass : (if v = speed then NodeClass.variable else .object) = .variable := hv.1
      rw [if_neg hne] at hclass
      cases hclass
    subst hspeed
    have hws : walks (plant [] (by simp)).targets (plant [] (by simp)).isObject 3 objectsFolder =
      some [([0, 0], speed)] := by decide
    exact (Walks.countP_walks_eq_one_iff hws rfl).mp (by decide)

end SmartFactory.Bridge
