import SmartFactory.Proofs.Gui.Window

/-!
# `SmartFactory.Proofs.Gui.NodeSelection`: where a picked node comes from

The dialog shows cached nodes, nodes that it has just discovered, or what a filter has left of
either. The filtered nodes are not refreshed by a discovery, so the dialog may show nodes that the
server no longer has. `picked_of_run` is what holds all the same: a node that is picked has been
discovered, in this dialog or in an earlier one, on the endpoint and in the namespace that the
window shows, because the cache is passed over for any other endpoint or namespace. It holds for any
order of edits, clicks and dialogs.

The identifier of an empty row becomes the browse name of the node up to its first `" ("`.
-/

set_option autoImplicit false

namespace SmartFactory.Gui

open Bridge (DiscoveredNode Mapping JsonValue trimSpace)
open Run (run outputs outputs_concat run_induction)

namespace NodeSelectionDialog

variable {toLower : String → String} {d d' : NodeSelectionDialog} {known : List DiscoveredNode}

/-! ### The combo box -/

/-- The nodes that the combo box shows. -/
def shown (d : NodeSelectionDialog) : List DiscoveredNode :=
  if d.filteredNodes = [] then d.nodes else d.filteredNodes

/-- The item of a node. -/
def item (n : DiscoveredNode) : String × String := (itemText n, n.nodeIdString)

/-- The invariant of the dialog. All nodes are among the `known` ones. -/
structure Sound (known : List DiscoveredNode) (d : NodeSelectionDialog) : Prop where
  nodes : ∀ n ∈ d.nodes, n ∈ known
  filteredNodes : ∀ n ∈ d.filteredNodes, n ∈ known
  combo : d.combo = d.shown.map item
  current : ∀ index, d.currentIndex = some index → index < d.combo.length
  okButton : d.okButton = d.currentIndex.isSome

/-- More nodes may be known. -/
theorem Sound.mono {more : List DiscoveredNode} (h : Sound known d)
    (hmore : ∀ n ∈ known, n ∈ more) : Sound more d :=
  { h with
    nodes := fun n hn => hmore n (h.nodes n hn)
    filteredNodes := fun n hn => hmore n (h.filteredNodes n hn) }

/-- A node that is shown is known. -/
theorem Sound.shown_known (h : Sound known d) {n : DiscoveredNode} (hn : n ∈ d.shown) :
    n ∈ known := by
  rw [shown] at hn
  split at hn
  · exact h.nodes n hn
  · exact h.filteredNodes n hn

/-- The combo box holds the nodes that are shown, and the first of them is current. -/
theorem populateCombo_eq (d : NodeSelectionDialog) : d.populateCombo = { d with
    combo := d.shown.map item
    currentIndex := if d.shown = [] then none else some 0
    okButton := decide (d.shown ≠ []) } := by
  rw [populateCombo, onSelectionChanged]
  simp only [shown, List.length_map]
  congr 1
  by_cases hempty : (if d.filteredNodes = [] then d.nodes else d.filteredNodes) = []
  · simp [hempty]
  · simp [hempty, List.length_pos_iff]

/-- Filling the combo box keeps the dialog sound. -/
theorem sound_populateCombo (hnodes : ∀ n ∈ d.nodes, n ∈ known)
    (hfiltered : ∀ n ∈ d.filteredNodes, n ∈ known) : Sound known d.populateCombo := by
  rw [populateCombo_eq]
  refine ⟨hnodes, hfiltered, rfl, fun index hindex => ?_, ?_⟩
  · obtain ⟨hne, hzero⟩ := Option.ite_none_left_eq_some.mp hindex
    obtain rfl := Option.some.inj hzero
    rw [List.length_map]
    exact List.length_pos_iff.mpr hne
  · by_cases hempty : d.shown = []
    · simp [hempty]
    · simp [hempty]

/-- What is shown below the combo box does not matter. -/
theorem Sound.status (h : Sound known d) (statusLabel : String) :
    Sound known { d with statusLabel } :=
  ⟨h.nodes, h.filteredNodes, h.combo, h.current, h.okButton⟩

/-- A dialog that opens knows the nodes of the cache. -/
theorem sound_init (endpointUrl namespaceUri : String) (cachedNodes : List DiscoveredNode) :
    Sound cachedNodes (init endpointUrl namespaceUri cachedNodes) := by
  unfold init
  by_cases hempty : cachedNodes = []
  · simp only [hempty, ne_eq, not_true_eq_false, if_false]
    exact ⟨fun _ => id, nofun, rfl, nofun, rfl⟩
  · simp only [hempty, ne_eq, not_false_eq_true, if_true]
    have hcombo : Sound cachedNodes (populateCombo
        ⟨endpointUrl, namespaceUri, cachedNodes, [], [], none, false, ""⟩) :=
      sound_populateCombo (fun _ => id) nofun
    exact hcombo.status _

/-- It has the endpoint and the namespace that it is opened with. -/
theorem init_address (endpointUrl namespaceUri : String) (cachedNodes : List DiscoveredNode) :
    (init endpointUrl namespaceUri cachedNodes).endpointUrl = endpointUrl ∧
      (init endpointUrl namespaceUri cachedNodes).namespaceUri = namespaceUri := by
  unfold init
  dsimp only
  split
  · exact ⟨rfl, rfl⟩
  · exact ⟨rfl, rfl⟩

/-- The nodes that a click on "Discover Nodes" finds. Without an endpoint or a namespace it does not
look for any. -/
def Event.found (d : NodeSelectionDialog) : Event → List DiscoveredNode
  | .discover (some nodes) => if d.endpointUrl = "" ∨ d.namespaceUri = "" then [] else nodes
  | _ => []

/-- **One event.** -/
theorem sound_step {ev : Event} (h : Sound known d) (hs : d.step toLower ev = some d') :
    Sound (known ++ ev.found d) d' ∧ d'.endpointUrl = d.endpointUrl ∧
      d'.namespaceUri = d.namespaceUri := by
  have hmore {more : List DiscoveredNode} : Sound (known ++ more) d :=
    h.mono fun n => List.mem_append_left more
  cases ev with
  -- A discovery fills the box with what it found, but leaves the filtered nodes of before.
  | discover found =>
      obtain rfl := Option.some.inj hs
      unfold onDiscover
      split
      · exact ⟨hmore.status _, rfl, rfl⟩
      · rename_i haddress
        cases found with
        | none => exact ⟨hmore.status _, rfl, rfl⟩
        | some nodes =>
            rw [Event.found, if_neg haddress]
            refine ⟨(sound_populateCombo (fun n hn => ?_) fun n hn => ?_).status _, rfl, rfl⟩
            · exact List.mem_append_right known hn
            · exact List.mem_append_left nodes (h.filteredNodes n hn)
  | filter text =>
      obtain rfl := Option.some.inj hs
      refine ⟨sound_populateCombo hmore.nodes fun n hn => hmore.nodes n ?_, rfl, rfl⟩
      exact List.mem_of_mem_filter hn
  | select index =>
      obtain ⟨hindex, hs⟩ := Option.ite_none_right_eq_some.mp hs
      obtain rfl := Option.some.inj hs
      refine ⟨⟨hmore.nodes, hmore.filteredNodes, h.combo, fun i hi => ?_, ?_⟩, rfl, rfl⟩
      · obtain rfl := Option.some.inj hi
        exact hindex
      · have hpos : 0 < d.combo.length := Nat.zero_lt_of_lt hindex
        simp [onSelectionChanged, hpos]

/-- **A dialog.** It knows the nodes that it has been opened with and those that it has found. -/
theorem sound_of_run {evs : List Event} (h : Sound known d)
    (hr : run (step toLower) d evs = some d') :
    Sound (known ++ evs.flatMap (Event.found d)) d' ∧ d'.endpointUrl = d.endpointUrl ∧
      d'.namespaceUri = d.namespaceUri := by
  refine run_induction (C := fun evs d' => Sound (known ++ evs.flatMap (Event.found d)) d' ∧
    d'.endpointUrl = d.endpointUrl ∧ d'.namespaceUri = d.namespaceUri) ?_ ?_ hr
  · exact ⟨by simpa using h, rfl, rfl⟩
  · rintro evs d₁ ev d₂ - ⟨hsound, hendpoint, hnamespace⟩ hs
    obtain ⟨hnext, hendpoint', hnamespace'⟩ := sound_step hsound hs
    -- What an event finds depends on the address only, which the dialog keeps.
    have hfound : ev.found d₁ = ev.found d := by
      cases ev with
      | discover found =>
          cases found with
          | none => rfl
          | some nodes => rw [Event.found, Event.found, hendpoint, hnamespace]
      | filter text => rfl
      | select index => rfl
    refine ⟨?_, hendpoint'.trans hendpoint, hnamespace'.trans hnamespace⟩
    rw [hfound, List.append_assoc] at hnext
    rw [List.flatMap_append, List.flatMap_singleton]
    exact hnext

/-! ### The item that is picked -/

/-- The current item is the one of a known node. -/
theorem Sound.picked (h : Sound known d) (hid : d.selectedNodeIdString ≠ "") :
    ∃ n ∈ known, d.current = some (item n) ∧ d.selectedNodeIdString = n.nodeIdString := by
  cases hcurrent : d.current with
  | none =>
      rw [selectedNodeIdString, hcurrent] at hid
      exact absurd rfl hid
  | some picked =>
      obtain ⟨index, -, hitem⟩ := Option.bind_eq_some_iff.mp hcurrent
      rw [h.combo] at hitem
      obtain ⟨n, hn, rfl⟩ := List.mem_map.mp (List.mem_of_getElem? hitem)
      refine ⟨n, h.shown_known hn, rfl, ?_⟩
      rw [selectedNodeIdString, hcurrent]
      rfl

/-- The text of an item begins with the browse name, and the parenthesis after it is the first one
unless there is one in the browse name. -/
theorem beforeParenthesis_append (name rest : List Char) :
    beforeParenthesis (name ++ ' ' :: '(' :: rest) = beforeParenthesis name := by
  induction name with
  | nil => rfl
  | cons c name ih =>
      have hopen : [' ', '('] <+: c :: (name ++ ' ' :: '(' :: rest) ↔
          [' ', '('] <+: c :: name := by
        cases name with
        | nil => simp [List.prefix_cons_iff]
        | cons c' name => simp [List.prefix_cons_iff]
      rw [List.cons_append, beforeParenthesis, beforeParenthesis, ih]
      simp only [hopen]

/-- The browse name up to its first `" ("`. -/
def shortName (n : DiscoveredNode) : String := String.ofList (beforeParenthesis n.browseName.toList)

/-- The name of the current item is the short name of its node. -/
theorem selectedBrowseName_eq {n : DiscoveredNode} (h : d.current = some (item n)) :
    d.selectedBrowseName = shortName n := by
  have htext : (itemText n).toList =
      n.browseName.toList ++ ' ' :: '(' :: (n.nodeIdString.toList ++ [')']) := by
    simp [itemText, String.toList_append]
  rw [selectedBrowseName, h, Option.map_some, Option.getD_some, item, htext,
    beforeParenthesis_append, shortName]

end NodeSelectionDialog

namespace Window

open NodeSelectionDialog (shortName)

variable {w w' : Window} {lib : Library} {ev : Event}

/-! ### The cache -/

/-- What a dialog has found. -/
structure Discovery where
  endpoint : String
  namespaceUri : String
  nodes : List DiscoveredNode

/-- What the dialog of an event finds. -/
def discoveryOf (w : Window) : Event → Option Discovery
  | .selectNode _ inDialog _ => some ⟨trimSpace w.form.endpointEdit, trimSpace w.form.namespaceEdit,
      inDialog.flatMap (NodeSelectionDialog.Event.found w.openDialog)⟩
  | _ => none

/-- The node has been discovered there. -/
def Discovered (log : List Discovery) (endpoint namespaceUri : String) (n : DiscoveredNode) :
    Prop :=
  ∃ d ∈ log, d.endpoint = endpoint ∧ d.namespaceUri = namespaceUri ∧ n ∈ d.nodes

/-- More may be discovered. -/
theorem Discovered.mono {log : List Discovery} {endpoint namespaceUri : String} {n : DiscoveredNode}
    (h : Discovered log endpoint namespaceUri n) (more : List Discovery) :
    Discovered (log ++ more) endpoint namespaceUri n := by
  obtain ⟨d, hd, hwhere⟩ := h
  exact ⟨d, List.mem_append_left more hd, hwhere⟩

/-- The nodes of the cache have been discovered where it says. -/
def Cached (log : List Discovery) (w : Window) : Prop :=
  ∀ n ∈ w.cache.nodes, Discovered log w.cache.endpoint w.cache.namespaceUri n

/-- A dialog of the window has nodes that have been discovered on the endpoint and in the namespace
that the window shows. -/
theorem sound_dialog {log : List Discovery} {inDialog : List NodeSelectionDialog.Event}
    {dlg : NodeSelectionDialog} {d : Discovery} (row : Nat) (accepted : Bool) (h : w.Cached log)
    (hd : discoveryOf w (.selectNode row inDialog accepted) = some d)
    (hr : run (NodeSelectionDialog.step lib.toLower) w.openDialog inDialog = some dlg) :
    dlg.endpointUrl = trimSpace w.form.endpointEdit ∧
    dlg.namespaceUri = trimSpace w.form.namespaceEdit ∧
    ∃ known, NodeSelectionDialog.Sound known dlg ∧ ∀ n ∈ known, Discovered (log ++ [d])
      (trimSpace w.form.endpointEdit) (trimSpace w.form.namespaceEdit) n := by
  obtain rfl := Option.some.inj hd
  have hopen := NodeSelectionDialog.sound_init (trimSpace w.form.endpointEdit)
    (trimSpace w.form.namespaceEdit)
    (if trimSpace w.form.endpointEdit = w.cache.endpoint ∧
      trimSpace w.form.namespaceEdit = w.cache.namespaceUri then w.cache.nodes else [])
  obtain ⟨hsound, hendpoint, hnamespace⟩ := NodeSelectionDialog.sound_of_run
    (d := w.openDialog) hopen hr
  have haddress := NodeSelectionDialog.init_address (trimSpace w.form.endpointEdit)
    (trimSpace w.form.namespaceEdit)
    (if trimSpace w.form.endpointEdit = w.cache.endpoint ∧
      trimSpace w.form.namespaceEdit = w.cache.namespaceUri then w.cache.nodes else [])
  refine ⟨hendpoint.trans haddress.1, hnamespace.trans haddress.2, _, hsound, fun n hn => ?_⟩
  rcases List.mem_append.mp hn with hn | hn
  · -- The cache is only used for the endpoint and the namespace that it is about.
    split at hn
    · rename_i hsame
      rw [hsame.1, hsame.2]
      exact (h n hn).mono _
    · cases hn
  · exact ⟨_, List.mem_append_right log (List.mem_singleton_self _), rfl, rfl, hn⟩

/-- No call of the engine changes the cache. -/
@[simp] theorem call_cache (w : Window) (r : Engine × List Signal) :
    (w.call r).cache = w.cache := by
  rw [call_eq]

/-- A dialog that is accepted leaves its nodes in the cache. -/
@[simp] theorem acceptNode_cache (w : Window) (row : Nat) (dlg : NodeSelectionDialog) :
    (w.acceptNode row dlg).cache = ⟨dlg.nodes, dlg.endpointUrl, dlg.namespaceUri⟩ := by
  unfold acceptNode
  split
  · rfl
  · rfl

/-- Only the dialog changes the cache. -/
theorem cache_step (h : w.Sound) (hs : w.step lib ev = some w') (hnone : discoveryOf w ev = none) :
    w'.cache = w.cache := by
  cases ev with
  | connect a =>
      obtain ⟨-, rfl⟩ := of_guard hs
      exact call_cache w.configure _
  | disconnect visited =>
      obtain ⟨-, rfl⟩ := of_guard hs
      -- The click stops the bridge first, and then gives the connection up: two calls of the
      -- engine.
      exact (call_cache (w.call _) _).trans (call_cache w _)
  | startBridge a listenError =>
      obtain ⟨hbutton, rfl⟩ := of_guard hs
      rw [onStartBridge_eq h hbutton]
      exact call_cache w.configure _
  | stopBridge visited =>
      obtain ⟨-, rfl⟩ := of_guard hs
      exact call_cache w _
  | edited form =>
      obtain ⟨-, rfl⟩ := of_guard hs
      rfl
  | loaded doc =>
      obtain rfl := Option.some.inj hs
      rfl
  | selectNode row inDialog accepted => cases hnone
  | timeout t =>
      obtain ⟨-, hs⟩ := Option.ite_none_right_eq_some.mp hs
      obtain ⟨r, -, rfl⟩ := Option.map_eq_some_iff.mp hs
      exact call_cache w r
  | newConnection pending =>
      obtain ⟨-, rfl⟩ := of_guard hs
      exact call_cache w _
  | socketClosed sock =>
      obtain ⟨-, rfl⟩ := of_guard hs
      rfl
  | disconnected sock =>
      obtain ⟨-, rfl⟩ := of_guard hs
      exact call_cache w _

/-- **One event.** -/
theorem cached_step {log : List Discovery} (h : w.Cached log) (hsound : w.Sound)
    (hs : w.step lib ev = some w') : w'.Cached (log ++ (discoveryOf w ev).toList) := by
  cases hd : discoveryOf w ev with
  | none =>
      rw [Option.toList_none, List.append_nil, Cached, cache_step hsound hs hd]
      exact h
  | some d =>
      rw [Option.toList_some]
      cases ev with
      | selectNode row inDialog accepted =>
          obtain ⟨-, hs⟩ := Option.ite_none_right_eq_some.mp hs
          obtain ⟨dlg, hrun, ⟨-, rfl⟩ | ⟨-, -, rfl⟩⟩ := onSelectNode_cases hs
          · exact fun n hn => (h n hn).mono _
          · -- The dialog was accepted: its nodes are the new cache, under the address that it had.
            obtain ⟨hendpoint, hnamespace, known, hdialog, hknown⟩ := sound_dialog _ _ h hd hrun
            intro n hn
            rw [acceptNode_cache] at hn ⊢
            dsimp only at hn ⊢
            rw [hendpoint, hnamespace]
            exact hknown n (hdialog.nodes n hn)
      | _ => cases hd

/-- **The cache** holds nodes that have been discovered at its address, after any run. -/
theorem cached_of_run {file : Option JsonValue} {evs : List Event}
    (h : run (step lib) (init file) evs = some w) :
    w.Cached (outputs (step lib) discoveryOf (init file) evs) := by
  refine run_induction (C := fun evs w => w.Cached
    (outputs (step lib) discoveryOf (init file) evs)) nofun ?_ h
  intro evs w ev w' hrun hcached hs
  rw [outputs_concat hrun hs]
  exact cached_step hcached (sound_of_run hrun) hs

/-! ### Picking a node -/

/-- A row that gets a node. -/
def pick (n : DiscoveredNode) (m : Mapping) : Mapping :=
  { m with
    nodeIDString := n.nodeIdString
    messagePackID := if m.messagePackID = "" then shortName n else m.messagePackID }

/-- An accepted dialog leaves the form or puts a known node into the row. -/
theorem acceptNode_table {row : Nat} {dlg : NodeSelectionDialog} {known : List DiscoveredNode}
    (h : NodeSelectionDialog.Sound known dlg) :
    (w.acceptNode row dlg).form = w.form ∨ ∃ n ∈ known, n.nodeIdString ≠ "" ∧
      (w.acceptNode row dlg).form =
        { w.form with mappingTable := w.form.mappingTable.modify row (pick n) } := by
  by_cases hid : dlg.selectedNodeIdString = ""
  · simp only [acceptNode, hid, if_true]
    exact .inl trivial
  · obtain ⟨n, hn, hitem, hselected⟩ := h.picked hid
    refine .inr ⟨n, hn, hselected ▸ hid, ?_⟩
    have hname := NodeSelectionDialog.selectedBrowseName_eq hitem
    have hne := hselected ▸ hid
    simp only [acceptNode, hselected, hname, hne, if_false]
    rfl

/-- **Where a picked node comes from.** When the dialog is closed, the table is as it was, or the
row has got a node. That node has been discovered on the endpoint and in the namespace that the
window shows, in this dialog or in one before. -/
theorem picked_of_run {file : Option JsonValue} {evs : List Event} {row : Nat}
    {inDialog : List NodeSelectionDialog.Event} {accepted : Bool}
    (h : run (step lib) (init file) evs = some w)
    (hs : w.step lib (.selectNode row inDialog accepted) = some w') :
    w'.form = w.form ∨ ∃ n,
      Discovered (outputs (step lib) discoveryOf (init file)
        (evs ++ [.selectNode row inDialog accepted]))
        (trimSpace w.form.endpointEdit) (trimSpace w.form.namespaceEdit) n ∧ n.nodeIdString ≠ "" ∧
      w'.form = { w.form with mappingTable := w.form.mappingTable.modify row (pick n) } := by
  rw [outputs_concat h hs]
  obtain ⟨-, hselect⟩ := Option.ite_none_right_eq_some.mp hs
  obtain ⟨dlg, hrun, ⟨-, rfl⟩ | ⟨-, -, rfl⟩⟩ := onSelectNode_cases hselect
  · exact .inl rfl
  · obtain ⟨-, -, known, hdialog, hknown⟩ :=
      sound_dialog row accepted (cached_of_run h) rfl hrun
    rcases acceptNode_table hdialog with hsame | ⟨n, hn, hne, htable⟩
    · exact .inl hsame
    · exact .inr ⟨n, hknown n hn, hne, htable⟩

/-- A row without a node, and a dialog that finds one. -/
def picking : List Event := [.edited { setupUi with mappingTable := [⟨"", "", 0, true⟩] }]

def levelNode : DiscoveredNode := ⟨"Level (tank)", "Level", "ns=2;s=Level", .variable⟩

/-- The row gets the node. -/
theorem picked_of_run_picking : ∃ w w', run (step plainLibrary) (init none) picking = some w ∧
    w.step plainLibrary (.selectNode 0 [.discover (some [levelNode])] true) = some w' ∧
    w'.form ≠ w.form ∧ ∃ n, w'.form =
      { w.form with mappingTable := w.form.mappingTable.modify 0 (pick n) } := by
  have h : (run (step plainLibrary) (init none) picking).any (fun w =>
      (w.step plainLibrary (.selectNode 0 [.discover (some [levelNode])] true)).any fun w' =>
        decide (w'.form ≠ w.form)) = true := by
    decide +kernel
  obtain ⟨w, hrun, h⟩ := (Option.any_eq_true _ _).mp h
  obtain ⟨w', hs, hne⟩ := (Option.any_eq_true _ _).mp h
  have hne : w'.form ≠ w.form := of_decide_eq_true hne
  rcases picked_of_run hrun hs with hsame | ⟨n, -, -, htable⟩
  · exact absurd hsame hne
  · exact ⟨w, w', hrun, hs, hne, n, htable⟩

end Window

end SmartFactory.Gui
