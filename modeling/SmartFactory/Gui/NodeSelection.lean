import SmartFactory.Bridge.OpcUaBrowser
import SmartFactory.Lib.Run

/-!
# `SmartFactory.Gui.NodeSelection`: the dialog that picks a node

`NodeSelectionDialog` of `src/gui/NodeSelectionDialog.cpp`. The user lets it discover the nodes of
the server, types a filter and picks an item of the combo box. `step` is one of these.

A combo box has no current item when it is cleared, and the first item that is added becomes the
current one.
-/

set_option autoImplicit false

namespace SmartFactory.Gui

open Bridge (DiscoveredNode)

/-- `NodeSelectionDialog`. The items of the combo box are texts with their data. -/
structure NodeSelectionDialog where
  endpointUrl : String
  namespaceUri : String
  nodes : List DiscoveredNode
  filteredNodes : List DiscoveredNode
  combo : List (String × String)
  currentIndex : Option Nat
  okButton : Bool
  statusLabel : String
  deriving DecidableEq

namespace NodeSelectionDialog

/-- What the user does. `connectAndBrowse` finds the nodes, or it fails. -/
inductive Event where
  | discover (found : Option (List DiscoveredNode))
  | filter (text : String)
  | select (index : Nat)

/-- The text of an item. -/
def itemText (n : DiscoveredNode) : String := n.browseName ++ " (" ++ n.nodeIdString ++ ")"

/-- `onSelectionChanged`. -/
def onSelectionChanged (d : NodeSelectionDialog) : NodeSelectionDialog :=
  { d with okButton := d.currentIndex.isSome && 0 < d.combo.length }

/-- `populateCombo`. A filter that no node passes is no filter. -/
def populateCombo (d : NodeSelectionDialog) : NodeSelectionDialog :=
  let src := if d.filteredNodes = [] then d.nodes else d.filteredNodes
  onSelectionChanged { d with
    combo := src.map fun n => (itemText n, n.nodeIdString)
    currentIndex := if src = [] then none else some 0 }

/-- The constructor. -/
def init (endpointUrl namespaceUri : String) (cachedNodes : List DiscoveredNode) :
    NodeSelectionDialog :=
  let d : NodeSelectionDialog :=
    { endpointUrl, namespaceUri
      nodes := cachedNodes
      filteredNodes := []
      combo := []
      currentIndex := none
      okButton := false
      statusLabel := "" }
  if cachedNodes ≠ [] then
    { d.populateCombo with statusLabel := "Showing " ++ toString cachedNodes.length ++
        " cached variable(s). Click \"Discover Nodes\" to refresh." }
  else { d with statusLabel := "Click \"Discover Nodes\" to browse the OPC UA server." }

/-- `onDiscover`. The filtered nodes stay what they are. -/
def onDiscover (d : NodeSelectionDialog) (found : Option (List DiscoveredNode)) :
    NodeSelectionDialog :=
  if d.endpointUrl = "" ∨ d.namespaceUri = "" then
    { d with statusLabel := "Please set endpoint URL and namespace URI first." }
  else match found with
    | some nodes =>
        { populateCombo { d with nodes } with
          statusLabel := "Found " ++ toString nodes.length ++ " variable(s)." }
    | none => { d with statusLabel := "Discovery failed." }

section
variable (toLower : String → String)

/-- `QString::contains`. -/
def contains (text pattern : String) : Bool := decide (pattern.toList <:+: text.toList)

/-- The condition of `onFilterChanged`. -/
def passes (lower : String) (n : DiscoveredNode) : Bool :=
  lower = "" || contains (toLower n.browseName) lower || contains (toLower n.displayName) lower ||
    contains (toLower n.nodeIdString) lower

/-- `onFilterChanged`. -/
def onFilterChanged (d : NodeSelectionDialog) (text : String) : NodeSelectionDialog :=
  populateCombo { d with filteredNodes := d.nodes.filter (passes toLower (toLower text)) }

/-- One event. -/
def step (d : NodeSelectionDialog) : Event → Option NodeSelectionDialog
  | .discover found => some (d.onDiscover found)
  | .filter text => some (d.onFilterChanged toLower text)
  | .select index =>
      if index < d.combo.length then some (onSelectionChanged { d with currentIndex := some index })
      else none

end

/-- The current item. -/
def current (d : NodeSelectionDialog) : Option (String × String) :=
  d.currentIndex.bind fun index => d.combo[index]?

/-- `selectedNodeIdString`. -/
def selectedNodeIdString (d : NodeSelectionDialog) : String := (d.current.map Prod.snd).getD ""

/-- A text up to the first `" ("`. -/
def beforeParenthesis : List Char → List Char
  | [] => []
  | c :: cs => if [' ', '('] <+: c :: cs then [] else c :: beforeParenthesis cs

/-- `selectedBrowseName`. -/
def selectedBrowseName (d : NodeSelectionDialog) : String :=
  (d.current.map fun item => String.ofList (beforeParenthesis item.1.toList)).getD ""

end NodeSelectionDialog

end SmartFactory.Gui
