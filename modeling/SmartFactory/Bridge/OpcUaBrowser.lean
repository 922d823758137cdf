import SmartFactory.Bridge.BridgeEngine

/-!
# `SmartFactory.Bridge.OpcUaBrowser`: how the Qt bridge looks for variables

`OpcUaBrowser` of `src/gui/OpcUaBrowser.cpp`. It browses the server from the Objects folder on and
collects the variables. Each object that it finds is browsed in the same way, whether it has been
there before or not, and a child that cannot be browsed is passed over.

`browseRecursive` need not come to an end, so it has fuel: the number of nested calls. The server
is an `AddressSpace`. It answers a call with the references of the node, or the call fails.
-/

set_option autoImplicit false

namespace SmartFactory.Bridge

/-! ### The answers of the server -/

/-- `UA_NodeClass`. -/
inductive NodeClass where
  | unspecified | object | variable | method | objectType | variableType | referenceType
  | dataType | view
  deriving DecidableEq

/-- `UA_ReferenceDescription`, as far as the browser reads it. -/
structure ReferenceDescription where
  nodeId : NodeID
  nodeClass : NodeClass
  browseName : String
  displayName : String

/-- `UA_BrowseResult`. -/
structure BrowseResult where
  statusCode : UInt32
  references : List ReferenceDescription

/-- `UA_BrowseResponse`. -/
structure BrowseResponse where
  serviceResult : UInt32
  results : List BrowseResult

/-- The references of an answer, unless it says that the call has failed. -/
def BrowseResponse.references (bResp : BrowseResponse) : Option (List ReferenceDescription) :=
  if bResp.serviceResult ≠ statusCodeGood then none
  else
    match bResp.results with
    | [] => none
    | result :: _ => if result.statusCode ≠ statusCodeGood then none else some result.references

/-! ### `browseRecursive` -/

/-- `DiscoveredNode`. -/
structure DiscoveredNode where
  browseName : String
  displayName : String
  nodeIdString : String
  nodeClass : NodeClass
  deriving DecidableEq

/-- The nodes that have been found, and the number of calls that have been made. -/
structure OpcUaBrowser where
  nodes : List DiscoveredNode
  calls : Nat

/-- `UA_NODEID_NUMERIC(0, UA_NS0ID_OBJECTSFOLDER)`. -/
def objectsFolder : NodeID := ⟨0, .numeric 85⟩

section
variable (print : NodeID → String)

/-- The node of a reference. `print` is `UA_NodeId_print`. -/
def discoveredNode (ref : ReferenceDescription) : DiscoveredNode where
  nodeClass := ref.nodeClass
  nodeIdString := print ref.nodeId
  displayName := if ref.displayName = "" then ref.browseName else ref.displayName
  browseName := if ref.browseName = "" then print ref.nodeId else ref.browseName

/-- One turn of the loop of `browseRecursive`. -/
def browseReference (browse : NodeID → OpcUaBrowser → Option (Bool × OpcUaBrowser))
    (b : OpcUaBrowser) (ref : ReferenceDescription) : Option OpcUaBrowser :=
  if ref.nodeClass = .variable then
    some { b with nodes := b.nodes ++ [discoveredNode print ref] }
  else if ref.nodeClass = .object then
    (browse ref.nodeId b).map Prod.snd
  else some b

variable (respond : Nat → NodeID → BrowseResponse)

/-- `browseRecursive`. `respond` is what each call of `UA_Client_Service_browse` returns. -/
def browseRecursive : Nat → NodeID → OpcUaBrowser → Option (Bool × OpcUaBrowser)
  | 0, _, _ => none
  | fuel + 1, parentId, b =>
      let called := { b with calls := b.calls + 1 }
      match (respond b.calls parentId).references with
      | none => some (false, called)
      | some references =>
          (references.foldlM (browseReference print (browseRecursive fuel)) called).map
            fun b => (true, b)

/-- `connectAndBrowse`: whether it has succeeded, and `discoveredNodes`. -/
def connectAndBrowse (created : Bool) (connect namespaceGetIndex : UInt32) (fuel : Nat) :
    Option (Bool × List DiscoveredNode) :=
  if !created then some (false, [])
  else if connect ≠ statusCodeGood then some (false, [])
  else if namespaceGetIndex ≠ statusCodeGood then some (false, [])
  else (browseRecursive print respond fuel objectsFolder ⟨[], 0⟩).map fun r => (r.1, r.2.nodes)

end

/-! ### The server -/

/-- The address space of a server. `references` are the forward references of a node. -/
structure AddressSpace where
  nodes : List NodeID
  nodeClass : NodeID → NodeClass
  browseName : NodeID → String
  displayName : NodeID → String
  references : NodeID → List NodeID
  root : objectsFolder ∈ nodes
  closed : ∀ id ∈ nodes, ∀ target ∈ references id, target ∈ nodes

namespace AddressSpace

variable (s : AddressSpace)

/-- The node is an object. -/
def isObject (id : NodeID) : Bool := s.nodeClass id = .object

/-- The targets that the browser asks for: `UA_NODECLASS_VARIABLE | UA_NODECLASS_OBJECT`. -/
def targets (id : NodeID) : List NodeID :=
  (s.references id).filter fun target => s.nodeClass target = .variable || s.isObject target

/-- How the server describes a target. -/
def describe (id : NodeID) : ReferenceDescription :=
  ⟨id, s.nodeClass id, s.browseName id, s.displayName id⟩

/-- The answer of the server. -/
def answer (id : NodeID) : BrowseResponse :=
  ⟨statusCodeGood, [⟨statusCodeGood, (s.targets id).map s.describe⟩]⟩

/-- Each call gets the answer of the server, or it fails. -/
def Answers (respond : Nat → NodeID → BrowseResponse) : Prop :=
  ∀ n id, respond n id = s.answer id ∨ (respond n id).references = none

end AddressSpace

end SmartFactory.Bridge
