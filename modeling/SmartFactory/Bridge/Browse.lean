import SmartFactory.Bridge.Frame
import SmartFactory.Bridge.NodeIdText

/-!
# `SmartFactory.Bridge.Browse`: browsing through the Go bridge

`Service.Browse` (`internal/bridge/service.go`) lists the children of one node, which the request
names by a text. A user starts at the Objects folder, sees a row for each child, and goes on with
the text of a row (`Asked`, `Shown`).

`references` is what `References` of gopcua returns for a node. Any of the pointers in a
reference may be nil.
-/

set_option autoImplicit false

namespace SmartFactory.Bridge

/-- `ua.ReferenceDescription`, as far as `Browse` reads it. -/
structure UaReference where
  isForward : Bool
  /-- An `ExpandedNodeID` and the `NodeID` in it. -/
  nodeID : Option (Option NodeID)
  nodeClass : UInt32
  browseName : Option String
  displayName : Option String

/-- `BrowseRef`. -/
structure BrowseRef where
  nodeID : String
  browseName : String
  displayName : String
  nodeClass : UInt32
  deriving DecidableEq

/-- `ua.NodeClassObject`. -/
def nodeClassObject : UInt32 := 1

/-- `ua.NodeClassVariable`. -/
def nodeClassVariable : UInt32 := 2

/-- The node of a reference that `Browse` does not skip. -/
def UaReference.target (r : UaReference) : Option NodeID :=
  if r.isForward then r.nodeID.join else none

/-- Why `Browse` returns no list. -/
inductive BrowseErr where
  | notConnected
  | nodeID (err : ParseErr)
  | references (err : String)
  deriving DecidableEq

section
variable (lib : NodeIdLibrary)

/-- One turn of the loop of `Browse`. -/
def browseRef (r : UaReference) : Option BrowseRef :=
  r.target.map fun nid =>
    let browseName := r.browseName.getD ""
    let displayName := r.displayName.getD ""
    { nodeID := lib.string nid
      browseName := if browseName = "" then lib.string nid else browseName
      -- The name that is taken for an empty one is the one that was read.
      displayName := if displayName = "" then browseName else displayName
      nodeClass := r.nodeClass }

variable (references : NodeID → Except String (List UaReference)) (s : Service)

/-- `Browse`. -/
def browse (text : String) : Except BrowseErr (List BrowseRef) :=
  let nodeIDStr := if text = "" then "ns=0;i=85" else text
  if !s.opcConnected || s.client = none then .error .notConnected
  else do
    let nid ← (parseQt lib.parseNodeID nodeIDStr).mapError .nodeID
    let refs ← (references nid).mapError .references
    return refs.filterMap (browseRef lib)

/-- What a user can ask for: the first page, and then an object that the page of an earlier request
has a row for. -/
inductive Asked : String → Prop
  | start : Asked ""
  | opened {text rows ref} (hbefore : Asked text) (h : browse lib references s text = .ok rows)
      (hmem : ref ∈ rows) (hclass : ref.nodeClass = nodeClassObject) : Asked ref.nodeID

/-- The rows that a user can get to see. -/
def Shown (ref : BrowseRef) : Prop :=
  ∃ text rows, Asked lib references s text ∧ browse lib references s text = .ok rows ∧ ref ∈ rows

/-- The mapping of a row: a Boolean sensor under the browse name. -/
def BrowseRef.mapping (ref : BrowseRef) : Mapping := ⟨ref.browseName, ref.nodeID, 0, true⟩

end

end SmartFactory.Bridge
