import SmartFactory.Server.Config
import Mathlib.Data.List.Nodup

/-!
# `SmartFactory.Server.AddressSpace`: what the program sees of the OPC UA server

open62541 is not part of the repository. This module is the part of its behaviour that
the node manager relies on: an address space is a list of nodes, each with its parent, and
a variable node holds a value, a context pointer and the `onWrite` callback that the
program registered.

The server refuses a node id that exists. Any other reason for a refusal is an input of
`addNode`. Deleting an existing node succeeds. A value is stored when it has the data
type of the node, an array as well as a scalar: the program leaves the value rank at its default,
which admits both. A value without content has no type to compare.
-/

set_option autoImplicit false

namespace SmartFactory.Server

/-- The status codes that the program returns or tests. `other` is any further code of the
library. -/
inductive StatusCode where
  | good
  | badInvalidArgument
  | badNodeIdExists
  | badNodeIdUnknown
  | badUserAccessDenied
  | badNotImplemented
  | badTypeMismatch
  | badNodeClassInvalid
  | other (code : Nat)
  deriving DecidableEq

/-- A status code that reports a failure. -/
abbrev BadStatus := { rc : StatusCode // rc ≠ .good }

/-- `UA_NodeId`, numeric or string. -/
inductive NodeId where
  | numeric (ns i : Nat)
  | string (ns : Nat) (id : CString)
  deriving DecidableEq

/-- `UA_NS0ID_OBJECTSFOLDER` in namespace 0. -/
def objectsFolder : NodeId := .numeric 0 85

/-- A scalar of one of the four data types that the program creates. A double is given by its
bits. -/
inductive Scalar where
  | boolean (b : Bool)
  | int32 (i : Int)
  | double (bits : UInt64)
  | string (s : CString)
  deriving DecidableEq

/-- The data type of a scalar. -/
def Scalar.dataType : Scalar → ServerDataType
  | .boolean _ => .boolean
  | .int32 _ => .int32
  | .double _ => .double
  | .string _ => .string

/-- The elements of an array of one of these data types. -/
inductive Elements where
  | boolean (bs : List Bool)
  | int32 (is : List Int)
  | double (bits : List UInt64)
  | string (ss : List CString)
  deriving DecidableEq

/-- The data type of the elements. -/
def Elements.dataType : Elements → ServerDataType
  | .boolean _ => .boolean
  | .int32 _ => .int32
  | .double _ => .double
  | .string _ => .string

/-- `UA_Variant`. An array of several dimensions is the list of its elements. -/
inductive Variant where
  /-- There is no value, or `data` is null. -/
  | empty
  | scalar (v : Scalar)
  | array (vs : Elements)
  deriving DecidableEq

instance coeScalar : Coe Scalar Variant := ⟨.scalar⟩

/-- The scalar, if the value is one. -/
def Variant.scalar? : Variant → Option Scalar
  | .scalar v => some v
  | _ => none

theorem scalar?_eq_some {v : Variant} {x : Scalar} : v.scalar? = some x ↔ v = .scalar x := by
  cases v <;> simp [Variant.scalar?]

/-- A Boolean, as the program writes it. -/
@[match_pattern] abbrev Variant.boolean (b : Bool) : Variant := .scalar (.boolean b)

/-- The server stores the value in a node of the data type. -/
def Variant.storable (dataType : ServerDataType) : Variant → Bool
  | .empty => true
  | .scalar v => v.dataType = dataType
  | .array vs => vs.dataType = dataType

/-- The address of an element of the sensors array: an allocation and an index. -/
structure SensorRef where
  alloc : Nat
  index : Nat
  deriving DecidableEq

/-- The `onWrite` callbacks of the program. -/
inductive ValueCallback where
  | sensorWrite
  | simulationEnabledWrite
  deriving DecidableEq

/-- The attributes of a variable node. -/
structure UaVariable where
  dataType : ServerDataType
  value : Variant
  context : Option SensorRef
  onWrite : Option ValueCallback
  deriving DecidableEq

/-- A node that the program added. An object node has no `vAttr`. -/
structure UaNode where
  nodeId : NodeId
  parent : NodeId
  displayName : CharBuf serverDisplayNameMax
  vAttr : Option UaVariable
  deriving DecidableEq

/-- The nodes that the program added, in the order of their creation. -/
abbrev AddressSpace := List UaNode

namespace AddressSpace

/-- The node with the given id. -/
def find (space : AddressSpace) (id : NodeId) : Option UaNode :=
  space.find? (fun n => n.nodeId = id)

/-- `UA_Server_addObjectNode` and `UA_Server_addVariableNode`. `refused` is the reason of
the server to refuse a new node id, if it has one. -/
def addNode (space : AddressSpace) (refused : Option BadStatus) (node : UaNode) :
    AddressSpace × StatusCode :=
  match space.find node.nodeId, refused with
  -- The id is checked first: a taken id is reported as such, whatever else is wrong.
  | some _, _ => (space, .badNodeIdExists)
  | none, some rc => (space, rc.val)
  | none, none => (space ++ [node], .good)

/-- `UA_Server_deleteNode`. -/
def deleteNode (space : AddressSpace) (id : NodeId) : AddressSpace :=
  space.filter (fun n => n.nodeId ≠ id)

/-- Change the variable attributes of one node. -/
def updateVariable (space : AddressSpace) (id : NodeId) (f : UaVariable → UaVariable) :
    AddressSpace :=
  space.map (fun n => if n.nodeId = id then { n with vAttr := n.vAttr.map f } else n)

/-- `UA_Server_setNodeContext`. -/
def setNodeContext (space : AddressSpace) (id : NodeId) (ctx : SensorRef) : AddressSpace :=
  space.updateVariable id (fun v => { v with context := some ctx })

/-- `UA_Server_setVariableNode_valueCallback`. -/
def setValueCallback (space : AddressSpace) (id : NodeId) (cb : ValueCallback) :
    AddressSpace :=
  space.updateVariable id (fun v => { v with onWrite := some cb })

/-- The node ids of the address space. -/
def ids (space : AddressSpace) : List NodeId := space.map UaNode.nodeId

variable {space : AddressSpace} {id : NodeId} {node : UaNode}

/-- Nothing is found under an id exactly when no node carries it. -/
theorem find_eq_none : space.find id = none ↔ id ∉ space.ids := by
  simp [find, ids, List.find?_eq_none]

/-- With distinct ids, every node is found under its own id. -/
theorem find_of_mem (hnd : space.ids.Nodup) (h : node ∈ space) :
    space.find node.nodeId = some node := by
  induction space with
  | nil => cases h
  | cons n rest ih =>
      simp only [ids, List.map_cons, List.nodup_cons] at hnd
      rcases List.mem_cons.mp h with rfl | h
      · simp [find]
      · have hne : n.nodeId ≠ node.nodeId := fun he =>
          hnd.1 (he ▸ List.mem_map_of_mem h)
        have hrest := ih hnd.2 h
        simp only [find] at hrest
        simp [find, hne, hrest]

/-- A node is found exactly when its id is one of the address space. -/
theorem exists_find : (∃ n, space.find id = some n) ↔ id ∈ space.ids := by
  rw [← Option.isSome_iff_exists, ← not_iff_not, Option.not_isSome_iff_eq_none, find_eq_none]

/-- Changing the attributes of nodes keeps their ids. -/
@[simp] theorem ids_updateVariable (f : UaVariable → UaVariable) :
    (space.updateVariable id f).ids = space.ids := by
  simp only [ids, updateVariable, List.map_map]
  exact List.map_congr_left fun n _ => by
    simp only [Function.comp_apply]
    split <;> rfl

/-- The node of the changed id is found with its new attributes. -/
theorem find_updateVariable (f : UaVariable → UaVariable) (id' : NodeId) :
    (space.updateVariable id f).find id'
      = (space.find id').map (fun n =>
          if id' = id then { n with vAttr := n.vAttr.map f } else n) := by
  induction space with
  | nil => rfl
  | cons n rest ih =>
      simp only [find, updateVariable] at ih
      simp only [find, updateVariable, List.map_cons, List.find?_cons]
      by_cases hn : n.nodeId = id'
      · by_cases hid : id' = id
        · simp [hn, hid]
        · simp [hn, hid]
      · by_cases hnid : n.nodeId = id
        · simp only [hnid, if_true]
          have hne : ¬ id = id' := hnid ▸ hn
          simpa [hne] using ih
        · simpa [hn, hnid] using ih

/-- A deleted node is gone, the others stay. -/
theorem find_deleteNode (id' : NodeId) :
    (space.deleteNode id).find id' = if id' = id then none else space.find id' := by
  simp only [find, deleteNode, List.find?_filter]
  by_cases hid : id' = id
  · subst hid
    rw [if_pos rfl, List.find?_eq_none]
    intro n _
    simp
  · rw [if_neg hid]
    congr 1
    funext n
    by_cases hn : n.nodeId = id'
    · simp [hn, hid]
    · simp [hn]

/-- The ids after a deletion. -/
theorem mem_ids_deleteNode (id' : NodeId) :
    id' ∈ (space.deleteNode id).ids ↔ id' ∈ space.ids ∧ id' ≠ id := by
  rw [← exists_find, find_deleteNode]
  by_cases hid : id' = id
  · simp [hid]
  · simp [hid, exists_find]

/-- A deletion keeps the ids distinct. -/
theorem nodup_ids_deleteNode (h : space.ids.Nodup) : (space.deleteNode id).ids.Nodup :=
  (List.filter_sublist.map UaNode.nodeId).nodup h

/-- A node is added with status `good` when its id is new and the server has no reason to
refuse it. Otherwise the address space stays as it was and the status is not `good`. -/
theorem addNode_cases (space : AddressSpace) (refused : Option BadStatus) (node : UaNode) :
    (space.find node.nodeId = none ∧ refused = none ∧
      space.addNode refused node = (space ++ [node], .good)) ∨
    ((space.find node.nodeId ≠ none ∨ refused ≠ none) ∧
      (space.addNode refused node).2 ≠ .good) := by
  cases hf : space.find node.nodeId with
  | some n => exact Or.inr ⟨Or.inl nofun, by simp [addNode, hf]⟩
  | none =>
      cases hr : refused with
      | none => exact Or.inl ⟨rfl, rfl, by simp [addNode, hf]⟩
      | some rc =>
          refine Or.inr ⟨Or.inr nofun, ?_⟩
          simpa [addNode, hf] using rc.property

/-- The nodes after an addition. -/
theorem find_append (node : UaNode) (id' : NodeId) (h : space.find node.nodeId = none) :
    AddressSpace.find (space ++ [node]) id'
      = if id' = node.nodeId then some node else space.find id' := by
  simp only [find, List.find?_append]
  by_cases hid : id' = node.nodeId
  · subst hid
    simp only [find] at h
    simp [h]
  · have hne : ¬ node.nodeId = id' := fun he => hid he.symm
    simp [hid, hne]

end AddressSpace

end SmartFactory.Server
