import SmartFactory.Proofs.Bridge.NodeIdTexts
import SmartFactory.Proofs.TcpBridge.Sequence

/-!
# `SmartFactory.Plant.System`: the C bridge and the server that it reads

The two programs talk through OPC UA services, which are not part of the repository. This module is
what the services do with the address space that the server has: a browse lists the children of a
node, a read delivers the value of a variable. Any call may fail instead.

A turn of the bridge takes several calls, and the server goes on in between. `Serves` gives the
world of each call: `worlds k` for the browse number `k`, and `worlds (6 + i)` for the read of the
sensor `i`. The relation `R` is what the server may do. `N` is the namespace of its nodes.
-/

set_option autoImplicit false

namespace SmartFactory.Plant

open Bridge (NodeID ReadValue Scalar statusCodeGood cString)
open Server (World NodeId UaNode UaVariable AddressSpace)
open TcpBridge (Main Turn NodeClass ReferenceDescription BrowseResponse SensorSnapshot sensorCount
  sensorBrowseNames)

/-! ### The services -/

/-- A node id of a client, as the server stores it. The program's nodes have none of the other
forms. -/
def serverId : NodeID → Option NodeId
  | ⟨ns, .numeric n⟩ => some (.numeric ns.toNat n.toNat)
  | ⟨ns, .str s⟩ => some (.string ns.toNat (cString s))
  | ⟨_, .guid _⟩ | ⟨_, .bytes _⟩ => none

/-- A value, as it is delivered. -/
def deliver : Server.Scalar → Scalar
  | .boolean b => .boolean b
  | .int32 i => .int32 (Int32.ofInt i)
  | .double bits => .double bits
  | .string s => .string (s.map fun c => UInt8.ofNat c.toNat)

/-- The class of a node of the program. -/
def classOf (n : UaNode) : NodeClass := if n.vAttr.isSome then .variable else .object

/-- The reference is one to this node. The program gives a node the same name and id, and the name
is a C string. -/
structure Lists (n : UaNode) (ref : ReferenceDescription) : Prop where
  nodeId : serverId ref.nodeId = some n.nodeId
  name : n.nodeId = .string ref.namespaceIndex.toNat (ref.name.map fun b => Char.ofNat b.toNat)
  nonzero : 0 ∉ ref.name

/-- What `UA_Client_Service_browse` may return for a start node and a class. References to nodes
that are not the program's are in other namespaces. -/
structure Browses (N : UInt16) (space : AddressSpace) (start : NodeID) (cls : NodeClass)
    (bResp : BrowseResponse) : Prop where
  sound : ∀ result ∈ bResp.results, ∀ ref ∈ result.references, ref.namespaceIndex = N →
    ∃ n ∈ space, serverId start = some n.parent ∧ classOf n = cls ∧ Lists n ref
  complete : bResp.serviceResult = statusCodeGood → ∃ result rest, bResp.results = result :: rest ∧
    (result.statusCode = statusCodeGood → ∀ n ∈ space, ∀ name, serverId start = some n.parent →
      classOf n = cls → n.nodeId = .string N.toNat (cString name) →
      ∃ ref ∈ result.references, ref.namespaceIndex = N ∧ Lists n ref)

/-- The variable that a client reads. -/
def variableAt (space : AddressSpace) (nodeId : NodeID) : Option UaVariable := do
  let id ← serverId nodeId
  let n ← space.find id
  n.vAttr

/-- What `UA_Client_readValueAttribute` may return for a node of the program's namespace. The
clients of the plant write scalars, so its nodes hold nothing else. -/
def Reads (N : UInt16) (space : AddressSpace) (nodeId : NodeID) (r : ReadValue) : Prop :=
  nodeId.ns = N → r.ret = statusCodeGood →
    ∃ v x, variableAt space nodeId = some v ∧ v.value = .scalar x ∧
      r.value = some (.scalar (deliver x))

/-! ### The two programs -/

/-- The server answers the calls of a turn, while it gets from one world to the other. -/
structure Serves (R : World → World → Prop) (N : UInt16) (w : World) (t : Turn)
    (worlds : Nat → World) (w' : World) : Prop where
  first : Relation.ReflTransGen R w (worlds 0)
  next : ∀ k, Relation.ReflTransGen R (worlds k) (worlds (k + 1))
  last : ∀ k, Relation.ReflTransGen R (worlds k) w'
  index : t.replies.namespaceGetIndex.1 = statusCodeGood → t.replies.namespaceGetIndex.2 = N
  browse : ∀ k start cls, Browses N (worlds k).space start cls (t.replies.browse k start cls)
  read : ∀ (i : Fin sensorCount) nodeId, Reads N (worlds (6 + i)).space nodeId (t.read i nodeId)

/-- A run of the plant: the server and the bridge take their steps in any order. The list has the
events of the bridge, and `ok` is a property of its turns. -/
inductive Runs (R : World → World → Prop) (N : UInt16) (ok : Turn → (Nat → World) → Prop)
    (w₀ : World) (m₀ : Main) : List Main.Event → World → Main → Prop
  | start : Runs R N ok w₀ m₀ [] w₀ m₀
  | server {es w m w'} (h : Runs R N ok w₀ m₀ es w m) (hs : R w w') : Runs R N ok w₀ m₀ es w' m
  | turn {es w m t worlds w' m'} (h : Runs R N ok w₀ m₀ es w m)
      (hserves : Serves R N w t worlds w') (hok : ok t worlds)
      (hs : m.step (.turn t) = some m') : Runs R N ok w₀ m₀ (es ++ [.turn t]) w' m'
  | signal {es w m m'} (h : Runs R N ok w₀ m₀ es w m) (hs : m.step .signal = some m') :
      Runs R N ok w₀ m₀ (es ++ [.signal]) w m'

/-! ### What a client sees of the plant -/

/-- The sensor is there and its value is `true`. -/
def sensorOn (N : UInt16) (w : World) (i : Fin sensorCount) : Bool :=
  ((w.space.find (.string N.toNat (cString (sensorBrowseNames i)))).bind UaNode.vAttr).any
    fun v => v.value = .boolean true

/-- A snapshot, and which of the reads for it have succeeded. -/
structure Observation where
  snapshot : SensorSnapshot
  succeeded : Fin sensorCount → Bool

/-- The observation that the bridge makes in an event. -/
def observationOf (m : Main) : Main.Event → Option Observation
  | .turn t => (m.snapshotOf (.turn t)).map fun snapshot =>
      ⟨snapshot, fun i => (t.read i ((m.seen t).sensorNodeIds i)).ret = statusCodeGood⟩
  | .signal => none

/-- The observations have been made one after the other while the server got to the world `w`. In
each of them the sensors have been looked at in their order, and each value is that of the sensor
then, or `false` when the read has failed. -/
inductive Sampled (R : World → World → Prop) (N : UInt16) (w₀ : World) :
    List Observation → World → Prop
  | start : Sampled R N w₀ [] w₀
  | later {obs w w'} (h : Sampled R N w₀ obs w) (hs : Relation.ReflTransGen R w w') :
      Sampled R N w₀ obs w'
  | look {obs w ob} {worlds : Fin sensorCount → World} {w'} (h : Sampled R N w₀ obs w)
      (first : ∀ i, Relation.ReflTransGen R w (worlds i))
      (next : ∀ i j, i ≤ j → Relation.ReflTransGen R (worlds i) (worlds j))
      (last : ∀ i, Relation.ReflTransGen R (worlds i) w')
      (values : ∀ i, ob.snapshot.values i = (ob.succeeded i && sensorOn N (worlds i) i)) :
      Sampled R N w₀ (obs ++ [ob]) w'

end SmartFactory.Plant
