import SmartFactory.Proofs.Plant.Sampling
import SmartFactory.Proofs.Restart
import SmartFactory.Proofs.Typing

/-!
# `SmartFactory.Proofs.Plant.Discovery`: the bridge finds the plant

The names that the C bridge looks for are those of the default configuration of the server. A server
that was started with it has the folder and the sensors where the bridge looks for them
(`hasSensors_start`), and it keeps them as long as none of them is deleted, whatever else is added,
deleted or written (`Equipped.event`). So a bridge whose calls succeed finds all of them
(`Equipped.resolve`).

With the recovery of the loop this gives the whole of it: however the two programs got to where they
are, once the server can be reached again the bridge streams the plant (`streams_plant`).
-/

set_option autoImplicit false

namespace SmartFactory.Plant

open Bridge (NodeID statusCodeGood utf8 cString)
open Server (World UaNode TreeNode Host HttpEnv HttpServer ServerDataType Sound SameShape StepKind
  serverConfigSeedDefaults stepEvent)
open TcpBridge (Main Turn NodeClass BrowseResponse SensorSnapshot sensorCount sensorBrowseNames
  browseToNode findSensorsFolder findSensor uint16Max)
open TcpBridge.Main (init step snapshotOf)
open Run (run)

variable {R : World → World → Prop} {N : UInt16} {w w' w₀ : World} {m m' : Main} {t : Turn}
variable {worlds : Nat → World} {ok : Turn → (Nat → World) → Prop}
variable {env : HttpEnv}

/-! ### The nodes that the bridge looks for -/

/-- The id of the folder. -/
def folderId (N : UInt16) : Server.NodeId := .string N.toNat (cString "Sensors")

/-- The id of a sensor. -/
def sensorId (N : UInt16) (i : Fin sensorCount) : Server.NodeId :=
  .string N.toNat (cString (sensorBrowseNames i))

/-- The browse names of these nodes. -/
def plantNames : List Server.CString :=
  cString "Sensors" :: (List.finRange sensorCount).map fun i => cString (sensorBrowseNames i)

/-- The folder is below `Objects`, and the sensors are Boolean variables in it. -/
structure HasSensors (N : UInt16) (w : World) : Prop where
  folder : ∃ name, w.tree (folderId N) = some ⟨none, name, Server.objectsFolder⟩
  sensors : ∀ i, ∃ name, w.tree (sensorId N i) = some ⟨some .boolean, name, folderId N⟩

/-- The server is between two events, and it has the sensors. -/
structure Equipped (N : UInt16) (w : World) : Prop where
  sound : Sound w
  index : w.nm.nsIdx = N.toNat
  hasSensors : HasSensors N w

/-- The nodes that are looked for are kept when their part of the tree is. -/
theorem HasSensors.of_tree (h : HasSensors N w)
    (hsame : ∀ b ∈ plantNames, w'.tree (.string N.toNat b) = w.tree (.string N.toNat b)) :
    HasSensors N w' where
  folder := by
    rw [folderId, hsame _ (List.mem_cons_self ..)]
    exact h.folder
  sensors i := by
    have hmem : cString (sensorBrowseNames i) ∈ plantNames :=
      List.mem_cons_of_mem _ (List.mem_map_of_mem (List.mem_finRange i))
    rw [sensorId, hsame _ hmem]
    exact h.sensors i

/-- What is looked for is there. -/
theorem HasSensors.tree_ne_none (h : HasSensors N w) {b : Server.CString} (hb : b ∈ plantNames) :
    w.tree (.string N.toNat b) ≠ none := by
  rw [plantNames, List.mem_cons, List.mem_map] at hb
  rcases hb with rfl | ⟨i, -, rfl⟩
  · obtain ⟨name, hname⟩ := h.folder
    rw [folderId] at hname
    simp [hname]
  · obtain ⟨name, hname⟩ := h.sensors i
    rw [sensorId] at hname
    simp [hname]

/-! ### What the server does to them -/

/-- The tree is a part of the shape. -/
theorem tree_of_sameShape (h : SameShape w w') (id : Server.NodeId) : w'.tree id = w.tree id := by
  have htree : ∀ w : World, w.tree id = ((w.space.find id).map UaNode.shape).map fun n =>
      ⟨n.vAttr.map Server.UaVariable.dataType, n.displayName, n.parent⟩ := by
    intro w
    rw [World.tree, Option.map_map]
    refine congrFun (congrArg Option.map (funext fun n => ?_)) _
    simp only [Function.comp_apply, UaNode.shape, Option.map_map]
    rfl
  rw [htree, htree, h.find]

theorem tree_ne_none_iff {id : Server.NodeId} : w.tree id ≠ none ↔ w.space.find id ≠ none := by
  rw [World.tree, ne_eq, Option.map_eq_none_iff]

/-- The events that do not delete one of these nodes. -/
def SparesSensors (env : HttpEnv) (e : Server.Event) : Prop :=
  ∀ host b, e.operation env = some (.node (.delete host b)) → b ∉ plantNames

/-- **One operation** keeps the sensors, unless it deletes one of them. -/
theorem Equipped.operation (h : Equipped N w) {op : Server.ConfigOp}
    (hop : ∀ host b, op = .node (.delete host b) → b ∉ plantNames)
    (hs : Server.stepConfigOp env w op = some w') : Equipped N w' := by
  have hsound := Server.sound_stepConfigOp h.sound hs
  cases op with
  | putConfig io body =>
      obtain ⟨ns, file, rfl⟩ := Server.putConfig_world h.sound.mutex hs
      exact ⟨hsound, h.index, h.hasSensors.of_tree fun _ _ => rfl⟩
  | node op =>
      rw [Server.stepConfigOp_node] at hs
      cases Server.step_kinds h.sound hs with
      | quiet hshape =>
          refine ⟨hsound, ?_, h.hasSensors.of_tree fun b _ => tree_of_sameShape hshape _⟩
          rw [hshape.nm]
          exact h.index
      | added host d w₁ hadds hchecks hc hw' =>
          have htree : ∀ id, w'.tree id = w₁.tree id := fun id => by
            rw [hw', Server.appendAndSave_eq]
            rfl
          refine ⟨hsound, ?_, h.hasSensors.of_tree fun b hb => ?_⟩
          · rw [hw', Server.appendAndSave_eq]
            exact hc.nsIdx.trans h.index
          · -- The new node had a free id.
            rw [htree, hc.tree, if_neg]
            rintro hid
            have hlive := h.hasSensors.tree_ne_none hb
            rw [hid, tree_ne_none_iff] at hlive
            exact hlive hc.fresh
      | removed host b idx hdel hremoved =>
          refine ⟨hsound, ?_, h.hasSensors.of_tree fun c hc => ?_⟩
          · rw [hremoved.nm]
            exact h.index
          · have hne : Server.NodeId.string N.toNat c ≠ w.nodeIdOf b := by
              rw [World.nodeIdOf, h.index]
              intro hid
              obtain rfl := (Server.NodeId.string.inj hid).2
              exact hop host c (congrArg _ hdel.op) hc
            rw [World.tree, World.tree, hremoved.find_of_ne hne]

/-- **One event.** -/
theorem Equipped.event {s s' : HttpServer} {e : Server.Event} (h : Equipped N s.world)
    (hspares : SparesSensors env e) (hs : stepEvent env s e = some s') : Equipped N s'.world := by
  rcases Server.stepEvent_cases h.sound.mutex hs with hsame | ⟨op, hop, hstep⟩
  · rw [hsame]
    exact h
  · exact h.operation (fun host b hdel => hspares host b (hdel ▸ hop)) hstep

/-- The definition of the folder. -/
theorem folder_defaults : ∃ d ∈ serverConfigSeedDefaults.nodes, d.isFolder = true ∧
    d.browseName.chars = cString "Sensors" ∧
    (serverConfigSeedDefaults.nodes.any fun p => p.isParentOf d) = false := by
  decide +kernel

/-- The definitions of the sensors. -/
theorem sensors_defaults : ∀ i, ∃ d ∈ serverConfigSeedDefaults.nodes, d.isFolder = false ∧
    d.isVariable = true ∧ d.dataType = .boolean ∧
    d.browseName.chars = cString (sensorBrowseNames i) ∧
    d.parentBrowseName.chars = cString "Sensors" ∧
    (serverConfigSeedDefaults.nodes.any fun p => p.isParentOf d) = true := by
  decide +kernel

/-- **A server with the default configuration** has the sensors. -/
theorem equipped_start {host : Host} {file : Option Server.CString}
    (h : Server.start host N.toNat serverConfigSeedDefaults file = some w) : Equipped N w := by
  have htree := Server.start_tree Server.distinctNames_defaults Server.wellOrdered_defaults h
  refine ⟨Server.start_sound h, Server.start_nsIdx h, ?_, fun i => ?_⟩
  · obtain ⟨d, hd, hfolder, hname, hparent⟩ := folder_defaults
    refine ⟨d.displayName, (htree _ _).mpr ⟨d, hd, ?_, ?_, ?_⟩⟩
    · rw [Server.ServerNodeDef.isNode, hfolder, Bool.true_or]
    · rw [folderId, hname]
    · rw [Server.ServerNodeDef.treeNode, Server.configParent, hfolder, hparent]
      rfl
  · obtain ⟨d, hd, hfolder, hvariable, htype, hname, hparentName, hparent⟩ := sensors_defaults i
    refine ⟨d.displayName, (htree _ _).mpr ⟨d, hd, ?_, ?_, ?_⟩⟩
    · rw [Server.ServerNodeDef.isNode, hvariable, Bool.or_true]
    · rw [sensorId, hname]
    · rw [Server.ServerNodeDef.treeNode, Server.configParent, hfolder, hparent, htype, hparentName]
      rfl

/-- What the server may do: events that spare the sensors, and restarts with a configuration that
has them. -/
inductive Spares (env : HttpEnv) (N : UInt16) : World → World → Prop
  | event {s s' e} (hspares : SparesSensors env e) (hs : stepEvent env s e = some s') :
      Spares env N s.world s'.world
  | restart {w host cfg file w'} (hs : Server.start host N.toNat cfg file = some w')
      (h : HasSensors N w') : Spares env N w w'

theorem Equipped.later (h : Equipped N w) (hlater : Relation.ReflTransGen (Spares env N) w w') :
    Equipped N w' := by
  induction hlater with
  | refl => exact h
  | tail _ hs ih =>
      cases hs with
      | event hspares hs => exact ih.event hspares hs
      | restart hs h => exact ⟨Server.start_sound hs, Server.start_nsIdx hs, h⟩

/-! ### The lookups -/

/-- The calls of a turn are answered, and the session is not lost in it. -/
structure Reliable (t : Turn) (worlds : Nat → World) : Prop where
  kept : t.lostFirst = false ∧ t.lostThen = false ∧ t.lostLast = false
  ready : ∃ listen recv, t.select = .ready listen recv
  connected : t.replies.connect = statusCodeGood
  index : t.replies.namespaceGetIndex.1 = statusCodeGood
  browsed : ∀ k start cls, (t.replies.browse k start cls).serviceResult = statusCodeGood ∧
    ∀ result ∈ (t.replies.browse k start cls).results, result.statusCode = statusCodeGood
  read : ∀ (i : Fin sensorCount) nodeId, (variableAt (worlds (6 + i)).space nodeId).isSome →
    (t.read i nodeId).ret = statusCodeGood

/-- Different bytes are different characters. -/
theorem ofByte_injective : Function.Injective fun b : UInt8 => Char.ofNat b.toNat := by
  have hbyte : ∀ b : UInt8, (Char.ofNat b.toNat).toNat = b.toNat := by
    intro b
    have hlt := b.toNat_lt
    have hvalid : Nat.isValidChar b.toNat := .inl (by omega)
    rw [Char.ofNat, dif_pos hvalid]
    rfl
  intro a b hab
  have hnat := congrArg Char.toNat hab
  simp only [hbyte] at hnat
  exact UInt8.toNat_inj.mp hnat

/-- A name that has a reference is found. -/
theorem browseToNode_of_reference {bResp : BrowseResponse} {result : TcpBridge.BrowseResult}
    {rest : List TcpBridge.BrowseResult} {ref : TcpBridge.ReferenceDescription} {name : String}
    (hservice : bResp.serviceResult = statusCodeGood) (hresults : bResp.results = result :: rest)
    (hstatus : result.statusCode = statusCodeGood) (href : ref ∈ result.references)
    (hns : ref.namespaceIndex = N) (hname : ref.name = utf8 name) (hnonzero : 0 ∉ ref.name)
    (hne : utf8 name ≠ []) : ∃ nodeId, browseToNode bResp N name = some nodeId := by
  rw [browseToNode, if_pos hservice, hresults]
  dsimp only
  rw [if_pos hstatus, ← Option.isSome_iff_exists, Option.isSome_map, List.find?_isSome]
  refine ⟨ref, href, decide_eq_true ⟨hns, ?_, ?_⟩⟩
  · rw [hname]
    exact List.length_pos_of_ne_nil hne
  · rw [cString_of_nonzero hnonzero, hname]

/-- A node that is there is found by its name, and what is found has its id. -/
theorem browseToNode_of_live {start : NodeID} {cls : NodeClass} {bResp : BrowseResponse}
    {n : UaNode} (name : String) (hbrowse : Browses N w.space start cls bResp)
    (hservice : bResp.serviceResult = statusCodeGood)
    (hstatus : ∀ result ∈ bResp.results, result.statusCode = statusCodeGood)
    (hn : w.space.find (.string N.toNat (cString name)) = some n)
    (hparent : serverId start = some n.parent) (hclass : classOf n = cls) (hne : utf8 name ≠ []) :
    ∃ nodeId, browseToNode bResp N name = some nodeId ∧
      serverId nodeId = some (.string N.toNat (cString name)) := by
  have hid : n.nodeId = .string N.toNat (cString name) := by simpa using List.find?_some hn
  obtain ⟨result, rest, hresults, hcomplete⟩ := hbrowse.complete hservice
  have hgood := hstatus result (hresults ▸ List.mem_cons_self ..)
  obtain ⟨ref, href, hns, hlists⟩ := hcomplete hgood n (List.mem_of_find?_eq_some hn) name hparent
    hclass hid
  -- The id is made of the name, so that the reference has the name that is looked for.
  have hname : ref.name = utf8 name := by
    have hsame := hlists.name
    rw [hid, Server.NodeId.string.injEq] at hsame
    exact (List.map_injective_iff.mpr ofByte_injective hsame.2).symm
  obtain ⟨nodeId, hfound⟩ :=
    browseToNode_of_reference hservice hresults hgood href hns hname hlists.nonzero hne
  exact ⟨nodeId, hfound, serverId_of_browseToNode hbrowse hfound⟩

/-- A node of the tree. -/
theorem find_of_tree {id : Server.NodeId} {dataType : Option ServerDataType}
    {name : Server.CharBuf Server.serverDisplayNameMax} {parent : Server.NodeId}
    (h : w.tree id = some ⟨dataType, name, parent⟩) :
    ∃ n, w.space.find id = some n ∧ n.vAttr.isSome = dataType.isSome ∧ n.parent = parent := by
  obtain ⟨n, hn, htree⟩ := Option.map_eq_some_iff.mp h
  rw [TreeNode.mk.injEq] at htree
  refine ⟨n, hn, ?_, htree.2.2⟩
  rw [← htree.1, Option.isSome_map]

/-- The names that are looked for are not empty. -/
theorem utf8_names_ne_nil :
    utf8 "Sensors" ≠ [] ∧ ∀ i, utf8 (sensorBrowseNames i) ≠ [] := by
  decide +kernel

/-- **The lookups.** While the server has the sensors, calls that are answered find all of them. -/
theorem exists_resolve (hserves : Serves R N w t worlds w') (hreliable : Reliable t worlds)
    (hequipped : ∀ k, Equipped N (worlds k)) : ∃ nodes, t.replies.Resolve N nodes := by
  obtain ⟨_, hfolder⟩ := (hequipped 0).hasSensors.folder
  obtain ⟨n, hn, hclass, hparent⟩ := find_of_tree hfolder
  have hservice := fun k start cls => hreliable.browsed k start cls
  obtain ⟨folder, hfound, hfolderId⟩ := browseToNode_of_live "Sensors"
    (hserves.browse 0 TcpBridge.objectsFolder .object) (hservice ..).1 (hservice ..).2 hn
    (by rw [hparent]; rfl) (by rw [classOf, hclass]; rfl) utf8_names_ne_nil.1
  -- The call for sensor `i` is answered in a later state, where the sensors still are.
  have hsensors : ∀ i, ∃ nodeId, findSensor t.replies N folder i = some nodeId := by
    intro i
    obtain ⟨_, hsensor⟩ := (hequipped (i + 1)).hasSensors.sensors i
    obtain ⟨n, hn, hclass, hparent⟩ := find_of_tree hsensor
    obtain ⟨nodeId, hnode, -⟩ := browseToNode_of_live (sensorBrowseNames i)
      (hserves.browse (i + 1) folder .variable) (hservice ..).1 (hservice ..).2 hn
      (by rw [hparent, hfolderId]; rfl) (by rw [classOf, hclass]; rfl) (utf8_names_ne_nil.2 i)
    exact ⟨nodeId, hnode⟩
  choose nodes hnodes using hsensors
  exact ⟨nodes, hreliable.connected,
    Prod.ext hreliable.index (hserves.index hreliable.index), folder, hfound, hnodes⟩

theorem healthy_of_reliable (hN : N ≠ uint16Max) (hserves : Serves R N w t worlds w')
    (hreliable : Reliable t worlds) (hequipped : ∀ k, Equipped N (worlds k)) : t.Healthy where
  kept := hreliable.kept
  ready := hreliable.ready
  resolves := by
    obtain ⟨nodes, hnodes⟩ := exists_resolve hserves hreliable hequipped
    exact ⟨N, nodes, hN, hnodes⟩

/-! ### Runs -/

/-- The worlds of a turn have the sensors when the first one has. -/
theorem Equipped.serves (h : Equipped N w) (hserves : Serves (Spares env N) N w t worlds w')
    (k : Nat) : Equipped N (worlds k) :=
  (h.later hserves.first).later (hserves.later (Nat.zero_le k))

theorem Equipped.runs {m₀ : Main} {es : List Main.Event} (h₀ : Equipped N w₀)
    (h : Runs (Spares env N) N ok w₀ m₀ es w m) : Equipped N w := by
  induction h with
  | start => exact h₀
  | server _ hs ih => exact ih.later (.single hs)
  | turn _ hserves _ _ ih => exact ih.later hserves.passes
  | signal _ _ ih => exact ih

/-- The turns of a run in which all calls are answered are healthy. -/
theorem healthy_of_runs {m₀ : Main} {es : List Main.Event} (hN : N ≠ uint16Max)
    (h₀ : Equipped N w₀) (h : Runs (Spares env N) N Reliable w₀ m₀ es w m)
    (hes : Main.Event.signal ∉ es) : ∀ e ∈ es, ∃ t, e = .turn t ∧ t.Healthy := by
  induction h with
  | start => exact nofun
  | server _ _ ih => exact ih hes
  | turn hruns hserves hreliable _ ih =>
      rw [List.mem_append, not_or] at hes
      intro e he
      rcases List.mem_append.mp he with he | he
      · exact ih hes.1 e he
      · exact ⟨_, List.mem_singleton.mp he, healthy_of_reliable hN hserves hreliable
          ((h₀.runs hruns).serves hserves)⟩
  | signal => exact absurd (List.mem_concat_self ..) hes

/-- A sensor that is there is read. -/
theorem read_of_reliable {i : Fin sensorCount} {nodeId : NodeID} (hreliable : Reliable t worlds)
    (hequipped : Equipped N (worlds (6 + i))) (hid : serverId nodeId = some (sensorId N i)) :
    (t.read i nodeId).ret = statusCodeGood := by
  obtain ⟨_, hsensor⟩ := hequipped.hasSensors.sensors i
  obtain ⟨n, hn, hvariable, -⟩ := find_of_tree hsensor
  refine hreliable.read i nodeId ?_
  rw [variableAt_of_serverId hid, hn]
  exact hvariable

/-- **The bridge streams the plant.** The server was started with the default configuration, and
since then nobody has deleted the sensors; it may have been restarted with them. The bridge may have
lost its session any number of times, at any moment, until the loop got to `m₁`. If all calls are
answered from then on, the loop sends a frame in the first turn whose clock is 16 seconds after its
last attempt to connect before that and 300 milliseconds after its last frame, and the frame has
the values that the five sensors had when they were read. -/
theorem streams_plant {host : Host} {file : Option Server.CString} {es₁ es₂ : List Main.Event}
    {w₁ w₂ w₃ : World} {m₁ m₂ m₃ : Main} (hN : N ≠ uint16Max)
    (hstart : Server.start host N.toNat serverConfigSeedDefaults file = some w₀)
    (h₁ : Runs (Spares env N) N (fun _ _ => True) w₀ init es₁ w₁ m₁)
    (h₂ : Runs (Spares env N) N Reliable w₁ m₁ es₂ w₂ m₂) (hes₂ : Main.Event.signal ∉ es₂)
    (hserves : Serves (Spares env N) N w₂ t worlds w₃) (hreliable : Reliable t worlds)
    (hattempt : m₁.lastReconnectAttemptMs.toNat + 16000 ≤ t.nowMs.toNat)
    (hframe : m₂.lastUpdateMs.toNat + 300 ≤ t.nowMs.toNat) (hs : m₂.step (.turn t) = some m₃) :
    ∃ snapshot, snapshotOf m₂ (.turn t) = some snapshot ∧
      ∀ i, snapshot.values i = sensorOn N (worlds (6 + i)) i := by
  have hequipped₁ := (equipped_start hstart).runs h₁
  have hequipped := (hequipped₁.runs h₂).serves hserves
  have hhealthy := healthy_of_reliable hN hserves hreliable hequipped
  obtain ⟨b, hb⟩ := Main.sends_of_healthy h₁.run (healthy_of_runs hN hequipped₁ h₂ hes₂) h₂.run
    hhealthy hattempt hframe hs
  rcases (Main.snapshot_step hs).2 with ⟨-, -, hsame⟩ | ⟨snapshot, hsnapshot, -, -⟩
  · rw [hb] at hsame
    simp at hsame
  · refine ⟨snapshot, hsnapshot, fun i => ?_⟩
    -- The frame is there. The ids in use are those of the names, and so are the values.
    have hnamed := named_of_runs (named_of_runs named_init h₁) h₂
    have hid := hnamed.seen hserves (resolved_of_snapshotOf hsnapshot).1 i
    rw [snapshotOf_values hnamed hserves hsnapshot,
      decide_eq_true (read_of_reliable hreliable (hequipped _) hid), Bool.true_and]

/-- A variable of a running server holds a scalar. -/
theorem scalar_of_typed (htyped : w.Typed) {nodeId : NodeID} {v : Server.UaVariable}
    (hv : variableAt w.space nodeId = some v) : ∃ x : Server.Scalar, v.value = x := by
  obtain ⟨id, -, hnode⟩ := Option.bind_eq_some_iff.mp hv
  obtain ⟨n, hn, hattr⟩ := Option.bind_eq_some_iff.mp hnode
  obtain ⟨x, hx, -⟩ := htyped.node n (List.mem_of_find?_eq_some hn) v hattr
  exact ⟨x, hx⟩

/-- With typed values, all reads succeed. -/
theorem reliable_answered (htyped : w.Typed) (nowMs : UInt64) :
    Reliable (answered N w nowMs) fun _ => w where
  kept := ⟨rfl, rfl, rfl⟩
  ready := ⟨none, fun _ => none, rfl⟩
  connected := rfl
  index := rfl
  browsed _ start cls := by
    refine ⟨rfl, fun result hresult => ?_⟩
    have hone : result ∈ (answerBrowse w.space start cls).results := hresult
    rw [answerBrowse, List.mem_singleton] at hone
    rw [hone]
  read _ nodeId hsome := by
    obtain ⟨v, hv⟩ := Option.isSome_iff_exists.mp hsome
    obtain ⟨x, hx⟩ := scalar_of_typed htyped hv
    show (answerRead w.space nodeId).ret = statusCodeGood
    rw [answerRead, delivered, hv, Option.bind_some, hx]
    rfl

/-- The bridge sends the first frame when it has connected. -/
theorem streams_plant_answered : ∃ w m snapshot,
    Server.start .ok 1 serverConfigSeedDefaults none = some w ∧
    step init (.turn (answered 1 w 16000)) = some m ∧
    snapshotOf init (.turn (answered 1 w 16000)) = some snapshot ∧
    ∀ i, snapshot.values i = sensorOn 1 w i := by
  obtain ⟨w, hw⟩ := Server.exists_start .ok 1 none (fun _ => rfl) Server.distinctNames_defaults
  have hspace := ascii_start (N := 1) hw
  obtain ⟨m, hm⟩ := exists_step_answered hspace named_init rfl 16000
  have hattempt : (0 : UInt64).toNat + 16000 ≤ (16000 : UInt64).toNat := by decide
  have hframe : (0 : UInt64).toNat + 300 ≤ (16000 : UInt64).toNat := by decide
  have hserves : Serves (Spares (.knowing (.object [])) 1) 1 w _ _ w :=
    serves_answered hspace 16000
  obtain ⟨snapshot, hsnapshot, hvalues⟩ := streams_plant (by decide) hw .start .start nofun hserves
    (reliable_answered (Server.typed_start hw) 16000) hattempt hframe hm
  exact ⟨w, m, snapshot, hw, hm, hsnapshot, hvalues⟩

end SmartFactory.Plant
