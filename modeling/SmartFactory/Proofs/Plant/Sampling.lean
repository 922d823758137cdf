import SmartFactory.Plant.System
import SmartFactory.Proofs.Restart

/-!
# `SmartFactory.Proofs.Plant.Sampling`: the frames show the plant

The C bridge keeps the node ids of its sensors when it loses a session, and it may go on to use
them in another one although it has not looked for the sensors again (`Main.Relapses`). With the
server of this repository that does no harm. A node id of this server is made of the browse name of
the node, so an old id is the id of the sensor of that name for as long as there is one: `Named` is
kept whatever the server does.

So every frame shows the plant (`sampled_of_runs`): a sensor has the value that it has on the server
at that time, or `false` where its read fails. A client receives all frames that are sent while it
is connected, so its view of the plant is a sampling without gaps (`clients_see_plant`).

The last section has a server whose calls all succeed (`answered`).
-/

set_option autoImplicit false

namespace SmartFactory.Plant

open Bridge (NodeID ReadValue statusCodeGood utf8 cString)
open Server (World AddressSpace UaVariable)
open TcpBridge (Main Turn NodeClass ReferenceDescription BrowseResponse SensorSnapshot sensorCount
  sensorBrowseNames browseToNode findSensor readSensor readSensors resolveSensors_spec)
open TcpBridge.Main (init step snapshotOf)
open Run (run outputs outputs_concat)
open Subscription (outputsSince outputsSince_map outputsSince_suffix)

variable {R : World → World → Prop} {N : UInt16} {w w' w₀ : World} {m m' : Main} {t : Turn}
variable {space : AddressSpace} {worlds : Nat → World} {ok : Turn → (Nat → World) → Prop}

/-! ### The ids of the sensors -/

/-- A C string is compared as it is. -/
theorem cString_of_nonzero {bs : MessagePack.Bytes} (h : 0 ∉ bs) : TcpBridge.cString bs = bs :=
  List.takeWhile_eq_self_iff.mpr fun _ hb => decide_eq_true fun h0 => h (h0 ▸ hb)

/-- A node that is found by its name has the id of that name. -/
theorem serverId_of_browseToNode {start nodeId : NodeID} {cls : NodeClass} {bResp : BrowseResponse}
    {name : String} (hbrowse : Browses N space start cls bResp)
    (h : browseToNode bResp N name = some nodeId) :
    serverId nodeId = some (.string N.toNat (cString name)) := by
  rw [browseToNode] at h
  split at h
  · split at h
    · cases h
    · rename_i result rest hresults
      split at h
      · obtain ⟨ref, hfind, rfl⟩ := Option.map_eq_some_iff.mp h
        have hmatch := List.find?_some hfind
        simp only [decide_eq_true_eq] at hmatch
        -- The reference has the namespace and the name, and its id is made of these.
        obtain ⟨hns, -, hname⟩ := hmatch
        obtain ⟨n, -, -, -, hlists⟩ := hbrowse.sound result (hresults ▸ List.mem_cons_self ..) ref
          (List.mem_of_find?_eq_some hfind) hns
        rw [cString_of_nonzero hlists.nonzero] at hname
        rw [hlists.nodeId, hlists.name, hns, hname]
        rfl
      · cases h
  · cases h

/-- The node ids that are marked as resolved are those of the names. -/
def Named (N : UInt16) (m : Main) : Prop :=
  m.sensorNodeIdsResolved = true →
    ∀ i, serverId (m.sensorNodeIds i) = some (.string N.toNat (cString (sensorBrowseNames i)))

/-- At the start nothing is resolved. -/
theorem named_init : Named N init := nofun

/-- What leaves the node ids alone keeps `Named`. -/
theorem Named.of_eq (h : Named N m) (hids : m'.sensorNodeIds = m.sensorNodeIds)
    (hresolved : m'.sensorNodeIdsResolved = m.sensorNodeIdsResolved) : Named N m' := by
  rw [Named, hids, hresolved]
  exact h

/-- An attempt that gets to the sensors finds them by their names, and any other one leaves the
node ids as they are. -/
theorem named_attempt (h : Named N m) (hserves : Serves R N w t worlds w') :
    Named N (m.attempt t.replies) := by
  simp only [Main.attempt]
  split
  · split
    · rename_i hgood
      have hindex := hserves.index hgood
      split
      · rename_i folder _
        intro hresolved i
        -- Only when all sensors were found are the ids marked as resolved.
        have hfound := (resolveSensors_spec (List.nodup_finRange sensorCount) hresolved).1 i
          (List.mem_finRange i)
        have hbrowse := hserves.browse (i + 1) folder .variable
        rw [← hindex] at hbrowse ⊢
        exact serverId_of_browseToNode hbrowse hfound
      · exact h.of_eq rfl rfl
    · exact h.of_eq rfl rfl
  · exact h.of_eq rfl rfl

/-- A lost session leaves the resolved nodes. -/
theorem Named.lose (h : Named N m) (lost : Bool) : Named N (m.lose lost) := by
  rw [Main.lose_eq]
  exact h.of_eq rfl rfl

/-- What a turn resolves has the names of the sensors. -/
theorem Named.seen (h : Named N m) (hserves : Serves R N w t worlds w') : Named N (m.seen t) := by
  refine Named.lose ?_ t.lostThen
  rw [Main.connect]
  split
  · exact (named_attempt (h.lose t.lostFirst) hserves).of_eq rfl rfl
  · exact h.lose t.lostFirst

/-- **One turn** keeps the ids of the names. -/
theorem Named.turn (h : Named N m) (hserves : Serves R N w t worlds w')
    (hs : m.step (.turn t) = some m') : Named N m' := by
  have hseen := h.seen hserves
  obtain ⟨-, ⟨t', ht, -, rfl⟩ | ⟨t', ht, -, hend⟩ |
    ⟨t', listen, recv, clients, ht, -, -, hpublish⟩ | ⟨ht, -⟩⟩ := Main.step_cases hs
  · cases ht
    exact hseen
  · cases ht
    obtain ⟨clients, -, rfl⟩ := Main.shutdown_some hend
    exact hseen.of_eq rfl rfl
  · cases ht
    -- Only an attempt to connect changes the ids, and that is in the first part of the turn.
    rcases Main.publish_some hpublish with ⟨-, rfl⟩ | ⟨-, snapshot, clients', -, rfl⟩
    · rw [Main.lose_eq]
      exact hseen.of_eq rfl rfl
    · rw [Main.lose_eq]
      exact hseen.of_eq rfl rfl
  · cases ht

/-! ### The values of the sensors -/

/-- The variable behind the id of a name. -/
theorem variableAt_of_serverId {nodeId : NodeID} {id : Server.NodeId}
    (h : serverId nodeId = some id) :
    variableAt space nodeId = (space.find id).bind Server.UaNode.vAttr := by
  rw [variableAt, h]
  rfl

/-- A node of the server is in its namespace. -/
theorem ns_of_serverId {nodeId : NodeID} {name : Server.CString}
    (h : serverId nodeId = some (.string N.toNat name)) : nodeId.ns = N := by
  obtain ⟨ns, id⟩ := nodeId
  cases id with
  | numeric n => cases h
  | str s =>
      simp only [serverId, Option.some.injEq, Server.NodeId.string.injEq] at h
      exact UInt16.toNat_inj.mp h.1
  | guid s => cases h
  | bytes s => cases h

/-- A sensor is read as it is, or as `false` when the read has failed. -/
theorem readSensor_eq {nodeId : NodeID} {i : Fin sensorCount} {r : ReadValue}
    (hid : serverId nodeId = some (.string N.toNat (cString (sensorBrowseNames i))))
    (hread : Reads N w.space nodeId r) :
    readSensor r = some (decide (r.ret = statusCodeGood) && sensorOn N w i) := by
  by_cases hret : r.ret = statusCodeGood
  · obtain ⟨v, x, hv, hx, hvalue⟩ := hread (ns_of_serverId hid) hret
    rw [variableAt_of_serverId hid] at hv
    rw [readSensor, if_neg (not_not.mpr hret), hvalue, sensorOn, hv, Option.any_some, hx,
      decide_eq_true hret, Bool.true_and]
    cases x with
    | boolean b => cases b <;> rfl
    | int32 n => rfl
    | double bits => rfl
    | string s => rfl
  · rw [readSensor, if_pos hret, decide_eq_false hret, Bool.false_and]

/-- A snapshot is read from node ids that are marked as resolved. -/
theorem resolved_of_snapshotOf {snapshot : SensorSnapshot}
    (h : snapshotOf m (.turn t) = some snapshot) : (m.seen t).sensorNodeIdsResolved = true ∧
      readSensors (m.seen t).seqCounter t.timestampMs t.read (m.seen t).sensorNodeIds =
        some snapshot := by
  simp only [snapshotOf] at h
  split at h
  · split at h
    · rename_i hsends
      exact ⟨(Main.sends_iff.mp hsends).2.2.1, h⟩
    · cases h
  · cases h
  · cases h

/-- **The snapshot of a turn.** -/
theorem snapshotOf_values {snapshot : SensorSnapshot} (h : Named N m)
    (hserves : Serves R N w t worlds w') (hs : snapshotOf m (.turn t) = some snapshot)
    (i : Fin sensorCount) : snapshot.values i =
      (decide ((t.read i ((m.seen t).sensorNodeIds i)).ret = statusCodeGood) &&
        sensorOn N (worlds (6 + i)) i) := by
  obtain ⟨hresolved, hread⟩ := resolved_of_snapshotOf hs
  have hvalue := readSensor_eq (h.seen hserves hresolved i) (hserves.read i _)
  rw [readSensors] at hread
  split at hread
  · obtain rfl := Option.some.inj hread
    simp only [hvalue, Option.getD_some]
  · cases hread

/-! ### Runs -/

/-- The worlds of a turn come one after the other. -/
theorem Serves.later (h : Serves R N w t worlds w') {j k : Nat} (hjk : j ≤ k) :
    Relation.ReflTransGen R (worlds j) (worlds k) := by
  induction k, hjk using Nat.le_induction with
  | base => exact .refl
  | succ k _ ih => exact ih.trans (h.next k)

/-- While a turn is served the server only moves by `R`. -/
theorem Serves.passes (h : Serves R N w t worlds w') : Relation.ReflTransGen R w w' :=
  h.first.trans (h.last 0)

/-- The events of the bridge in a run of the plant are a run of the bridge. -/
theorem Runs.run {m₀ : Main} {es : List Main.Event} (h : Runs R N ok w₀ m₀ es w m) :
    Run.run step m₀ es = some m := by
  induction h with
  | start => rfl
  | server _ _ ih => exact ih
  | turn _ _ _ hs ih =>
      rw [Run.run_append, ih, Option.bind_some, Run.run, hs, Option.bind_some, Run.run]
  | signal _ hs ih =>
      rw [Run.run_append, ih, Option.bind_some, Run.run, hs, Option.bind_some, Run.run]

/-- **The resolved nodes** have the names of the sensors after any run. -/
theorem named_of_runs {m₀ : Main} {es : List Main.Event} (h₀ : Named N m₀)
    (h : Runs R N ok w₀ m₀ es w m) : Named N m := by
  induction h with
  | start => exact h₀
  | server _ _ ih => exact ih
  | turn _ hserves _ hs ih => exact ih.turn hserves hs
  | signal _ hs ih =>
      obtain ⟨-, ⟨_, he, -⟩ | ⟨_, he, -⟩ | ⟨_, _, _, _, he, -⟩ | ⟨-, hend⟩⟩ := Main.step_cases hs
      · cases he
      · cases he
      · cases he
      · obtain ⟨clients, -, rfl⟩ := Main.shutdown_some hend
        exact ih.of_eq rfl rfl

/-- **The frames show the plant.** -/
theorem sampled_of_runs {es : List Main.Event} (h : Runs R N ok w₀ init es w m) :
    Sampled R N w₀ (outputs step observationOf init es) w := by
  induction h with
  | start => exact .start
  | server _ hs ih => exact .later ih (.single hs)
  | @turn es w m t worlds w' m' hruns hserves _ hs ih =>
      rw [outputs_concat hruns.run hs, observationOf]
      cases hsnapshot : snapshotOf m (.turn t) with
      | none =>
          rw [Option.map_none, Option.toList_none, List.append_nil]
          -- A turn without a frame: the server has moved on, and nothing was shown.
          exact .later ih hserves.passes
      | some snapshot =>
          rw [Option.map_some, Option.toList_some]
          exact .look ih
            (fun i => hserves.first.trans (hserves.later (Nat.zero_le _)))
            (fun i j hij => hserves.later (Nat.add_le_add_left hij 6)) (fun i => hserves.last _)
            (snapshotOf_values (named_of_runs named_init hruns) hserves hsnapshot)
  | signal hruns hs ih =>
      rw [outputs_concat hruns.run hs]
      simpa [observationOf] using ih

/-- The snapshot of an observation. -/
theorem map_observationOf (m : Main) (e : Main.Event) :
    (observationOf m e).map Observation.snapshot = snapshotOf m e := by
  cases e with
  | signal => rfl
  | turn t =>
      rw [observationOf]
      cases snapshotOf m (.turn t) <;> rfl

/-- **What a client sees of the plant.** The bridge samples the plant: in each frame of a run a
sensor has the value that it had on the server when it was read, or `false` where the read has
failed, and the frames are in the order of time. As long as a client is connected, it has received
all frames in full that were sent from the event on in which it was accepted. Of one that has been
removed, the frames that it received are the first ones of these, and maybe a part of the next one.
It is so whatever the server does, through lost sessions and restarts. -/
theorem clients_see_plant {es : List Main.Event} (h : Runs R N ok w₀ init es w m) :
    let observations := outputs step observationOf init es
    Sampled R N w₀ observations w ∧ ∀ k,
      let since := outputsSince step observationOf (fun m => k < m.clients.net.accepted) init es
      since <:+ observations ∧ ∃ whole part, m.clients.Received k whole part ∧
        whole ++ part.toList.map Prod.fst <+: since.map Observation.snapshot ∧
        (k < m.clients.net.accepted → m.clients.net.closes k = 0 →
          part = none ∧ whole = since.map Observation.snapshot) := by
  intro observations
  refine ⟨sampled_of_runs h, fun k => ?_⟩
  intro since
  obtain ⟨-, -, hreceived⟩ := Main.contiguous_of_run h.run k
  refine ⟨outputsSince_suffix init es, ?_⟩
  have hsnapshots : since.map Observation.snapshot = Main.sentSince k init es :=
    outputsSince_map map_observationOf init es
  rwa [hsnapshots]

/-! ### A server that answers -/

/-- The reference to a node. -/
def reference (n : Server.UaNode) : Option ReferenceDescription :=
  match n.nodeId with
  | .string ns id => some ⟨UInt16.ofNat ns, id.map fun c => UInt8.ofNat c.toNat,
      ⟨UInt16.ofNat ns, .str (String.ofList id)⟩⟩
  | .numeric _ _ => none

/-- A browse that succeeds. -/
def answerBrowse (space : AddressSpace) (start : NodeID) (cls : NodeClass) : BrowseResponse :=
  ⟨statusCodeGood, [⟨statusCodeGood,
    (space.filter fun n => serverId start = some n.parent ∧ classOf n = cls).filterMap reference⟩]⟩

/-- What a read of a node delivers. -/
def delivered (space : AddressSpace) (nodeId : NodeID) : Option Bridge.Scalar :=
  (variableAt space nodeId).bind fun v => v.value.scalar?.map deliver

/-- A read of the value of a node. There is `UA_STATUSCODE_BADNODEIDUNKNOWN` for nodes that are
not there. -/
def answerRead (space : AddressSpace) (nodeId : NodeID) : ReadValue :=
  match delivered space nodeId with
  | some x => ⟨statusCodeGood, some (.scalar x)⟩
  | none => ⟨0x80340000, none⟩

/-- The names of the nodes are in ASCII. -/
def Ascii (space : AddressSpace) : Prop :=
  ∀ n ∈ space, ∀ ns id, n.nodeId = .string ns id →
    ns < 2 ^ 16 ∧ ∀ c ∈ id, 0 < c.toNat ∧ c.toNat < 128

/-- An ASCII name survives the way through its bytes. -/
theorem ascii_bytes {id : Server.CString} (h : ∀ c ∈ id, 0 < c.toNat ∧ c.toNat < 128) :
    (id.map fun c => UInt8.ofNat c.toNat).map (fun b => Char.ofNat b.toNat) = id ∧
      0 ∉ id.map fun c => UInt8.ofNat c.toNat := by
  have hbyte : ∀ c ∈ id, (UInt8.ofNat c.toNat).toNat = c.toNat := fun c hc => by
    have hlt := (h c hc).2
    rw [UInt8.toNat_ofNat', Nat.mod_eq_of_lt (by omega)]
  constructor
  · rw [List.map_map]
    have hsame : ∀ c ∈ id, ((fun b : UInt8 => Char.ofNat b.toNat) ∘ fun c => UInt8.ofNat c.toNat) c
        = c := fun c hc => by rw [Function.comp_apply, hbyte c hc, Char.ofNat_toNat]
    exact (List.map_congr_left hsame).trans (List.map_id' id)
  · rw [List.mem_map]
    rintro ⟨c, hc, h0⟩
    have hpos := (h c hc).1
    rw [← hbyte c hc, h0] at hpos
    exact absurd hpos (by decide)

/-- What is listed is a reference of the node. -/
theorem lists_reference {n : Server.UaNode} {ref : ReferenceDescription} (hspace : Ascii space)
    (hn : n ∈ space) (href : reference n = some ref) : Lists n ref := by
  rw [reference] at href
  split at href
  · rename_i ns id hid
    obtain ⟨hns, hascii⟩ := hspace n hn ns id hid
    have hindex : (UInt16.ofNat ns).toNat = ns := by
      rw [UInt16.toNat_ofNat', Nat.mod_eq_of_lt hns]
    obtain ⟨hbytes, hnonzero⟩ := ascii_bytes hascii
    obtain rfl := Option.some.inj href
    refine ⟨?_, ?_, hnonzero⟩
    · rw [serverId, hindex, hid, Bridge.cString_ascii fun c hc => (hascii c hc).2]
    · rw [hid, hindex, hbytes]
  · cases href

/-- The answer of the server is what browsing may give. -/
theorem browses_answer (hspace : Ascii space) (start : NodeID) (cls : NodeClass) :
    Browses N space start cls (answerBrowse space start cls) where
  sound result hresult ref href _ := by
    rw [answerBrowse, List.mem_singleton] at hresult
    rw [hresult, List.mem_filterMap] at href
    obtain ⟨n, hn, href⟩ := href
    rw [List.mem_filter, decide_eq_true_eq] at hn
    exact ⟨n, hn.1, hn.2.1, hn.2.2, lists_reference hspace hn.1 href⟩
  complete _ := by
    refine ⟨_, [], rfl, fun _ n hn name hparent hclass hid => ?_⟩
    obtain ⟨ref, href, hns⟩ : ∃ ref, reference n = some ref ∧ ref.namespaceIndex = N := by
      rw [reference, hid]
      exact ⟨_, rfl, UInt16.ofNat_toNat⟩
    have hmem : n ∈ space.filter fun n => serverId start = some n.parent ∧ classOf n = cls :=
      List.mem_filter.mpr ⟨hn, decide_eq_true ⟨hparent, hclass⟩⟩
    exact ⟨ref, List.mem_filterMap.mpr ⟨n, hmem, href⟩, hns, lists_reference hspace hn href⟩

/-- And its value is what reading may give. -/
theorem reads_answer (nodeId : NodeID) : Reads N space nodeId (answerRead space nodeId) := by
  intro _ hret
  rw [answerRead] at hret ⊢
  split at hret
  · rename_i x hx
    obtain ⟨v, hv, hscalar⟩ := Option.bind_eq_some_iff.mp hx
    obtain ⟨y, hy, rfl⟩ := Option.map_eq_some_iff.mp hscalar
    exact ⟨v, y, hv, Server.scalar?_eq_some.mp hy, rfl⟩
  · exact absurd hret (by decide)

/-- A turn in which nothing happens to the server and all its calls succeed. -/
def answered (N : UInt16) (w : World) (nowMs : UInt64) : Turn where
  nowMs
  lostFirst := false
  replies :=
    { connect := statusCodeGood
      namespaceGetIndex := (statusCodeGood, N)
      browse _ start cls := answerBrowse w.space start cls }
  lostThen := false
  select := .ready none fun _ => none
  lostLast := false
  timestampMs := nowMs
  read _ nodeId := answerRead w.space nodeId
  sent _ := 0

/-- A server that answers every call serves the turn. -/
theorem serves_answered (hspace : Ascii w.space) (nowMs : UInt64) :
    Serves R N w (answered N w nowMs) (fun _ => w) w where
  first := .refl
  next _ := .refl
  last _ := .refl
  index _ := rfl
  browse _ start cls := browses_answer hspace start cls
  read _ nodeId := reads_answer nodeId

/-- Such a turn is possible: whatever is read has a value. -/
theorem exists_step_answered (hspace : Ascii w.space) (hnamed : Named N m)
    (hrunning : m.running = true) (nowMs : UInt64) :
    ∃ m', m.step (.turn (answered N w nowMs)) = some m' := by
  have hserves := serves_answered (R := fun _ _ => False) (N := N) hspace nowMs
  have hseen := hnamed.seen hserves
  obtain ⟨clients, hclients⟩ := Main.exists_run_checks (m.seen (answered N w nowMs)).clients
    (fun _ => none) (List.finRange TcpBridge.maxClients)
  have hpublish : ∃ m', Main.publish { m.seen (answered N w nowMs) with clients }
      (answered N w nowMs) = some m' := by
    rw [Main.publish]
    split
    · rename_i hsends
      -- With a session and all ids resolved, each read finds its sensor, and `publish` goes
      -- through.
      have hvalue := fun i => readSensor_eq (hseen (Main.sends_iff.mp hsends).2.2.1 i)
        (hserves.read i _)
      have hallowed : ∀ snapshot, TcpBridge.Clients.Op.Allowed clients
          (.broadcast snapshot (answered N w nowMs).sent) :=
        fun snapshot _ => Int.natCast_nonneg (TcpBridge.encodeFrame snapshot 512).length
      rw [readSensors, if_pos fun i => by rw [hvalue]; rfl, Option.bind_eq_bind, Option.bind_some,
        TcpBridge.Clients.step_of_allowed (hallowed _)]
      exact ⟨_, rfl⟩
    · exact ⟨_, rfl⟩
  obtain ⟨m', hm'⟩ := hpublish
  refine ⟨m', ?_⟩
  unfold Main.step
  rw [if_pos hrunning]
  show Main.turn m (answered N w nowMs) = some m'
  have hready : run TcpBridge.Clients.step (m.seen (answered N w nowMs)).clients
      (Main.readyOps none fun _ => none) = some clients := hclients
  rw [Main.turn]
  show (run TcpBridge.Clients.step (m.seen (answered N w nowMs)).clients
    (Main.readyOps none fun _ => none) >>= fun clients =>
      Main.publish { m.seen (answered N w nowMs) with clients } (answered N w nowMs)) = some m'
  rw [hready]
  exact hm'

/-- The names of the default configuration are in ASCII. -/
theorem ascii_defaults : ∀ d ∈ Server.serverConfigSeedDefaults.nodes,
    d.browseName.chars.all (fun c => 0 < c.toNat && c.toNat < 128) = true := by
  decide +kernel

/-- The names of the default plant are ASCII. -/
theorem ascii_start {host : Server.Host} {file : Option Server.CString}
    (h : Server.start host N.toNat Server.serverConfigSeedDefaults file = some w) :
    Ascii w.space := by
  have htree := Server.start_tree Server.distinctNames_defaults Server.wellOrdered_defaults h
  intro n hn ns id hid
  have hfind := AddressSpace.find_of_mem (Server.start_sound h).ids_nodup hn
  obtain ⟨d, hd, -, hname, -⟩ := (htree n.nodeId _).mp (by rw [World.tree, hfind]; rfl)
  rw [hid, Server.NodeId.string.injEq] at hname
  obtain ⟨rfl, rfl⟩ := hname
  refine ⟨N.toNat_lt, fun c hc => ?_⟩
  have hascii := List.all_eq_true.mp (ascii_defaults d hd) c hc
  simpa using hascii

/-- The bridge connects to a server that was started with the default configuration. -/
theorem clients_see_plant_answered : ∃ w m,
    Server.start .ok 1 Server.serverConfigSeedDefaults none = some w ∧
    step init (.turn (answered 1 w 16000)) = some m ∧
    Sampled (fun _ _ => False) 1 w (outputs step observationOf init [.turn (answered 1 w 16000)])
      w := by
  obtain ⟨w, hw⟩ := Server.exists_start .ok 1 none (fun _ => rfl) Server.distinctNames_defaults
  have hspace := ascii_start (N := 1) hw
  obtain ⟨m, hm⟩ := exists_step_answered hspace named_init rfl 16000
  have hruns :
      Runs (fun _ _ => False) 1 (fun _ _ => True) w init [.turn (answered 1 w 16000)] w m :=
    .turn .start (serves_answered hspace 16000) trivial hm
  exact ⟨w, m, hw, hm, (clients_see_plant hruns).1⟩

end SmartFactory.Plant
