import SmartFactory.Proofs.Reload
import SmartFactory.Proofs.Requests

/-!
# `SmartFactory.Proofs.Persistence`: the round trip of the configuration

A configuration goes to the file through `server_config_save` and comes back through
`server_config_load`. `ReadsBack` says that nothing is lost on the way. `readsBack_iff` is the
extent of it: a list without nodes is read as the defaults, and the namespace is lost with
it, for the defaults replace the one that was just parsed.

`ConfigStep` lists what an operation on the configuration can come to: an addition, a deletion
or a `PUT /api/config`, refused or not, with the configuration and the file that it leaves.
-/

set_option autoImplicit false

namespace SmartFactory.Server

open Run

/-! ### Equal configurations -/

/-- The two definitions have the same fields. The data type counts for variables. -/
structure SameFields (d d' : ServerNodeDef) : Prop where
  kind : d'.kind = d.kind
  browseName : d'.browseName = d.browseName
  displayName : d'.displayName = d.displayName
  parentBrowseName : d'.parentBrowseName = d.parentBrowseName
  simulation : d'.simulation = d.simulation
  role : d'.role = d.role
  dataType : d.isVariable = true → d'.dataType = d.dataType

/-- The two configurations have the same namespace and the same definitions in the same
order. -/
structure SameConfig (cfg cfg' : ServerConfig) : Prop where
  namespaceUri : cfg'.namespaceUri = cfg.namespaceUri
  nodes : List.Forall₂ SameFields cfg.nodes cfg'.nodes

variable {cfg cfg' : ServerConfig} {w w' : World}

/-- A definition agrees with what a file keeps of it. -/
theorem sameFields_saved (d : ServerNodeDef) : SameFields d d.saved :=
  ⟨rfl, rfl, rfl, rfl, rfl, rfl, fun hv => if_pos hv⟩

theorem forall₂_saved (nodes : List ServerNodeDef) :
    List.Forall₂ SameFields nodes (nodes.map ServerNodeDef.saved) := by
  induction nodes with
  | nil => exact .nil
  | cons d rest ih => exact .cons (sameFields_saved d) ih

/-- Equal configurations have definitions or have none. -/
theorem SameConfig.nodes_eq_nil (h : SameConfig cfg cfg') : cfg.nodes = [] ↔ cfg'.nodes = [] := by
  rw [← List.length_eq_zero_iff, ← List.length_eq_zero_iff, h.nodes.length_eq]

/-! ### Reading a configuration back -/

/-- The defaults are not empty. -/
theorem nodes_defaults_ne_nil : serverConfigSeedDefaults.nodes ≠ [] := by
  decide

/-- A load never leaves an empty list of definitions. -/
theorem configOfJson_ne_nil (root : Json) : (configOfJson root).nodes ≠ [] := by
  have hseeded : ∀ cfg : ServerConfig,
      (if cfg.nodes.length = 0 then serverConfigSeedDefaults else cfg).nodes ≠ [] := by
    intro cfg
    split
    · exact nodes_defaults_ne_nil
    · rename_i hlen
      exact fun hnil => hlen (by rw [hnil]; rfl)
  exact hseeded _

/-- The document of a configuration is read as that configuration exactly when it has
definitions. -/
theorem sameConfig_configOfJson_iff :
    SameConfig cfg (configOfJson (configToJson cfg)) ↔ cfg.nodes ≠ [] := by
  rw [configOfJson_eq]
  split
  · rename_i hnil
    refine iff_of_false (fun hsame => ?_) (not_not.mpr hnil)
    exact nodes_defaults_ne_nil (hsame.nodes_eq_nil.mp hnil)
  · rename_i hne
    exact iff_of_true ⟨reloaded_namespaceUri cfg, reloaded_nodes cfg ▸ forall₂_saved _⟩ hne

/-- The file that a save writes for the configuration is loaded as that configuration. -/
def ReadsBack (cjson : CJson) (cfg : ServerConfig) : Prop :=
  ∀ file, ∃ cfg' file', serverConfigLoad cjson .ok (serverConfigSave cjson .ok cfg file).2
    = (some cfg', file') ∧ SameConfig cfg cfg'

/-- **The extent of the round trip.** A configuration is read back exactly when it has
definitions. -/
theorem readsBack_iff_ne_nil {cjson : CJson} (hcjson : RoundTrips cjson cfg) :
    ReadsBack cjson cfg ↔ cfg.nodes ≠ [] := by
  rw [← sameConfig_configOfJson_iff]
  have hload : ∀ file, serverConfigLoad cjson .ok (serverConfigSave cjson .ok cfg file).2
      = (some (configOfJson (configToJson cfg)), some (cjson.print (configToJson cfg))) := by
    intro file
    rw [serverConfigSave_ok]
    exact load_printed hcjson
  constructor
  · intro hback
    obtain ⟨cfg', file', hread, hsame⟩ := hback none
    rw [hload, Prod.mk.injEq, Option.some.injEq] at hread
    exact hread.1 ▸ hsame
  · exact fun hsame file => ⟨_, _, hload file, hsame⟩

/-! ### One step of the configuration -/

/-- The operation creates or deletes nodes, or changes the namespace. -/
def ConfigOp.changesConfig : ConfigOp → Bool
  | .node op => op.isStructural
  | .putConfig _ _ => true

/-- The file operations of the save of an operation. -/
def ConfigOp.saveIo : ConfigOp → Option SaveIo
  | .node (.addFolder host _ _ _) => some host.save
  | .node (.addVariable host _ _ _ _ _) => some host.save
  | .node (.delete host _) => some host.save
  | .node _ => none
  | .putConfig io _ => some io

/-- The operation passes its checks: it creates a node, it deletes one, or it names a new
namespace. -/
inductive Accepted (env : HttpEnv) (w : World) : ConfigOp → Prop
  | creates {op : Op} {host : Host} {d : ServerNodeDef} (hcreates : Creates w op host d) :
      Accepted env w (.node op)
  | deletes {op : Op} {host : Host} {b : CString} {idx : Nat} (hdel : Deletes w op host b idx) :
      Accepted env w (.node op)
  | renames {io : SaveIo} {body ns : CString} {root : Json}
      (hparse : env.cjson.parse body = some root)
      (hns : Json.stringValue (root.getObjectItem "namespaceUri".toList) = some ns) :
      Accepted env w (.putConfig io body)

/-- What an operation that passes its checks makes of the configuration, and the file
operations of its save. -/
inductive Changes (env : HttpEnv) (w : World) : ConfigOp → SaveIo → ServerConfig → Prop
  | added {op : Op} {host : Host} {d : ServerNodeDef} (hcreates : Creates w op host d)
      (hroom : w.nm.config.nodes.length < serverMaxNodes) :
      Changes env w (.node op) host.save (w.nm.config.push d hroom)
  | removed {op : Op} {host : Host} {b : CString} {idx : Nat} (hdel : Deletes w op host b idx) :
      Changes env w (.node op) host.save (w.nm.config.removeAt idx)
  | renamed {io : SaveIo} {body ns : CString} {root : Json}
      (hparse : env.cjson.parse body = some root)
      (hns : Json.stringValue (root.getObjectItem "namespaceUri".toList) = some ns) :
      Changes env w (.putConfig io body) io
        { w.nm.config with namespaceUri := snprintf serverNamespaceMax ns }

/-- The outcomes of an operation on the configuration, with what they report. -/
inductive ConfigStep (env : HttpEnv) (w : World) (op : ConfigOp) : Bool → World → Prop
  /-- The operation was refused. -/
  | failed (hrefused : ¬ Accepted env w op) : ConfigStep env w op false w
  /-- The configuration changed, and a save was attempted. -/
  | changed {io : SaveIo} {cfg : ServerConfig} (w' : World) (hchange : Changes env w op io cfg)
      (hmutex : w'.nm.mutexHeld = false) (hconfig : w'.nm.config = cfg)
      (hfile : w'.file = (serverConfigSave env.cjson io cfg w.file).2) : ConfigStep env w op true w'
  /-- A node was created, but the configuration was full. -/
  | overflowed {o : Op} {host : Host} {d : ServerNodeDef} (w' : World) (hop : op = .node o)
      (hcreates : Creates w o host d) (hfull : ¬ w.nm.config.nodes.length < serverMaxNodes)
      (hmutex : w'.nm.mutexHeld = false) (hconfig : w'.nm.config = w.nm.config)
      (hfile : w'.file = w.file) : ConfigStep env w op true w'

variable {env : HttpEnv} {op : ConfigOp} {ok : Bool}

/-- An operation that makes a change passes its checks. -/
theorem Changes.accepted {io : SaveIo} (h : Changes env w op io cfg) : Accepted env w op := by
  cases h with
  | added hcreates => exact .creates hcreates
  | removed hdel => exact .deletes hdel
  | renamed hparse hns => exact .renames hparse hns

/-- An addition ends in one of these outcomes. -/
theorem configStep_of_added {host : Host} {d : ServerNodeDef} {o : Op} {rc : StatusCode}
    (hadds : o.adds = some (host, d)) (hm : w.nm.mutexHeld = false)
    (h : Added env.cjson host d (o.checks w) w rc w') :
    ConfigStep env w (.node o) (decide (rc = .good)) w' := by
  cases h with
  | refused rc hrc hreason =>
      rw [decide_eq_false hrc]
      refine .failed fun haccepted => ?_
      cases haccepted with
      | creates hcreates =>
          obtain ⟨rfl, rfl⟩ := adds_inj hadds hcreates.adds
          -- It was refused by a check, for a live node, or by the server.
          rcases hreason with hno | hlive | hrefused
          · exact hno hcreates.checks
          · exact hlive hcreates.fresh
          · exact hrefused hcreates.accepted
      | deletes hdel => cases hadds.symm.trans (congrArg Op.adds hdel.op)
  | added w₁ hchecks hc =>
      have hcreates : Creates w o host d := ⟨hadds, hchecks, hc.fresh, hc.accepted⟩
      have hfree := hc.mutexHeld.trans hm
      by_cases hroom : w.nm.config.nodes.length < serverMaxNodes
      · have hpush : w₁.nm.config.append d = w.nm.config.push d hroom := by
          rw [hc.config, ServerConfig.append, dif_pos hroom]
        refine .changed _ (.added hcreates hroom) ?_ ?_ ?_
        · rw [appendAndSave_eq]
          exact hfree
        · rw [appendAndSave_eq]
          exact hpush
        · rw [appendAndSave_eq]
          show (if w₁.nm.config.nodes.length < serverMaxNodes then _ else _) = _
          rw [hpush, hc.config, if_pos hroom, hc.file]
      · refine .overflowed _ rfl hcreates hroom ?_ ?_ ?_
        · rw [appendAndSave_eq]
          exact hfree
        · rw [appendAndSave_eq]
          show w₁.nm.config.append d = _
          rw [hc.config, ServerConfig.append, dif_neg hroom]
        · rw [appendAndSave_eq]
          show (if w₁.nm.config.nodes.length < serverMaxNodes then _ else _) = _
          rw [hc.config, if_neg hroom, hc.file]

/-- The deletion from the server leaves the file as it is. -/
theorem deleteFromServer_file (b : CString) (w : World) : (deleteFromServer b w).file = w.file := by
  simp only [deleteFromServer]
  cases w.mapFind b <;> rfl

/-- A deletion ends in one of these outcomes. -/
theorem configStep_of_deleted {host : Host} {b : CString} {rc : StatusCode}
    (hm : w.nm.mutexHeld = false) (h : Deleted env.cjson host b w rc w') :
    ConfigStep env w (.node (.delete host b)) (decide (rc = .good)) w' := by
  -- A deletion that is refused meets none of the conditions of one that is not.
  have hfailed : (∀ idx, ¬ Deletes w (.delete host b) host b idx) →
      ConfigStep env w (.node (.delete host b)) false w := by
    refine fun hno => .failed fun haccepted => ?_
    cases haccepted with
    | creates hcreates => cases hcreates.adds
    | deletes hdel =>
        obtain ⟨rfl, rfl⟩ := Op.delete.inj hdel.op
        exact hno _ hdel
  cases h with
  | unknown hnone => exact hfailed fun idx hdel => nomatch hnone.symm.trans hdel.index
  | denied idx d hidx hd hswitch =>
      refine hfailed fun idx' hdel => ?_
      obtain rfl := Option.some.inj (hidx.symm.trans hdel.index)
      have hno := hdel.switch
      rw [hd, Option.any_some] at hno
      cases hswitch.symm.trans hno
  | children hchildren => exact hfailed fun idx hdel => nomatch hchildren.symm.trans hdel.children
  | deleted idx d hidx hd _ hswitch hchildren =>
      have hdel : Deletes w (.delete host b) host b idx :=
        ⟨rfl, hidx, by rw [hd, Option.any_some]; exact hswitch, hchildren⟩
      refine .changed _ (.removed hdel) ?_ ?_ ?_
      · show (deleteFromServer b w).nm.mutexHeld = false
        rw [deleteFromServer_nm]
        exact hm
      · show (deleteFromServer b w).nm.config.removeAt idx = _
        rw [deleteFromServer_nm]
      · show (serverConfigSave _ _ ((deleteFromServer b w).nm.config.removeAt idx)
          (deleteFromServer b w).file).2 = _
        rw [deleteFromServer_nm, deleteFromServer_file]

/-- The run of the locked section of `handle_put_config`. -/
theorem putNamespaceUri_run (env : HttpEnv) (io : SaveIo) (ns : CString)
    (hm : w.nm.mutexHeld = false) :
    (putNamespaceUri env io ns).run w = .ok ((),
      { w with
        nm := { w.nm with
          config := { w.nm.config with namespaceUri := snprintf serverNamespaceMax ns } }
        file := (serverConfigSave env.cjson io
          { w.nm.config with namespaceUri := snprintf serverNamespaceMax ns } w.file).2 }) := by
  rw [putNamespaceUri, run_bind_ok (lock_run hm), run_modify_bind, run_modify_bind]
  show Except.ok ((), World.setMutex _ false) = _
  rw [← setMutex_of_eq hm]
  rfl

/-- `PUT /api/config` ends in one of these outcomes. -/
theorem configStep_of_putConfig {io : SaveIo} {body : CString} {res : Option Reply}
    (hm : w.nm.mutexHeld = false)
    (h : (handlePutConfig env { Host.ok with save := io } body).run w = .ok (res, w')) :
    ConfigStep env w (.putConfig io body) (decide (res.map Reply.status = some httpOk)) w' := by
  rw [handlePutConfig] at h
  split at h
  · rename_i hnone
    obtain ⟨rfl, rfl⟩ := ok_of_run_return h
    refine .failed fun haccepted => ?_
    cases haccepted with
    | renames hparse => cases hnone.symm.trans hparse
  · rename_i root hparse
    split at h
    · rename_i hnone
      obtain ⟨rfl, rfl⟩ := ok_of_run_return h
      refine .failed fun haccepted => ?_
      cases haccepted with
      | renames hparse' hns =>
          obtain rfl := Option.some.inj (hparse.symm.trans hparse')
          cases hnone.symm.trans hns
    · rename_i ns hns
      rw [run_bind_ok (putNamespaceUri_run env io ns hm)] at h
      -- The namespace is stored and saved before the answer is printed.
      obtain ⟨rfl, rfl⟩ := ok_of_run_sendUnchecked env h
      exact .changed _ (.renamed hparse hns) hm rfl rfl

/-- **Every operation on the configuration** ends in one of these outcomes. -/
theorem configStep_of_run (hm : w.nm.mutexHeld = false) (hop : op.changesConfig = true)
    (h : (performConfig env op).run w = .ok (ok, w')) : ConfigStep env w op ok w' := by
  cases op with
  | putConfig io body =>
      obtain ⟨r, w₁, hrun, hret⟩ := ok_of_run_bind h
      obtain ⟨rfl, rfl⟩ := ok_of_run_return hret
      exact configStep_of_putConfig hm hrun
  | node o =>
      obtain ⟨rc, w₁, hrun, hret⟩ := ok_of_run_bind h
      obtain ⟨rfl, rfl⟩ := ok_of_run_return hret
      -- Both kinds of additions, in one argument.
      have hadd : ∀ host d, o.adds = some (host, d) →
          ConfigStep env w (.node o) (decide (rc = .good)) w' := by
        intro host d hadds
        obtain ⟨rc', w₂, hrun', hadded⟩ := step_adds env.cjson hadds hm
        rw [hrun, Except.ok.injEq, Prod.mk.injEq] at hrun'
        obtain ⟨rfl, rfl⟩ := hrun'
        exact configStep_of_added hadds hm hadded
      cases o with
      | addFolder host parent b display => exact hadd _ _ rfl
      | addVariable host parent b display dt sim => exact hadd _ _ rfl
      | delete host b =>
          obtain ⟨rc', w₂, hrun', hdeleted, -⟩ := nodeManagerDelete_run env.cjson host b hm
          have hsame := hrun.symm.trans hrun'
          rw [Except.ok.injEq, Prod.mk.injEq] at hsame
          obtain ⟨rfl, rfl⟩ := hsame
          exact configStep_of_deleted hm hdeleted
      | _ => cases hop

/-- A step, read off the step function. -/
theorem configStep_of_step (hm : w.nm.mutexHeld = false) (hop : op.changesConfig = true)
    (h : stepConfigOp env w op = some w') : ∃ ok, (performConfig env op).run w = .ok (ok, w') ∧
      ConfigStep env w op ok w' := by
  simp only [stepConfigOp] at h
  split at h
  · rename_i ok w₁ hrun
    obtain rfl := Option.some.inj h
    exact ⟨ok, hrun, configStep_of_run hm hop hrun⟩
  · cases h

/-- The mutex is free after every outcome. -/
theorem ConfigStep.mutex (h : ConfigStep env w op ok w') (hm : w.nm.mutexHeld = false) :
    w'.nm.mutexHeld = false := by
  cases h with
  | failed _ => exact hm
  | changed _ _ hmutex => exact hmutex
  | overflowed _ _ _ _ hmutex => exact hmutex

/-- Along every run, the mutex is free between two operations. -/
theorem mutex_always {ops : List ConfigOp} (hops : ∀ op ∈ ops, op.changesConfig = true)
    (hm : w.nm.mutexHeld = false) :
    Always (stepConfigOp env) (fun w => w.nm.mutexHeld = false) w ops :=
  always_of_step (I := fun w => w.nm.mutexHeld = false) (fun op => op.changesConfig = true)
    (fun _ _ _ hop hm hstep => (configStep_of_step hm hop hstep).elim fun _ h => h.2.mutex hm)
    (fun _ hm => hm) hops hm

/-! ### The round trip along a run -/

/-- The operation does not delete the last definition. -/
def KeepsOne (w : World) (op : ConfigOp) : Prop :=
  ∀ o host b idx, op = .node o → Deletes w o host b idx → 1 < w.nm.config.nodes.length

/-- A configuration that loses its last definition is left without any. -/
theorem removeAt_ne_nil {b : CString} {idx : Nat}
    (hidx : nodeManagerFindNodeIndex w.nm b = some idx) :
    (w.nm.config.removeAt idx).nodes ≠ [] ↔ 1 < w.nm.config.nodes.length := by
  obtain ⟨hlt, -⟩ := List.findIdx?_eq_some_iff_getElem.mp hidx
  rw [ServerConfig.removeAt_nodes, ← List.length_pos_iff, List.length_eraseIdx_of_lt hlt]
  omega

/-- **One step.** A configuration with definitions keeps one exactly when the step does not
delete the last. -/
theorem ConfigStep.ne_nil_iff (h : ConfigStep env w op ok w') (hne : w.nm.config.nodes ≠ []) :
    w'.nm.config.nodes ≠ [] ↔ KeepsOne w op := by
  cases h with
  | failed hrefused =>
      refine iff_of_true hne ?_
      rintro o host b idx rfl hdel
      exact absurd (.deletes hdel) hrefused
  | changed _ hchange _ hconfig =>
      rw [hconfig]
      cases hchange with
      | added hcreates hroom =>
          refine iff_of_true ?_ ?_
          · rw [ServerConfig.push_nodes]
            exact List.append_ne_nil_of_right_ne_nil _ (List.cons_ne_nil _ _)
          · rintro o host b idx hop hdel
            obtain rfl := ConfigOp.node.inj hop
            cases hcreates.adds.symm.trans (congrArg Op.adds hdel.op)
      | removed hdel =>
          rw [removeAt_ne_nil hdel.index]
          constructor
          · exact fun hmany _ _ _ _ _ _ => hmany
          · exact fun hkeeps => hkeeps _ _ _ _ rfl hdel
      | renamed => exact iff_of_true hne fun _ _ _ _ hop => nomatch hop
  -- A full configuration is left as it is.
  | overflowed _ hop hcreates hfull _ hconfig =>
      refine iff_of_true (hconfig ▸ hne) ?_
      rintro o host b idx hop' hdel
      obtain rfl := ConfigOp.node.inj (hop.symm.trans hop')
      cases hcreates.adds.symm.trans (congrArg Op.adds hdel.op)

/-- The configuration of a server that was started from a load has definitions. -/
theorem load_ne_nil {cjson : CJson} {io : LoadIo} {file file' : Option CString}
    (hload : serverConfigLoad cjson io file = (some cfg, file')) : cfg.nodes ≠ [] := by
  -- Without a file the defaults are taken. A file without definitions gets them as well.
  have hseed : ∀ f : Option CString, (some serverConfigSeedDefaults, f) = (some cfg, file') →
      cfg.nodes ≠ [] := by
    intro f heq
    obtain rfl := Option.some.inj (Prod.mk.inj heq).1
    exact nodes_defaults_ne_nil
  rw [serverConfigLoad.eq_def] at hload
  split at hload
  · exact hseed _ hload
  · split at hload
    · exact hseed _ hload
    · split at hload
      · cases hload
      · split at hload
        · cases hload
        · split at hload
          · cases hload
          · obtain rfl := Option.some.inj (Prod.mk.inj hload).1
            exact configOfJson_ne_nil _

/-- **The extent of the round trip.** From any configuration that was loaded, along any run of
additions, deletions and changes of the namespace, the configuration is read back in every
state exactly when no step deletes the last definition. -/
theorem readsBack_iff {io : LoadIo} {file₀ file : Option CString} {host : Host} {nsIdx : Nat}
    (hload : serverConfigLoad env.cjson io file₀ = (some cfg, file))
    (hstart : start host nsIdx cfg file = some w) {ops : List ConfigOp}
    (hops : ∀ op ∈ ops, op.changesConfig = true)
    (hcjson : Always (stepConfigOp env) (fun w => RoundTrips env.cjson w.nm.config) w ops) :
    Always (stepConfigOp env) (fun w => ReadsBack env.cjson w.nm.config) w ops ↔
      Each (stepConfigOp env) KeepsOne w ops := by
  have hfree : w.nm.mutexHeld = false := (start_sound hstart).mutex
  have hne : w.nm.config.nodes ≠ [] := (start_config hstart).symm ▸ load_ne_nil hload
  rw [always_congr (R := fun w => w.nm.config.nodes ≠ []) hcjson
    fun _ h => readsBack_iff_ne_nil h]
  refine always_iff_each (I := fun w => w.nm.mutexHeld = false)
    (fun op => op.changesConfig = true) ?_ ?_ hops hfree hne
  · intro w op w' hop hm hne hkeeps hstep
    obtain ⟨ok, -, h⟩ := configStep_of_step hm hop hstep
    exact ⟨h.mutex hm, (h.ne_nil_iff hne).mpr hkeeps⟩
  · intro w op w' hop hm hne hnot hstep hne'
    obtain ⟨ok, -, h⟩ := configStep_of_step hm hop hstep
    exact hnot ((h.ne_nil_iff hne).mp hne')

/-! ### Runs of a small plant -/

/-- A configuration of two folders. -/
def plant (ns : String) : ServerConfig :=
  addNode (addNode { emptyConfig with namespaceUri := snprintf serverNamespaceMax ns.toList }
    serverNodeKindFolder "Hall".toList "Hall".toList [] .boolean false [])
    serverNodeKindFolder "Yard".toList "Yard".toList [] .boolean false []

/-- The body of a `PUT /api/config`. -/
def namespaceDoc (ns : String) : Json :=
  .object [("namespaceUri".toList, .string ns.toList)]

/-- The configurations of the runs below. -/
def plantConfigs : List ServerConfig :=
  [plant "urn:plant", (plant "urn:plant").removeAt 0, ((plant "urn:plant").removeAt 0).removeAt 0,
    plant "urn:works",
    addNode (plant "urn:works") serverNodeKindFolder "Line1".toList "Line1".toList "Hall".toList
      .boolean false []]

/-- The documents of the runs below. -/
def plantDocs : List Json := plantConfigs.map configToJson ++ [namespaceDoc "urn:works"]

/-- An environment whose cJSON reads these documents. -/
def plantEnv : HttpEnv := { HttpEnv.knowing .null with cjson := .knowingEach plantDocs }

/-- The file of the plant. -/
def plantFile : Option CString := some ((configToJson (plant "urn:plant")).text 0)

/-- The addition of `Line1` below `Hall`. -/
def addLine (io : SaveIo) : ConfigOp :=
  .node (.addFolder { Host.ok with save := io } (some "Hall".toList) "Line1".toList
    "Line1".toList)

/-- The deletion of a node, with every library call succeeding. -/
def deleteNode (b : String) : ConfigOp := .node (.delete .ok b.toList)

/-- The change of the namespace to `urn:works`. -/
def putWorks : ConfigOp := .putConfig .ok ((namespaceDoc "urn:works").text 0)

theorem nodup_plantDocs : (plantDocs.map (Json.text 0)).Nodup := by
  decide +kernel

/-- The configurations of these runs are read back. -/
theorem roundTrips_plant {cfg : ServerConfig} (h : cfg ∈ plantConfigs) :
    RoundTrips plantEnv.cjson cfg :=
  roundTrips_knowingEach nodup_plantDocs
    (List.mem_append_left _ (List.mem_map_of_mem h))

/-- A run through these configurations. -/
theorem roundTrips_always_plant {w : World} {ops : List ConfigOp}
    (h : alwaysb (stepConfigOp plantEnv) (fun w => w.nm.config ∈ plantConfigs) w ops = true) :
    Always (stepConfigOp plantEnv) (fun w => RoundTrips plantEnv.cjson w.nm.config) w ops :=
  always_of_alwaysb (fun _ hw => roundTrips_plant (of_decide_eq_true hw)) h

/-- The plant is loaded from its file. -/
theorem load_plant : serverConfigLoad plantEnv.cjson .ok plantFile
    = (some (plant "urn:plant"), plantFile) := by
  decide +kernel

/-- The namespace of the plant is changed, a line is added and deleted again: in every state the
configuration is read back. -/
theorem readsBack_plant : ∃ w, start .ok 1 (plant "urn:plant") plantFile = some w ∧
    Always (stepConfigOp plantEnv) (fun w => ReadsBack plantEnv.cjson w.nm.config) w
      [putWorks, addLine .ok, deleteNode "Line1"] := by
  have hcheck : ((start .ok 1 (plant "urn:plant") plantFile).any fun w =>
      alwaysb (stepConfigOp plantEnv) (fun w => w.nm.config ∈ plantConfigs) w
        [putWorks, addLine .ok, deleteNode "Line1"] &&
      eachb (stepConfigOp plantEnv) (fun w _ => 1 < w.nm.config.nodes.length) w
        [putWorks, addLine .ok, deleteNode "Line1"]) = true := by
    decide
  obtain ⟨w, hw, hcheck⟩ := (Option.any_eq_true _ _).mp hcheck
  rw [Bool.and_eq_true] at hcheck
  have hops : ∀ op ∈ [putWorks, addLine .ok, deleteNode "Line1"], op.changesConfig = true := by
    decide
  refine ⟨w, hw, (readsBack_iff load_plant hw hops (roundTrips_always_plant hcheck.1)).mpr ?_⟩
  -- With more than one definition no step deletes the last.
  have hmany : ∀ (w : World) (op : ConfigOp), decide (1 < w.nm.config.nodes.length) = true →
      KeepsOne w op := fun _ _ hlt _ _ _ _ _ _ => of_decide_eq_true hlt
  exact each_of_eachb hmany hcheck.2

/-- Both folders of the plant are deleted. The empty list that is saved is read as the seven
default definitions, with the default namespace. -/
theorem not_readsBack_emptied : ∃ w, start .ok 1 (plant "urn:plant") plantFile = some w ∧
    Always (stepConfigOp plantEnv) (fun w => RoundTrips plantEnv.cjson w.nm.config) w
      [deleteNode "Hall", deleteNode "Yard"] ∧
    ¬ Always (stepConfigOp plantEnv) (fun w => ReadsBack plantEnv.cjson w.nm.config) w
      [deleteNode "Hall", deleteNode "Yard"] := by
  -- After the two deletions the list is empty.
  have hcheck : ((start .ok 1 (plant "urn:plant") plantFile).any fun w =>
      alwaysb (stepConfigOp plantEnv) (fun w => w.nm.config ∈ plantConfigs) w
        [deleteNode "Hall", deleteNode "Yard"] &&
      (run (stepConfigOp plantEnv) w [deleteNode "Hall", deleteNode "Yard"]).any fun w' =>
        w'.nm.config.nodes = []) = true := by
    decide
  obtain ⟨w, hw, hcheck⟩ := (Option.any_eq_true _ _).mp hcheck
  rw [Bool.and_eq_true] at hcheck
  obtain ⟨w', hrun, hnil⟩ := (Option.any_eq_true _ _).mp hcheck.2
  have hround := roundTrips_always_plant hcheck.1
  refine ⟨w, hw, hround, fun hback => ?_⟩
  exact (readsBack_iff_ne_nil (hround.last hrun)).mp (hback.last hrun) (of_decide_eq_true hnil)

end SmartFactory.Server
