import SmartFactory.Lib.Preservation
import SmartFactory.Proofs.Events

/-!
# `SmartFactory.Proofs.Typing`: every value has the type of its variable

A variable gets its data type when it is created, and its value changes for the rest of the run: by
clients, by the ticks of the simulation and by the callbacks that these writes start. `World.Typed`
says that the value has the data type all the same.

The proof goes along the text of the operations. Only `addNode`, `deleteNode` and `storeValue`
change the values, and `writeValue` compares the types before it stores
(`preserves_writeValue`).
-/

set_option autoImplicit false

namespace SmartFactory.Server

open Preservation
open Run (run)

/-! ### The address space -/

/-- The value of a variable is a scalar of the data type of the variable. -/
def UaNode.Typed (n : UaNode) : Prop :=
  ∀ v, n.vAttr = some v → ∃ x : Scalar, v.value = x ∧ x.dataType = v.dataType

/-- No id occurs twice, and every variable is typed. -/
structure AddressSpace.Typed (space : AddressSpace) : Prop where
  nodup : space.ids.Nodup
  node : ∀ n ∈ space, n.Typed

/-- The address space of the world is typed. -/
def World.Typed (w : World) : Prop := w.space.Typed

section
variable {space : AddressSpace}

/-- A typed node can be added, when the server takes it. -/
theorem AddressSpace.Typed.addNode (h : space.Typed) {n : UaNode} (hn : n.Typed)
    (refused : Option BadStatus) : (space.addNode refused n).1.Typed := by
  unfold AddressSpace.addNode
  split
  · exact h
  · exact h
  · rename_i hfind
    refine ⟨?_, fun m hm => ?_⟩
    · rw [AddressSpace.ids, List.map_append, List.nodup_append]
      refine ⟨h.nodup, List.nodup_singleton _, fun a ha b hb hab => ?_⟩
      obtain rfl := List.mem_singleton.mp hb
      exact AddressSpace.find_eq_none.mp hfind (hab ▸ ha)
    · rcases List.mem_append.mp hm with hm | hm
      · exact h.node m hm
      · obtain rfl := List.mem_singleton.mp hm
        exact hn

/-- Nodes can be deleted. -/
theorem AddressSpace.Typed.deleteNode (h : space.Typed) (id : NodeId) :
    (space.deleteNode id).Typed where
  nodup := h.nodup.sublist (List.filter_sublist.map _)
  node n hn := h.node n (List.mem_of_mem_filter hn)

/-- The attributes of one node are changed. -/
theorem AddressSpace.Typed.updateVariable (h : space.Typed) {id : NodeId}
    {f : UaVariable → UaVariable}
    (hf : ∀ n v, space.find id = some n → n.vAttr = some v →
      ∃ x : Scalar, (f v).value = x ∧ x.dataType = (f v).dataType) :
    (space.updateVariable id f).Typed where
  nodup := by
    rw [AddressSpace.ids_updateVariable]
    exact h.nodup
  node n hn v hv := by
    obtain ⟨m, hm, rfl⟩ := List.mem_map.mp hn
    split at hv
    · rename_i hid
      obtain ⟨u, hu, rfl⟩ := Option.map_eq_some_iff.mp hv
      exact hf m u (hid ▸ AddressSpace.find_of_mem h.nodup hm) hu
    · exact h.node m hm v hv

/-- A change of other attributes. -/
theorem AddressSpace.Typed.attributes (h : space.Typed) (id : NodeId)
    {f : UaVariable → UaVariable}
    (hf : ∀ v, (f v).value = v.value ∧ (f v).dataType = v.dataType) :
    (space.updateVariable id f).Typed :=
  h.updateVariable fun n v hn hv => by
    rw [(hf v).1, (hf v).2]
    exact h.node n (List.mem_of_find?_eq_some hn) v hv

end

/-! ### Writes -/

section
variable {w : World} {α : Type}

/-- A change that leaves the address space. -/
theorem preserves_change {g : World → World} (hg : ∀ w, (g w).space = w.space) :
    Preserves World.Typed (modify g : M Unit) :=
  preserves_modify fun w h => by
    rw [World.Typed, hg]
    exact h

/-- The mutex is no value. -/
theorem preserves_lock : Preserves World.Typed lock := by
  refine preserves_get_bind fun w _ => ?_
  split
  · exact Preserves.bind (preserves_throw _) fun _ => preserves_change fun _ => rfl
  · exact preserves_change fun _ => rfl

/-- Neither to take nor to release. -/
theorem preserves_unlock : Preserves World.Typed unlock := preserves_change fun _ => rfl

/-- An element of the sensors array is no node. -/
theorem updateSensor_space {w' : World} {ref : SensorRef} {f : SimulatedSensor → SimulatedSensor}
    (h : w.updateSensor ref f = .ok w') : w'.space = w.space := by
  rw [World.updateSensor] at h
  split at h
  · cases h
    rfl
  · cases h

/-- So the callback of a sensor changes no node. -/
theorem preserves_sensorWriteCallback (context : Option SensorRef) (v : Variant) :
    Preserves World.Typed (sensorWriteCallback context v) := by
  unfold sensorWriteCallback
  split
  · refine preserves_lock.bind fun _ => (preserves_lift _).bind fun b => ?_
    intro w a w' hw h
    rw [run_get_bind, run_lift_bind] at h
    obtain ⟨w₁, hupdate, hset⟩ := ok_of_bind h
    cases hset
    show w₁.space.Typed
    rw [updateSensor_space hupdate]
    exact hw
  · exact preserves_pure _

/-- The locked section of a switch changes elements of the array and the flag. -/
theorem preserves_switchSection (enabled : Bool) :
    Preserves World.Typed (switchSection enabled) := by
  refine preserves_lock.bind fun _ => ?_
  refine Preserves.bind (preserves_change fun _ => rfl) fun _ => ?_
  refine preserves_get_bind fun w _ => preserves_get_bind fun w _ => ?_
  refine (preserves_lift _).bind fun r => ?_
  exact Preserves.bind (preserves_change fun _ => rfl) fun _ =>
    preserves_unlock.bind fun _ => preserves_pure _

/-- Writes that keep the types can be made one after the other. -/
theorem preserves_writeAll {write : NodeId → Variant → M StatusCode}
    (hwrite : ∀ id (v : Scalar), Preserves World.Typed (write id v))
    (writes : List (NodeId × Bool)) :
    Preserves World.Typed (writeAll write writes) := by
  induction writes with
  | nil => exact preserves_pure _
  | cons p rest ih => exact (hwrite p.1 _).discard.bind fun _ => ih

/-- The callback of a switch makes such writes. -/
theorem preserves_simulationEnabledWriteCallback {write : NodeId → Variant → M StatusCode}
    (hwrite : ∀ id (v : Scalar), Preserves World.Typed (write id v)) (v : Variant) :
    Preserves World.Typed (simulationEnabledWriteCallback write v) := by
  unfold simulationEnabledWriteCallback
  split
  · exact preserves_pure _
  · exact preserves_lock.bind fun _ => preserves_throw _
  · refine (preserves_switchSection _).bind fun r => ?_
    obtain ⟨_, sensorIds⟩ := r
    dsimp only
    split
    · exact preserves_writeAll hwrite _
    · exact preserves_pure _

/-- The value of a write has passed the check. -/
theorem World.Typed.storeValue (h : w.Typed) {id : NodeId} {n : UaNode} {vAttr : UaVariable}
    {v : Scalar} (hn : w.space.find id = some n) (hv : n.vAttr = some vAttr)
    (hdt : v.dataType = vAttr.dataType) : (w.storeValue id v).Typed := by
  refine h.updateVariable fun m u hm hu => ?_
  obtain rfl := Option.some.inj (hn.symm.trans hm)
  obtain rfl := Option.some.inj (hv.symm.trans hu)
  exact ⟨v, rfl, hdt⟩

/-- **A write**, with the writes that its callbacks make. -/
theorem preserves_writeValue (depth : Nat) (id : NodeId) (v : Scalar) :
    Preserves World.Typed (writeValue depth id v) := by
  induction depth generalizing id v with
  | zero => exact preserves_throw _
  | succ depth ih =>
      intro w rc w' hw h
      rw [writeValue, run_get_bind] at h
      split at h
      · exact preserves_pure _ _ _ _ hw h
      · rename_i n hn
        split at h
        · exact preserves_pure _ _ _ _ hw h
        · rename_i vAttr hv
          split at h
          · exact preserves_pure _ _ _ _ hw h
          · rename_i htake
            -- The callback runs in the world with the new value.
            rw [run_modify_bind] at h
            have hstored := hw.storeValue hn hv (storable_scalar.mp (by simpa using htake))
            split at h
            · exact preserves_pure _ _ _ _ hstored h
            · exact (preserves_sensorWriteCallback _ _).bind (fun _ => preserves_pure _)
                _ _ _ hstored h
            · exact (preserves_simulationEnabledWriteCallback ih v).bind
                (fun _ => preserves_pure _) _ _ _ hstored h

/-- The locked section of a tick changes elements of the array. -/
theorem preserves_tickSection : Preserves World.Typed tickSection := by
  refine preserves_lock.bind fun _ => preserves_get_bind fun w _ => ?_
  split
  · exact preserves_unlock.bind fun _ => preserves_pure _
  · refine preserves_get_bind fun w _ => (preserves_lift _).bind fun r => ?_
    exact Preserves.bind (preserves_change fun _ => rfl) fun _ =>
      preserves_unlock.bind fun _ => preserves_pure _

/-- A tick is its section and its writes. -/
theorem preserves_tick : Preserves World.Typed nodeManagerRunSimulationTick :=
  preserves_tickSection.bind fun writes => preserves_writeAll (preserves_writeValue _) writes

/-- A switch over HTTP likewise. -/
theorem preserves_setSimulationEnabled (enabled : Bool) :
    Preserves World.Typed (nodeManagerSetSimulationEnabled enabled) := by
  refine (preserves_switchSection enabled).bind fun r => ?_
  obtain ⟨simulationNodeId, sensorIds⟩ := r
  dsimp only
  have hwrites : Preserves World.Typed
      (if !enabled then writeAll uaServerWriteValue (sensorIds.map (fun id => (id, false)))
        else pure () : M Unit) := by
    split
    · exact preserves_writeAll (preserves_writeValue _) _
    · exact preserves_pure _
  cases simulationNodeId with
  | none => exact hwrites
  | some node => exact Preserves.bind (preserves_writeValue _ _ _).discard fun _ => hwrites

/-- A reset changes flags only. -/
theorem preserves_resetOverrides : Preserves World.Typed nodeManagerResetOverrides :=
  preserves_lock.bind fun _ =>
    Preserves.bind (preserves_change fun _ => rfl) fun _ => preserves_unlock

/-! ### Nodes -/

/-- The value that a new variable gets. -/
theorem dataType_initialValue (t : ServerDataType) : (initialValue t).dataType = t := by
  cases t with
  | boolean => rfl
  | int32 => rfl
  | double => rfl
  | string => rfl

/-- A callback and a context are attributes next to the value. -/
theorem World.Typed.connectVariable (h : w.Typed) (host : Host) (d : ServerNodeDef) (id : NodeId) :
    (connectVariable host d id w).Typed := by
  have hset {space : AddressSpace} (h : space.Typed) (cb : ValueCallback) :
      (space.setValueCallback id cb).Typed := h.attributes id fun _ => ⟨rfl, rfl⟩
  unfold Server.connectVariable
  split
  · exact hset h _
  · split
    · split
      · rename_i w₁ hw₁
        obtain ⟨w₂, hgrown, rfl⟩ := Option.map_eq_some_iff.mp hw₁
        -- `realloc` does not touch the address space.
        have hspace : w₂.space = w.space := by
          unfold World.growSensors at hgrown
          split at hgrown
          · cases hhost : host.realloc d.browseName.chars with
            | inPlace | moved =>
                rw [hhost] at hgrown
                obtain rfl := Option.some.inj hgrown
                rfl
            | failed =>
                rw [hhost] at hgrown
                cases hgrown
          · obtain rfl := Option.some.inj hgrown
            rfl
        have hpushed : (w₂.pushSensor (newSensor d.browseName.chars id)).space.Typed := by
          show w₂.space.Typed
          rw [hspace]
          exact h
        have hcontext (ref : SensorRef) : ((w₂.pushSensor
            (newSensor d.browseName.chars id)).space.setNodeContext id ref).Typed :=
          hpushed.attributes id fun _ => ⟨rfl, rfl⟩
        exact hset (hcontext _) _
      · exact h
    · exact h

/-- A folder has no value. -/
theorem World.Typed.createFolder (h : w.Typed) (host : Host) (d : ServerNodeDef) :
    (createFolder host d w).2.Typed := by
  have hadded := AddressSpace.Typed.addNode h (n := w.folderNode d) nofun
    (host.refuse d.browseName.chars)
  unfold Server.createFolder
  dsimp only
  split
  · exact hadded
  · exact h

/-- A variable begins with the initial value of its type. -/
theorem World.Typed.createVariable (h : w.Typed) (host : Host) (d : ServerNodeDef) :
    (createVariable host d w).2.Typed := by
  have hnode : (w.variableNode d).Typed := by
    intro v hv
    obtain rfl := Option.some.inj hv
    exact ⟨initialValue d.dataType, rfl, dataType_initialValue d.dataType⟩
  have hadded := AddressSpace.Typed.addNode h hnode (host.refuse d.browseName.chars)
  unfold Server.createVariable
  dsimp only
  split
  · exact h
  · refine World.Typed.connectVariable ?_ host d _
    exact hadded

/-! ### Operations -/

variable (cjson : CJson)

/-- The configuration and the file are not in the address space. -/
theorem appendAndSave_space (io : SaveIo) (d : ServerNodeDef) (w : World) :
    (appendAndSave cjson io d w).space = w.space := by
  unfold appendAndSave
  split
  · rfl
  · rfl

/-- Adding a folder keeps the types. -/
theorem preserves_addFolder (host : Host) (parent : Option CString) (b display : CString) :
    Preserves World.Typed (nodeManagerAddFolder cjson host parent b display) := by
  unfold nodeManagerAddFolder
  split
  · exact preserves_pure _
  · refine preserves_get_bind fun w _ => ?_
    split
    · exact preserves_pure _
    · refine preserves_lock.bind fun _ => ?_
      refine Preserves.bind (preserves_modifyGet fun w h => h.createFolder host _) fun rc => ?_
      split
      · exact Preserves.bind (preserves_change fun w => appendAndSave_space cjson _ _ w) fun _ =>
          preserves_unlock.bind fun _ => preserves_pure _
      · exact preserves_unlock.bind fun _ => preserves_pure _

/-- So does adding a variable. -/
theorem preserves_addVariable (host : Host) (parent : Option CString) (b display : CString)
    (dataType : ServerDataType) (simulation : Bool) : Preserves World.Typed
      (nodeManagerAddVariable cjson host parent b display dataType simulation) := by
  unfold nodeManagerAddVariable
  split
  · exact preserves_pure _
  · refine preserves_get_bind fun w _ => ?_
    split
    · exact preserves_pure _
    · split
      · exact preserves_pure _
      · refine preserves_lock.bind fun _ => ?_
        refine Preserves.bind (preserves_modifyGet fun w h => h.createVariable host _) fun rc => ?_
        split
        · exact Preserves.bind (preserves_change fun w => appendAndSave_space cjson _ _ w) fun _ =>
            preserves_unlock.bind fun _ => preserves_pure _
        · exact preserves_unlock.bind fun _ => preserves_pure _

/-- A node that is deleted takes its value with it. -/
theorem World.Typed.deleteFromServer (h : w.Typed) (b : CString) :
    (deleteFromServer b w).Typed := by
  unfold Server.deleteFromServer
  split
  · exact AddressSpace.Typed.deleteNode h _
  · exact h

/-- Deleting a node keeps the types. -/
theorem preserves_delete (host : Host) (b : CString) :
    Preserves World.Typed (nodeManagerDelete cjson host b) := by
  refine preserves_lock.bind fun _ => preserves_get_bind fun w _ => ?_
  split
  · exact preserves_unlock.bind fun _ => preserves_pure _
  · refine preserves_get_bind fun w _ => ?_
    dsimp only
    split
    · exact preserves_unlock.bind fun _ => preserves_pure _
    · split
      · exact preserves_unlock.bind fun _ => preserves_pure _
      · refine Preserves.bind (preserves_modify fun w h => h.deleteFromServer b) fun _ => ?_
        refine Preserves.bind (preserves_change fun _ => rfl) fun _ => ?_
        exact Preserves.bind (preserves_change fun _ => rfl) fun _ =>
          preserves_unlock.bind fun _ => preserves_pure _

/-- **One operation** of the node manager keeps the types. -/
theorem preserves_perform (op : Op) : Preserves World.Typed (perform cjson op) := by
  cases op with
  | addFolder host parent b display => exact preserves_addFolder cjson host parent b display
  | addVariable host parent b display dataType simulation =>
      exact preserves_addVariable cjson host parent b display dataType simulation
  | delete host b => exact preserves_delete cjson host b
  | tick => exact preserves_tick.bind fun _ => preserves_pure _
  | setSimulationEnabled enabled =>
      exact (preserves_setSimulationEnabled enabled).bind fun _ => preserves_pure _
  | resetOverrides => exact preserves_resetOverrides.bind fun _ => preserves_pure _
  | clientWrite id v => exact preserves_writeValue _ id v

variable (env : HttpEnv)

/-- An answer keeps everything. -/
theorem preserves_sendUnchecked (host : Host) (doc : Json) :
    Preserves World.Typed (sendUnchecked env host doc) :=
  fun _ _ _ hw h => (ok_of_run_sendUnchecked env h).2 ▸ hw

/-- The namespace of the configuration is no value. -/
theorem preserves_handlePutConfig (host : Host) (body : CString) :
    Preserves World.Typed (handlePutConfig env host body) := by
  unfold handlePutConfig
  split
  · exact preserves_pure _
  · split
    · exact preserves_pure _
    · refine Preserves.bind ?_ fun _ => preserves_sendUnchecked env host _
      refine preserves_lock.bind fun _ => ?_
      refine Preserves.bind (preserves_change fun _ => rfl) fun _ => ?_
      exact Preserves.bind (preserves_change fun _ => rfl) fun _ => preserves_unlock

/-- **One operation** keeps the types. -/
theorem preserves_performConfig (op : ConfigOp) :
    Preserves World.Typed (performConfig env op) := by
  cases op with
  | node op => exact (preserves_perform env.cjson op).bind fun _ => preserves_pure _
  | putConfig io body =>
      exact (preserves_handlePutConfig env _ body).bind fun _ => preserves_pure _

end

/-! ### Runs -/

section
variable {w w' : World} {host : Host} {cfg : ServerConfig} {nsIdx : Nat} {file : Option CString}
variable {env : HttpEnv} {s : HttpServer}

/-- The build creates one node after the other. -/
theorem World.Typed.buildLoop (h : w.Typed) (host : Host) (ds : List ServerNodeDef) :
    (buildLoop host ds w).2.Typed := by
  induction ds generalizing w with
  | nil => exact h
  | cons d ds ih =>
      -- The loop stops at the first failure.
      have hnext {r : StatusCode × World} (hr : r.2.Typed) :
          (if r.1 ≠ .good then r else Server.buildLoop host ds r.2).2.Typed := by
        split
        · exact hr
        · exact ih hr
      unfold Server.buildLoop
      dsimp only
      split
      · exact hnext (h.createFolder host d)
      · split
        · exact hnext (h.createVariable host d)
        · exact ih h

/-- The server starts typed. -/
theorem typed_start (h : start host nsIdx cfg file = some w) : w.Typed := by
  have hempty : (nodeManagerCreate nsIdx cfg file).Typed := ⟨List.nodup_nil, nofun⟩
  have hbuilt := hempty.buildLoop host
    (sortNodesByDepth (nodeManagerCreate nsIdx cfg file).nm.config)
  unfold start at h
  split at h
  · rename_i w₁ hbuild
    obtain rfl := Option.some.inj h
    rw [nodeManagerBuild] at hbuild
    rw [hbuild] at hbuilt
    exact hbuilt
  · cases h

/-- **One step** keeps the types. -/
theorem World.Typed.operation (h : w.Typed) {op : ConfigOp} (hs : stepConfigOp env w op = some w') :
    w'.Typed := by
  unfold stepConfigOp at hs
  split at hs
  · rename_i b w₁ hrun
    obtain rfl := Option.some.inj hs
    exact preserves_performConfig env op _ b _ h hrun
  · cases hs

/-- **Every value is a scalar of the type of its variable**, in every state of a running server. -/
theorem typed_of_events {flag : Bool} {es : List Event}
    (hstart : start host nsIdx cfg file = some w)
    (hr : run (stepEvent env) ⟨w, flag⟩ es = some s) :
    s.world.space.ids.Nodup ∧ ∀ n ∈ s.world.space, ∀ v, n.vAttr = some v →
      ∃ x : Scalar, v.value = x ∧ x.dataType = v.dataType := by
  have hkeep : ∀ w op w', Sound w → w.Typed → stepConfigOp env w op = some w' → w'.Typed :=
    fun _ _ _ _ h hs => h.operation hs
  have htyped := (last_of_events hkeep (start_sound hstart) (typed_start hstart) hr).2
  exact ⟨htyped.nodup, htyped.node⟩

end

end SmartFactory.Server
