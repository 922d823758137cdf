import SmartFactory.Proofs.Creation

/-!
# `SmartFactory.Proofs.Operations`: what the operations on the address space do

One theorem per locked operation that adds or deletes a node. Each says that the
operation runs without a fault when the mutex is free, leaves the mutex free, and what it
did: `Added` and `Deleted` list the possible outcomes with their reasons.
-/

set_option autoImplicit false

namespace SmartFactory.Server

/-! ### The mutex and the unlocked helpers -/

@[simp] theorem setMutex_setMutex (w : World) (a b : Bool) :
    (w.setMutex a).setMutex b = w.setMutex b := rfl

/-- Releasing a free mutex changes nothing. -/
theorem setMutex_of_eq {w : World} {b : Bool} (h : w.nm.mutexHeld = b) : w.setMutex b = w := by
  subst h
  rfl

/-- A sequence continues in the world that its first part leaves. -/
theorem run_bind_ok {α β : Type} {x : M α} {f : α → M β} {w w' : World} {a : α}
    (h : x.run w = .ok (a, w')) : (x >>= f).run w = (f a).run w' := by
  rw [StateT.run_bind, h]
  rfl

/-- A fault of the first part is a fault of the sequence. -/
theorem run_bind_error {α β : Type} {x : M α} {f : α → M β} {w : World} {e : Fault}
    (h : x.run w = .error e) : (x >>= f).run w = .error e := by
  rw [StateT.run_bind, h]
  rfl

section
variable {σ α β : Type} {x : StateT σ (Except Fault) α} {f : α → StateT σ (Except Fault) β}

/-- The parts of a sequence that ran through. -/
theorem ok_of_run_bind {s s' : σ} {b : β} (h : (x >>= f).run s = .ok (b, s')) :
    ∃ a s₁, x.run s = .ok (a, s₁) ∧ (f a).run s₁ = .ok (b, s') := by
  rw [StateT.run_bind] at h
  cases hx : x.run s with
  | error e =>
      rw [hx] at h
      cases h
  | ok r =>
      rw [hx] at h
      exact ⟨r.1, r.2, rfl, h⟩

/-- Returning a value leaves the state as it is. -/
theorem ok_of_run_return {a b : α} {s s' : σ}
    (h : (pure a : StateT σ (Except Fault) α).run s = .ok (b, s')) : b = a ∧ s' = s := by
  cases h
  exact ⟨rfl, rfl⟩

/-- A run has one result. -/
theorem run_unique {a b : α} {s s₁ s₂ : σ} (h₁ : x.run s = .ok (a, s₁))
    (h₂ : x.run s = .ok (b, s₂)) : a = b ∧ s₁ = s₂ :=
  Prod.mk.inj (Except.ok.inj (h₁.symm.trans h₂))

end

/-- Reading the world and going on. -/
@[simp] theorem run_get_bind {β : Type} (f : World → M β) (w : World) :
    (get >>= f).run w = (f w).run w := rfl

/-- Changing the world and going on. -/
@[simp] theorem run_modify_bind {β : Type} (g : World → World) (f : Unit → M β) (w : World) :
    (modify g >>= f).run w = (f ()).run (g w) := rfl

/-- Changing the world with a result and going on. -/
@[simp] theorem run_modifyGet_bind {α β : Type} (g : World → α × World) (f : α → M β)
    (w : World) : (modifyGet g >>= f).run w = (f (g w).1).run (g w).2 := rfl

/-- A computation without a state, and going on. -/
theorem run_lift_bind {α β : Type} (x : Except Fault α) (f : α → M β) (w : World) :
    ((liftM x : M α) >>= f).run w = x >>= fun a => (f a).run w := by
  cases x <;> rfl

/-- A value without a fault, and going on. -/
theorem run_ok_bind {α β : Type} (a : α) (f : α → M β) (w : World) :
    ((liftM (Except.ok a : Except Fault α) : M α) >>= f).run w = (f a).run w := rfl

/-- Releasing the mutex and going on. -/
@[simp] theorem run_unlock_bind {β : Type} (f : Unit → M β) (w : World) :
    (unlock >>= f).run w = (f ()).run (w.setMutex false) := rfl

/-- The end of an operation. -/
@[simp] theorem run_return {α : Type} (a : α) (w : World) :
    (pure a : M α).run w = .ok (a, w) := rfl

/-- Taking a free mutex succeeds. -/
theorem lock_run {w : World} (h : w.nm.mutexHeld = false) :
    lock.run w = .ok ((), w.setMutex true) := by
  simp only [lock, run_get_bind, h, Bool.false_eq_true, if_false]
  rfl

/-- Growing the array does not depend on the mutex. -/
theorem growSensors_setMutex (host : Host) (w : World) (name : CString) (b : Bool) :
    (w.setMutex b).growSensors host name
      = (w.growSensors host name).map (fun w => w.setMutex b) := by
  simp only [World.growSensors]
  split
  -- The comparison does not look at the mutex, and neither does `realloc`.
  · rename_i hfull
    have hfull' : w.nm.sensors.length ≥ w.nm.sensorCapacity := hfull
    rw [if_pos hfull']
    cases host.realloc name <;> rfl
  · rename_i hroom
    have hroom' : ¬ w.nm.sensors.length ≥ w.nm.sensorCapacity := hroom
    rw [if_neg hroom']
    rfl

/-- Creating a node does not depend on the mutex. -/
theorem createNode_setMutex (host : Host) (d : ServerNodeDef) (w : World) (b : Bool) :
    createNode host d (w.setMutex b)
      = ((createNode host d w).1, (createNode host d w).2.setMutex b) := by
  -- The part of `create_variable` after the server took the node.
  have hconnect : ∀ (id : NodeId) (w : World),
      connectVariable host d id (w.setMutex b) = (connectVariable host d id w).setMutex b := by
    intro id w
    simp only [connectVariable]
    split
    · rfl
    · split
      · simp only [addSimulatedSensor, growSensors_setMutex]
        cases w.growSensors host d.browseName.chars <;> rfl
      · rfl
  simp only [createNode]
  split
  · show createFolder host d (w.setMutex b) = _
    simp only [createFolder]
    show (if (w.space.addNode _ (w.folderNode d)).2 = .good then _ else _) = _
    split <;> rfl
  · simp only [createVariable]
    show (if (w.space.addNode _ (w.variableNode d)).2 ≠ .good then _ else _) = _
    split
    · rfl
    · show (StatusCode.good, connectVariable host d _ (World.setMutex
        ({ w with space := _ }.mapAdd d.browseName.chars (w.nodeIdOf d.browseName.chars)) b)) = _
      rw [hconnect]
      rfl

variable (cjson : CJson)

/-- Appending and saving do not depend on the mutex. -/
theorem appendAndSave_setMutex (io : SaveIo) (d : ServerNodeDef) (w : World) (b : Bool) :
    appendAndSave cjson io d (w.setMutex b) = (appendAndSave cjson io d w).setMutex b := by
  simp only [appendAndSave]
  show (if h : w.nm.config.nodes.length < serverMaxNodes then _ else _) = _
  split <;> rfl

/-! ### Adding -/

/-- The outcomes of an operation that adds the node of `d`. `checks` are the tests that the
operation makes before it takes the mutex. -/
inductive Added (host : Host) (d : ServerNodeDef) (checks : Prop) (w : World) :
    StatusCode → World → Prop where
  /-- A check failed, or the server refused the node. -/
  | refused (rc : StatusCode) (hrc : rc ≠ .good)
      (hreason : ¬ checks ∨ w.space.find (w.nodeIdOf d.browseName.chars) ≠ none ∨
        host.refuse d.browseName.chars ≠ none) : Added host d checks w rc w
  /-- The node was created, and its definition was appended unless there was no room. -/
  | added (w₁ : World) (hchecks : checks) (hcreated : Created host d w w₁) :
      Added host d checks w .good (appendAndSave cjson host.save d w₁)

/-- The body that both adding operations run once their checks passed. -/
def addBody (host : Host) (d : ServerNodeDef) : M StatusCode := do
  lock
  let rc ← modifyGet (createNode host d)
  if rc = .good then modify (appendAndSave cjson host.save d)
  unlock
  return rc

/-- What an addition that reports `good` leaves behind, as it was computed. -/
def AddedWorld (host : Host) (d : ServerNodeDef) (w : World) (rc : StatusCode) (w' : World) :
    Prop :=
  rc = .good → (createNode host d w).1 = .good ∧
    w' = appendAndSave cjson host.save d (createNode host d w).2

/-- The body runs without a fault and leaves the mutex free. -/
theorem addBody_run (host : Host) {d : ServerNodeDef} {w : World} {checks : Prop}
    (hd : d.isNode = true) (hm : w.nm.mutexHeld = false) (hchecks : checks) :
    ∃ rc w', (addBody cjson host d).run w = .ok (rc, w') ∧
      Added cjson host d checks w rc w' ∧ w'.nm.mutexHeld = false ∧
      AddedWorld cjson host d w rc w' := by
  rcases createNode_cases host w hd with ⟨hgood, hcreated⟩ | ⟨hreason, hbad, hsame⟩
  -- Created under the lock: the mutex is moved outwards over the body, then released.
  · have hfree : (appendAndSave cjson host.save d (createNode host d w).2).nm.mutexHeld
        = false := by
      have hcfree := hcreated.mutexHeld.trans hm
      simp only [appendAndSave]
      split <;> exact hcfree
    refine ⟨.good, _, ?_, Added.added _ hchecks hcreated, hfree, fun _ => ⟨hgood, rfl⟩⟩
    rw [addBody, run_bind_ok (lock_run hm), run_modifyGet_bind, createNode_setMutex, hgood,
      if_pos rfl, run_modify_bind, run_unlock_bind, run_return, appendAndSave_setMutex,
      setMutex_setMutex, setMutex_of_eq hfree]
  -- Refused: the world under the lock is dropped again.
  · refine ⟨_, w, ?_, Added.refused _ hbad (Or.inr hreason), hm, fun hgood => absurd hgood hbad⟩
    rw [addBody, run_bind_ok (lock_run hm), run_modifyGet_bind, createNode_setMutex, hsame,
      if_neg hbad, run_unlock_bind, run_return, setMutex_setMutex, setMutex_of_eq hm]

/-- The checks of `node_manager_add_folder`. -/
def FolderChecks (w : World) (browseName : CString) : Prop :=
  serverConfigValidateBrowseName browseName = true ∧
    configHasBrowse w.nm.config browseName = false

/-- The checks of `node_manager_add_variable`. -/
def VariableChecks (w : World) (browseName : CString) (dataType : ServerDataType)
    (simulation : Bool) : Prop :=
  serverConfigValidateBrowseName browseName = true ∧
    configHasBrowse w.nm.config browseName = false ∧
    (simulation = true → dataType = .boolean)

@[simp] theorem isFolder_folderDef (parent : Option CString) (b display : CString) :
    (folderDef parent b display).isFolder = true := by
  simp only [folderDef, ServerNodeDef.isFolder, snprintf_chars]
  decide

@[simp] theorem isFolder_variableDef (parent : Option CString) (b display : CString)
    (dt : ServerDataType) (sim : Bool) :
    (variableDef parent b display dt sim).isFolder = false := by
  simp only [variableDef, ServerNodeDef.isFolder, snprintf_chars]
  decide

@[simp] theorem isVariable_variableDef (parent : Option CString) (b display : CString)
    (dt : ServerDataType) (sim : Bool) :
    (variableDef parent b display dt sim).isVariable = true := by
  simp only [variableDef, ServerNodeDef.isVariable, snprintf_chars]
  decide

/-- For a folder, the common creation is `create_folder`. -/
theorem createNode_of_isFolder {host : Host} {d : ServerNodeDef} (h : d.isFolder = true) :
    createNode host d = createFolder host d := by
  funext w
  rw [createNode, if_pos h]

/-- For any other definition, it is `create_variable`. -/
theorem createNode_of_not_isFolder {host : Host} {d : ServerNodeDef}
    (h : d.isFolder = false) : createNode host d = createVariable host d := by
  funext w
  rw [createNode, h, if_neg Bool.false_ne_true]

/-- The folder operation is the common body behind its checks. -/
theorem nodeManagerAddFolder_run (host : Host) (parent : Option CString)
    (b display : CString) {w : World} (hm : w.nm.mutexHeld = false) :
    ∃ rc w', (nodeManagerAddFolder cjson host parent b display).run w = .ok (rc, w') ∧
      Added cjson host (folderDef parent b display) (FolderChecks w b) w rc w' ∧
      w'.nm.mutexHeld = false ∧
      AddedWorld cjson host (folderDef parent b display) w rc w' := by
  cases hv : serverConfigValidateBrowseName b with
  | false =>
      -- The name is refused before the mutex is taken.
      refine ⟨.badInvalidArgument, w, ?_, Added.refused _ nofun (Or.inl ?_), hm, nofun⟩
      · simp only [nodeManagerAddFolder, hv, Bool.not_false, if_true]
        rfl
      · intro hchecks
        cases hv.symm.trans hchecks.1
  | true =>
      cases hb : configHasBrowse w.nm.config b with
      | true =>
          refine ⟨.badNodeIdExists, w, ?_, Added.refused _ nofun (Or.inl ?_), hm, nofun⟩
          · simp only [nodeManagerAddFolder, hv, Bool.not_true, Bool.false_eq_true, if_false]
            rw [run_get_bind, if_pos hb]
            rfl
          · intro hchecks
            cases hb.symm.trans hchecks.2
      | false =>
          obtain ⟨rc, w', hrun, hadded⟩ := addBody_run cjson host
            (d := folderDef parent b display)
            (by simp [ServerNodeDef.isNode]) hm
            (show FolderChecks w b from ⟨hv, hb⟩)
          refine ⟨rc, w', ?_, hadded⟩
          rw [← hrun]
          simp only [nodeManagerAddFolder, hv, Bool.not_true, Bool.false_eq_true, if_false]
          rw [run_get_bind, hb]
          simp only [Bool.false_eq_true, if_false, addBody,
            createNode_of_isFolder (isFolder_folderDef parent b display)]

/-- The variable operation is the common body behind its checks. -/
theorem nodeManagerAddVariable_run (host : Host) (parent : Option CString)
    (b display : CString) (dt : ServerDataType) (sim : Bool) {w : World}
    (hm : w.nm.mutexHeld = false) :
    ∃ rc w', (nodeManagerAddVariable cjson host parent b display dt sim).run w
        = .ok (rc, w') ∧
      Added cjson host (variableDef parent b display dt sim) (VariableChecks w b dt sim)
        w rc w' ∧
      w'.nm.mutexHeld = false ∧
      AddedWorld cjson host (variableDef parent b display dt sim) w rc w' := by
  cases hv : serverConfigValidateBrowseName b with
  | false =>
      refine ⟨.badInvalidArgument, w, ?_, Added.refused _ nofun (Or.inl ?_), hm, nofun⟩
      · simp only [nodeManagerAddVariable, hv, Bool.not_false, if_true]
        rfl
      · intro hchecks
        cases hv.symm.trans hchecks.1
  | true =>
      cases hb : configHasBrowse w.nm.config b with
      | true =>
          refine ⟨.badNodeIdExists, w, ?_, Added.refused _ nofun (Or.inl ?_), hm, nofun⟩
          · simp only [nodeManagerAddVariable, hv, Bool.not_true, Bool.false_eq_true, if_false]
            rw [run_get_bind, if_pos hb]
            rfl
          · intro hchecks
            cases hb.symm.trans hchecks.2.1
      | false =>
          by_cases hsim : (sim && decide (dt ≠ .boolean)) = true
          -- Only Boolean variables can be simulated.
          · refine ⟨.badInvalidArgument, w, ?_, Added.refused _ nofun (Or.inl ?_), hm, nofun⟩
            · simp only [nodeManagerAddVariable, hv, Bool.not_true, Bool.false_eq_true,
                if_false]
              rw [run_get_bind, hb, if_neg Bool.false_ne_true, if_pos hsim]
              rfl
            · intro hchecks
              simp only [Bool.and_eq_true, decide_eq_true_eq] at hsim
              exact hsim.2 (hchecks.2.2 hsim.1)
          · obtain ⟨rc, w', hrun, hadded⟩ := addBody_run cjson host
              (d := variableDef parent b display dt sim)
              (by simp [ServerNodeDef.isNode]) hm
              (show VariableChecks w b dt sim from ⟨hv, hb, fun hs => by
                by_contra hdt
                exact hsim (by simp [hs, hdt])⟩)
            refine ⟨rc, w', ?_, hadded⟩
            rw [← hrun]
            simp only [nodeManagerAddVariable, hv, Bool.not_true, Bool.false_eq_true,
              if_false]
            rw [run_get_bind, hb, if_neg Bool.false_ne_true, if_neg hsim]
            simp only [addBody,
              createNode_of_not_isFolder (isFolder_variableDef parent b display dt sim)]

/-- A variable that is added is simulated when it is a Boolean with simulation. -/
theorem isSimulated_variableDef (parent : Option CString) (b display : CString)
    (dt : ServerDataType) (sim : Bool) :
    (variableDef parent b display dt sim).isSimulated = (decide (dt = .boolean) && sim) := by
  rw [ServerNodeDef.isSimulated, isVariable_variableDef]
  rfl

/-! ### Deleting -/

/-- The outcomes of `node_manager_delete`. -/
inductive Deleted (host : Host) (b : CString) (w : World) : StatusCode → World → Prop where
  | unknown (hnone : nodeManagerFindNodeIndex w.nm b = none) :
      Deleted host b w .badNodeIdUnknown w
  | denied (idx : Nat) (d : ServerNodeDef)
      (hidx : nodeManagerFindNodeIndex w.nm b = some idx)
      (hd : w.nm.config.nodes[idx]? = some d) (hswitch : d.isSimulationSwitch = true) :
      Deleted host b w .badUserAccessDenied w
  | children (hchildren : hasChildrenInConfig w.nm.config b = true) :
      Deleted host b w .badNotImplemented w
  | deleted (idx : Nat) (d : ServerNodeDef)
      (hidx : nodeManagerFindNodeIndex w.nm b = some idx)
      (hd : w.nm.config.nodes[idx]? = some d) (hname : d.browseName.chars = b)
      (hswitch : d.isSimulationSwitch = false)
      (hchildren : hasChildrenInConfig w.nm.config b = false) :
      Deleted host b w .good
        (removeFromConfig cjson host.save idx (removeSensor b (deleteFromServer b w)))

/-- The unlocked part of a deletion does not depend on the mutex. -/
theorem removal_setMutex (io : SaveIo) (idx : Nat) (b : CString) (w : World) (held : Bool) :
    removeFromConfig cjson io idx (removeSensor b (deleteFromServer b (w.setMutex held)))
      = (removeFromConfig cjson io idx (removeSensor b (deleteFromServer b w))).setMutex
          held := by
  have hserver : deleteFromServer b (w.setMutex held)
      = (deleteFromServer b w).setMutex held := by
    have hfind : (w.setMutex held).mapFind b = w.mapFind b := rfl
    unfold deleteFromServer
    rw [hfind]
    cases w.mapFind b with
    | none => rfl
    | some e => rfl
  rw [hserver]
  rfl

/-- The deletion from the server leaves the node manager as it is. -/
@[simp] theorem deleteFromServer_nm (b : CString) (w : World) :
    (deleteFromServer b w).nm = w.nm := by
  simp only [deleteFromServer]
  cases w.mapFind b <;> rfl

/-- `node_manager_delete` ends in one of its four outcomes. -/
theorem nodeManagerDelete_run (host : Host) (b : CString) {w : World}
    (hm : w.nm.mutexHeld = false) :
    ∃ rc w', (nodeManagerDelete cjson host b).run w = .ok (rc, w') ∧
      Deleted cjson host b w rc w' ∧ w'.nm.mutexHeld = false := by
  -- The three early returns release the mutex and change nothing else.
  have hback : (w.setMutex true).setMutex false = w :=
    (setMutex_setMutex w true false).trans (setMutex_of_eq hm)
  cases hidx : nodeManagerFindNodeIndex w.nm b with
  | none =>
      refine ⟨_, w, ?_, Deleted.unknown hidx, hm⟩
      have hidx' : nodeManagerFindNodeIndex (w.setMutex true).nm b = none := hidx
      rw [nodeManagerDelete, run_bind_ok (lock_run hm), run_get_bind]
      simp only [hidx']
      rw [run_unlock_bind, run_return, hback]
  | some idx =>
      have hidx' : nodeManagerFindNodeIndex (w.setMutex true).nm b = some idx := hidx
      -- The definition at that index has the name.
      have hfound := List.findIdx?_eq_some_iff_getElem.mp hidx
      obtain ⟨hlt, hbrowse, -⟩ := hfound
      have hd : w.nm.config.nodes[idx]? = some w.nm.config.nodes[idx] :=
        List.getElem?_eq_getElem hlt
      have hd' : (w.setMutex true).nm.config.nodes[idx]? = some w.nm.config.nodes[idx] := hd
      cases hswitch : (w.nm.config.nodes[idx]).isSimulationSwitch with
      | true =>
          refine ⟨_, w, ?_, Deleted.denied idx _ hidx hd hswitch, hm⟩
          rw [nodeManagerDelete, run_bind_ok (lock_run hm), run_get_bind]
          simp only [hidx']
          rw [run_get_bind, hd', Option.any_some, if_pos hswitch, run_unlock_bind,
            run_return, hback]
      | false =>
          cases hchildren : hasChildrenInConfig w.nm.config b with
          | true =>
              refine ⟨_, w, ?_, Deleted.children hchildren, hm⟩
              rw [nodeManagerDelete, run_bind_ok (lock_run hm), run_get_bind]
              simp only [hidx']
              rw [run_get_bind, hd', Option.any_some, hswitch, if_neg Bool.false_ne_true,
                if_pos (show hasChildrenInConfig (w.setMutex true).nm.config b = true from
                  hchildren), run_unlock_bind, run_return, hback]
          | false =>
              have hfree : (removeFromConfig cjson host.save idx
                  (removeSensor b (deleteFromServer b w))).nm.mutexHeld = false := by
                show (deleteFromServer b w).nm.mutexHeld = false
                rw [deleteFromServer_nm]
                exact hm
              refine ⟨_, _, ?_, Deleted.deleted idx _ hidx hd (by simpa using hbrowse) hswitch
                hchildren, hfree⟩
              rw [nodeManagerDelete, run_bind_ok (lock_run hm), run_get_bind]
              simp only [hidx']
              rw [run_get_bind, hd', Option.any_some, hswitch, if_neg Bool.false_ne_true,
                if_neg (show ¬ hasChildrenInConfig (w.setMutex true).nm.config b = true from
                  fun h => nomatch hchildren.symm.trans h),
                run_modify_bind, run_modify_bind, run_modify_bind, run_unlock_bind,
                run_return, removal_setMutex, setMutex_setMutex, setMutex_of_eq hfree]

end SmartFactory.Server
