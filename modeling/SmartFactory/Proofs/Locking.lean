import SmartFactory.Proofs.SwitchPaths

/-!
# `SmartFactory.Proofs.Locking`: the mutex of the node manager

The mutex is not recursive, and the server calls back into code that locks it. In the model a second
`lock` is the fault `relock`, and callbacks that nest too deep are the fault `callbackDepth`.

No event comes to either fault, with any value that a client writes: every write to a node is made
with the mutex free, the callback of a switch writes to sensors only, and the callback of a sensor
writes to nothing. What is left are the faults of memory: the arrays on the stack, the contexts into
an earlier allocation of the sensors array, an empty array of Booleans, and an answer that was not
printed. `lockDiscipline_iff` says that an event returns with the mutex free exactly when it meets
none of them.
-/

set_option autoImplicit false

namespace SmartFactory.Server

open Run

/-! ### What an operation needs -/

/-- The arrays on the stack have room for what is copied, and the contexts that are followed are
current. -/
structure World.Ready (w : World) (copies : Nat) (targets : List NodeId) : Prop where
  room : copies ≤ serverMaxNodes
  current : ∀ id ∈ targets, w.Current id

/-- So it is for a write, and the callback finds an element where it reads one. -/
structure World.WriteReady (w : World) (id : NodeId) (v : Variant) : Prop
    extends w.Ready (w.writeCopies id v) (w.writeTargets id v) where
  readable : ∀ callback fault, w.callback id v ≠ some (callback, .error fault)

/-- What an operation of the node manager needs. A tick copies the sensors that are not
overridden, and a switch copies all of them. -/
def World.ReadyFor (w : World) : Op → Prop
  | .tick => w.Ready w.tickTargets.length w.tickTargets
  | .setSimulationEnabled enabled => w.Ready w.nm.sensors.length (w.switchTargets enabled)
  | .clientWrite id v => w.WriteReady id (.scalar v)
  | _ => True

/-- The operation passes its checks, or it is a switch, which has none. -/
inductive Succeeds (env : HttpEnv) (w : World) : ConfigOp → Prop
  | accepted {op : ConfigOp} (h : Accepted env w op) : Succeeds env w op
  | switch (enabled : Bool) : Succeeds env w (.node (.setSimulationEnabled enabled))

/-- What an operation of a request needs: its success can be answered. -/
structure ConfigOp.Ready (env : HttpEnv) (host : Host) (w : World) (op : ConfigOp) : Prop where
  node : ∀ o, op = .node o → w.ReadyFor o
  prints : Succeeds env w op → op.prints host = true

/-- What an event needs. -/
def AnyEvent.Ready (env : HttpEnv) (w : World) : AnyEvent → Prop
  | .event e => ∀ op ∈ e.operation env, op.Ready env e.host w
  | .clientWrite id v => w.WriteReady id v

/-- The run returns when it is `ready`, and otherwise it fails, but not at the mutex. -/
structure Settles (ready : Prop) (r : Except Fault World) : Prop where
  returns : ready → ∃ w', r = .ok w'
  fails : ¬ ready → ∃ fault, r = .error fault ∧ fault ≠ .relock ∧ fault ≠ .callbackDepth

variable {w w' : World}

/-- A run that needs nothing. -/
theorem settles_of_ok {ready : Prop} {r : Except Fault World} (hready : ready)
    (h : ∃ w', r = .ok w') : Settles ready r :=
  ⟨fun _ => h, fun hnot => absurd hready hnot⟩

theorem settles_of_error {ready : Prop} {r : Except Fault World} {fault : Fault}
    (hready : ¬ ready) (h : r = .error fault)
    (hfault : fault ≠ .relock ∧ fault ≠ .callbackDepth) : Settles ready r :=
  ⟨fun hready' => absurd hready' hready, fun _ => ⟨fault, h, hfault⟩⟩

theorem worldOf_ok {α : Type} {x : M α} {a : α} (h : x.run w = .ok (a, w')) :
    worldOf (x.run w) = .ok w' := by
  rw [h]
  rfl

theorem worldOf_error {α : Type} {x : M α} {f : Fault} (h : x.run w = .error f) :
    worldOf (x.run w) = .error f := by
  rw [h]
  rfl

/-- An operation that overruns an array or goes through contexts. -/
theorem settles_ready {α : Type} {x : M α} {Q : α → World → Prop} {copies : Nat}
    {targets : List NodeId} (hfit : copies ≤ serverMaxNodes → Through targets x w Q)
    (hover : serverMaxNodes < copies → x.run w = .error .arrayOverflow) :
    Settles (w.Ready copies targets) (worldOf (x.run w)) := by
  by_cases hroom : copies ≤ serverMaxNodes
  · by_cases hcurrent : ∀ id ∈ targets, w.Current id
    · obtain ⟨_, w', hrun, -⟩ := (hfit hroom).returns hcurrent
      exact settles_of_ok ⟨hroom, hcurrent⟩ ⟨w', worldOf_ok hrun⟩
    · refine settles_of_error (fun hready => hcurrent hready.current)
        (worldOf_error ((hfit hroom).faults hcurrent)) (by decide)
  · refine settles_of_error (fun hready => hroom hready.room)
      (worldOf_error (hover (Nat.lt_of_not_le hroom))) (by decide)

/-! ### The operations of the simulation -/

theorem settles_tick (cjson : CJson) (hw : Sound w) :
    Settles (w.ReadyFor .tick) (worldOf ((perform cjson .tick).run w)) := by
  cases he : w.nm.simulationEnabled with
  | false =>
      have hrun : nodeManagerRunSimulationTick.run w = .ok ((), w) :=
        run_bind_ok (tickSection_off hw.mutex he)
      refine settles_of_ok ?_ ⟨w, worldOf_ok (run_bind_ok hrun)⟩
      rw [World.ReadyFor, World.tickTargets, he, if_neg Bool.false_ne_true]
      exact ⟨Nat.zero_le _, List.forall_mem_nil _⟩
  | true =>
      have hsection := tickSection_eq hw.mutex
      rw [he, if_pos rfl] at hsection
      have hlength : w.tickTargets.length = (tickWrites w.nm.sensors).length := by
        rw [World.tickTargets, he, if_pos rfl, List.length_map]
      rw [World.ReadyFor, hlength]
      refine settles_ready (Q := fun _ w' => SameShape w w') (fun hfit => ?_) fun hover => ?_
      · rw [if_pos hfit] at hsection
        have hthrough := nodeManagerRunSimulationTick_through hw (by rw [hsection, he]; rfl)
        exact hthrough.andReturn
      · rw [if_neg (Nat.not_le_of_lt hover)] at hsection
        exact run_bind_error (run_bind_error hsection)

theorem settles_setSimulationEnabled (cjson : CJson) (hw : Sound w) (enabled : Bool) :
    Settles (w.ReadyFor (.setSimulationEnabled enabled))
      (worldOf ((perform cjson (.setSimulationEnabled enabled)).run w)) := by
  refine settles_ready (Q := fun _ w' => SameShape w w') (fun hfit => ?_) fun hover => ?_
  · exact (nodeManagerSetSimulationEnabled_through hw hfit enabled).andReturn
  · exact run_bind_error (run_bind_error (switchSection_overflow hw.mutex hover enabled))

/-- A value that cannot be read points nowhere. -/
theorem eq_invalidPointer {v : Variant} {fault : Fault}
    (h : v.readBoolean = some (.error fault)) : fault = .invalidPointer := by
  unfold Variant.readBoolean at h
  split at h
  · cases h
  · cases h
  · exact (Except.error.inj (Option.some.inj h)).symm
  · cases h

/-- **A write** of any value to any node. -/
theorem settles_writeValue (hw : Sound w) (id : NodeId) (v : Variant) :
    Settles (w.WriteReady id v) (worldOf ((uaServerWriteValue id v).run w)) := by
  by_cases hreadable : ∀ callback fault, w.callback id v ≠ some (callback, .error fault)
  · have hsettles : Settles (w.Ready (w.writeCopies id v) (w.writeTargets id v))
        (worldOf ((uaServerWriteValue id v).run w)) := by
      refine settles_ready (fun hfit => writeValue_through 6 hw hfit hreadable) fun hover => ?_
      rw [World.writeCopies] at hover
      split at hover
      · rename_i hcallback
        exact writeValue_overflow 7 hw hcallback hover
      · exact absurd hover (Nat.not_lt_zero _)
    exact ⟨fun hready => hsettles.returns hready.toReady,
      fun hnot => hsettles.fails fun hready => hnot ⟨hready, hreadable⟩⟩
  · have hnot : ¬ w.WriteReady id v := fun hready => hreadable hready.readable
    push Not at hreadable
    obtain ⟨callback, fault, hcallback⟩ := hreadable
    obtain ⟨_, _, _, _, _, _, hread, _⟩ := callback_eq_some.mp hcallback
    obtain rfl := eq_invalidPointer hread
    exact settles_of_error hnot (worldOf_error (writeValue_invalid 7 hw hcallback)) (by decide)

/-! ### Every operation -/

variable {env : HttpEnv}

/-- **Every operation** of the node manager. -/
theorem settles_perform (cjson : CJson) (hw : Sound w) (op : Op) :
    Settles (w.ReadyFor op) (worldOf ((perform cjson op).run w)) := by
  have hadds : ∀ op host d, op.adds = some (host, d) →
      ∃ w', worldOf ((perform cjson op).run w) = .ok w' := by
    intro op host d hop
    obtain ⟨rc, w', hrun, -⟩ := step_adds cjson hop hw.mutex
    exact ⟨w', worldOf_ok hrun⟩
  cases op with
  | addFolder host parent b display => exact settles_of_ok trivial (hadds _ _ _ rfl)
  | addVariable host parent b display dt sim => exact settles_of_ok trivial (hadds _ _ _ rfl)
  | delete host b =>
      obtain ⟨rc, w', hrun, -⟩ := nodeManagerDelete_run cjson host b hw.mutex
      exact settles_of_ok trivial ⟨w', worldOf_ok hrun⟩
  | tick => exact settles_tick cjson hw
  | setSimulationEnabled enabled => exact settles_setSimulationEnabled cjson hw enabled
  | resetOverrides =>
      have hrun := nodeManagerResetOverrides_run hw.mutex
      exact settles_of_ok trivial ⟨w.reset, worldOf_ok (run_bind_ok hrun)⟩
  | clientWrite nodeId v => exact settles_writeValue hw nodeId (.scalar v)

/-- And `PUT /api/config`. -/
theorem settles_performConfig (hw : Sound w) (op : ConfigOp) :
    Settles (∀ o, op = .node o → w.ReadyFor o) (worldOf ((performConfig env op).run w)) := by
  cases op with
  | node op =>
      have hready : (∀ o, ConfigOp.node op = .node o → w.ReadyFor o) ↔ w.ReadyFor op :=
        ⟨fun h => h op rfl, fun h o ho => ConfigOp.node.inj ho ▸ h⟩
      rw [hready]
      have hsettles := settles_perform env.cjson hw op
      rw [← operationWorld_node] at hsettles
      exact hsettles
  | putConfig io body =>
      have hrun : worldOf ((handlePutConfig env { Host.ok with save := io } body).run w)
          = worldOf ((performConfig env (.putConfig io body)).run w) :=
        (worldOf_bind fun _ _ => ⟨_, rfl⟩).symm
      refine settles_of_ok nofun ?_
      rw [← hrun, handlePutConfig]
      split
      · exact ⟨w, rfl⟩
      · split
        · exact ⟨w, rfl⟩
        · exact ⟨_, worldOf_ok (run_bind_ok (putNamespaceUri_run env io _ hw.mutex))⟩

/-- An operation that changes the configuration reports success exactly when it succeeds. -/
theorem ConfigStep.succeeds_iff {op : ConfigOp} {ok : Bool} (h : ConfigStep env w op ok w')
    (hop : op.changesConfig = true) : Succeeds env w op ↔ ok = true := by
  have haccepted : Succeeds env w op ↔ Accepted env w op := by
    refine ⟨?_, .accepted⟩
    rintro (hok | _)
    · exact hok
    · cases hop
  rw [haccepted]
  cases h with
  | failed hrefused => exact iff_of_false hrefused Bool.false_ne_true
  | changed _ hchange => exact iff_of_true hchange.accepted rfl
  | overflowed _ hop hcreates =>
      rw [hop]
      exact iff_of_true (.creates hcreates) rfl

/-- An operation whose answer may not be printed succeeds exactly when it says so. -/
theorem succeeds_iff_ok {host : Host} {op : ConfigOp} {ok : Bool} (hm : w.nm.mutexHeld = false)
    (hunprinted : op.prints host = false) (hrun : (performConfig env op).run w = .ok (ok, w')) :
    Succeeds env w op ↔ ok = true := by
  have hchanges : op.changesConfig = true → (Succeeds env w op ↔ ok = true) :=
    fun hop => (configStep_of_run hm hop hrun).succeeds_iff hop
  cases op with
  | putConfig io body => exact hchanges rfl
  | node op =>
      cases op with
      | addFolder host parent b display => exact hchanges rfl
      | addVariable host parent b display dt sim => exact hchanges rfl
      | setSimulationEnabled enabled =>
          obtain ⟨rc, w₁, hperform, hret⟩ := ok_of_run_bind hrun
          obtain ⟨-, w₂, -, hrc⟩ := ok_of_run_bind hperform
          obtain ⟨rfl, -⟩ := ok_of_run_return hrc
          obtain ⟨rfl, -⟩ := ok_of_run_return hret
          exact iff_of_true (.switch enabled) rfl
      -- The answers of the other operations are constant texts.
      | _ => cases hunprinted

/-- **Every operation** of a request, with its answer. -/
theorem settles_answered {host : Host} (hw : Sound w) (op : ConfigOp) :
    Settles (op.Ready env host w) (answeredWorld env host w (some op)) := by
  have hsettles : Settles (∀ o, op = .node o → w.ReadyFor o)
      (worldOf ((performConfig env op).run w)) := settles_performConfig hw op
  rw [answeredWorld]
  cases hrun : (performConfig env op).run w with
  | error fault =>
      rw [hrun] at hsettles
      -- The operation itself has failed, before there was anything to print.
      have hnot : ¬ ∀ o, op = .node o → w.ReadyFor o := by
        intro hready
        obtain ⟨w', hok⟩ := hsettles.returns hready
        cases hok
      obtain ⟨fault', heq, hfault⟩ := hsettles.fails hnot
      obtain rfl := Except.error.inj heq
      exact settles_of_error (fun hready => hnot hready.node) rfl hfault
  | ok r =>
      obtain ⟨ok, w'⟩ := r
      rw [hrun] at hsettles
      have hnode : ∀ o, op = .node o → w.ReadyFor o := by
        by_contra hnot
        obtain ⟨fault, heq, -⟩ := hsettles.fails hnot
        cases heq
      -- What is left is the answer, and it matters only after a success.
      show Settles _ (if (ok && !op.prints host) = true then _ else _)
      cases hprints : op.prints host with
      | true =>
          rw [Bool.not_true, Bool.and_false, if_neg Bool.false_ne_true]
          exact settles_of_ok ⟨hnode, fun _ => hprints⟩ ⟨w', rfl⟩
      | false =>
          have hsucceeds := succeeds_iff_ok hw.mutex hprints hrun
          rw [Bool.not_false, Bool.and_true]
          split
          · rename_i hok
            refine settles_of_error (fun hready => ?_) rfl (by decide)
            cases hprints.symm.trans (hready.prints (hsucceeds.mpr hok))
          · rename_i hno
            exact settles_of_ok ⟨hnode, fun h => absurd (hsucceeds.mp h) hno⟩ ⟨w', rfl⟩

/-- **Every event** likewise. -/
theorem settles_any {s : HttpServer} (hw : Sound s.world) (e : AnyEvent) :
    Settles (e.Ready env s.world) (serverWorldOf ((handleAny env e).run s)) := by
  cases e with
  | event e =>
      have hworld : serverWorldOf ((handleAny env (.event e)).run s)
          = answeredWorld env e.host s.world (e.operation env) :=
        serverWorldOf_handleEvent e hw.mutex
      rw [hworld, AnyEvent.Ready]
      -- An event without an operation, a `GET` for instance, only reads.
      cases e.operation env with
      | none => exact settles_of_ok nofun ⟨s.world, rfl⟩
      | some op =>
          have hready : (∀ op' ∈ some op, op'.Ready env e.host s.world)
              ↔ op.Ready env e.host s.world := by
            simp
          rw [hready]
          exact settles_answered hw op
  | clientWrite id v =>
      have hworld : serverWorldOf ((handleAny env (.clientWrite id v)).run s)
          = worldOf ((uaServerWriteValue id v).run s.world) :=
        (serverWorldOf_bind fun _ _ => ⟨_, rfl⟩).trans (serverWorldOf_nodeManager _ s)
      rw [hworld]
      exact settles_writeValue hw id v

/-! ### Runs with any writes -/

/-- An event that is no write of a client keeps the state sound, and so does a write of any
value. -/
theorem sound_stepAny {s s' : HttpServer} {e : AnyEvent} (hw : Sound s.world)
    (h : stepAny env s e = some s') : Sound s'.world := by
  cases e with
  | event e => exact sound_stepEvent hw h
  | clientWrite id v =>
      rw [stepAny] at h
      split at h
      · rename_i hrun
        obtain rfl := Option.some.inj h
        obtain ⟨rc, s₁, hwrite, hret⟩ := ok_of_run_bind hrun
        obtain ⟨-, rfl⟩ := ok_of_run_return hret
        obtain ⟨w', hwrite', rfl⟩ := ok_of_run_nodeManager hwrite
        exact (writeValue_shape 6 hw hwrite').sound hw
      · cases h

/-- The state of a running server is sound. -/
theorem sound_of_anyEvents {host : Host} {nsIdx : Nat} {cfg : ServerConfig}
    {file : Option CString} {flag : Bool} {s : HttpServer} {es : List AnyEvent}
    (hstart : start host nsIdx cfg file = some w)
    (hr : run (stepAny env) ⟨w, flag⟩ es = some s) : Sound s.world :=
  last_of_step (I := fun s : HttpServer => Sound s.world) (fun _ _ _ => sound_stepAny)
    (start_sound hstart) hr

/-! ### The discipline -/

/-- While the event is handled, the mutex is never locked by the thread that holds it and the
callbacks do not nest without bound. At the end the mutex is free. -/
structure LockDiscipline (env : HttpEnv) (s : HttpServer) (e : AnyEvent) : Prop where
  noRelock : (handleAny env e).run s ≠ .error .relock
  nests : (handleAny env e).run s ≠ .error .callbackDepth
  released : ∃ s', (handleAny env e).run s = .ok ((), s') ∧ s'.world.nm.mutexHeld = false

/-- In any sound state. -/
theorem lockDiscipline_iff_of_sound {s : HttpServer} (hw : Sound s.world) (e : AnyEvent) :
    ((handleAny env e).run s ≠ .error .relock ∧
      (handleAny env e).run s ≠ .error .callbackDepth) ∧
    (LockDiscipline env s e ↔ e.Ready env s.world) := by
  have hsettles : Settles (e.Ready env s.world) (serverWorldOf ((handleAny env e).run s)) :=
    settles_any hw e
  by_cases hready : e.Ready env s.world
  · obtain ⟨w', hworld⟩ := hsettles.returns hready
    cases hrun : (handleAny env e).run s with
    | error f =>
        rw [hrun] at hworld
        cases hworld
    | ok r =>
        have hstep : stepAny env s e = some r.2 := by
          rw [stepAny, hrun]
        have hfree := (sound_stepAny hw hstep).mutex
        refine ⟨⟨by simp, by simp⟩, iff_of_true ⟨?_, ?_, r.2, hrun, hfree⟩ hready⟩
        · rw [hrun]
          simp
        · rw [hrun]
          simp
  · -- A fault is another one than the two that never happen.
    obtain ⟨fault, hworld, hrelock, hdepth⟩ := hsettles.fails hready
    cases hrun : (handleAny env e).run s with
    | ok r =>
        rw [hrun] at hworld
        cases hworld
    | error f =>
        rw [hrun] at hworld
        obtain rfl : f = fault := Except.error.inj hworld
        refine ⟨⟨?_, ?_⟩, iff_of_false ?_ hready⟩
        · exact fun heq => hrelock (Except.error.inj heq)
        · exact fun heq => hdepth (Except.error.inj heq)
        · rintro ⟨-, -, s', hok, -⟩
          cases hrun.symm.trans hok

/-- **The extent of the lock discipline.** In any state of a running server, no event locks the
mutex twice or nests its callbacks too deep. It returns with the mutex free exactly when it has what
it needs: room in the arrays on the stack, current contexts, an element to read, and an answer that
can be printed. -/
theorem lockDiscipline_iff {host : Host} {nsIdx : Nat} {cfg : ServerConfig}
    {file : Option CString} {flag : Bool} {s : HttpServer} {es : List AnyEvent}
    (hstart : start host nsIdx cfg file = some w)
    (hr : run (stepAny env) ⟨w, flag⟩ es = some s) (e : AnyEvent) :
    ((handleAny env e).run s ≠ .error .relock ∧
      (handleAny env e).run s ≠ .error .callbackDepth) ∧
    (LockDiscipline env s e ↔ e.Ready env s.world) :=
  lockDiscipline_iff_of_sound (sound_of_anyEvents hstart hr) e

/-- After a tick of the default server, a client switches the simulation off. -/
theorem lockDiscipline_switchOff : ∃ w s, start .ok 1 serverConfigSeedDefaults none = some w ∧
    run (stepAny fillEnv) ⟨w, false⟩ [.event .tick] = some s ∧
    LockDiscipline fillEnv s
      (.clientWrite (.string 1 "SimulationEnabled".toList) (.boolean false)) := by
  -- The switch copies four ids, and the contexts of the four sensors are in the array as it is now.
  have hcheck : ((start .ok 1 serverConfigSeedDefaults none).any fun w =>
      (run (stepAny fillEnv) ⟨w, false⟩ [.event .tick]).any fun s =>
        decide (s.world.writeCopies (.string 1 "SimulationEnabled".toList) (.boolean false) = 4) &&
        decide (∀ id ∈ s.world.writeTargets (.string 1 "SimulationEnabled".toList)
          (.boolean false), s.world.Current id)) = true := by
    decide +kernel
  obtain ⟨w, hw, hcheck⟩ := (Option.any_eq_true _ _).mp hcheck
  obtain ⟨s, hrun, hcheck⟩ := (Option.any_eq_true _ _).mp hcheck
  rw [Bool.and_eq_true, decide_eq_true_eq, decide_eq_true_eq] at hcheck
  obtain ⟨hfour, hcurrent⟩ := hcheck
  refine ⟨w, s, hw, hrun, (lockDiscipline_iff hw hrun _).2.mpr ⟨⟨?_, hcurrent⟩, ?_⟩⟩
  · rw [hfour]
    decide
  · exact callback_scalar s.world _ (.boolean false)

/-- Events without arrays are events. -/
theorem run_any (s : HttpServer) (es : List Event) :
    run (stepAny env) s (es.map .event) = run (stepEvent env) s es := by
  induction es generalizing s with
  | nil => rfl
  | cons e es ih =>
      rw [List.map_cons, run, run]
      show (stepEvent env s e).bind _ = _
      exact congrArg (stepEvent env s e).bind (funext ih)

/-- With 257 sensors the same write overruns the array while the mutex is held. -/
theorem not_lockDiscipline_fill : ∃ w s, start .ok 1 serverConfigSeedDefaults none = some w ∧
    run (stepAny fillEnv) ⟨w, false⟩ (((fillNames 253).map postSensor).map .event) = some s ∧
    ¬ LockDiscipline fillEnv s
      (.clientWrite (w.nodeIdOf "SimulationEnabled".toList) (.boolean false)) := by
  obtain ⟨w, s, hw, hrun, hmany⟩ := run_postSensors
  have hinv := switchInv_of_events oneSwitch_defaults hw hrun
  have hlive := switch_live_of_events oneSwitch_defaults distinctNames_defaults hw hrun
  have hswitch : s.world.space.isSwitch (w.nodeIdOf "SimulationEnabled".toList) = true :=
    (hinv.switchIs (hinv.id_eq ▸ hlive)).isSwitch
  refine ⟨w, s, hw, (run_any _ _).trans hrun, fun hlaw => ?_⟩
  have hready := (lockDiscipline_iff_of_sound (sound_of_events hw hrun) _).2.mp hlaw
  have hroom := hready.room
  rw [World.writeCopies, callback_of_switch hswitch, hmany] at hroom
  exact absurd hroom (by decide)

end SmartFactory.Server
