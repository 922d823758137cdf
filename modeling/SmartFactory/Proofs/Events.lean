import SmartFactory.Server.System
import SmartFactory.Proofs.Filling
import SmartFactory.Proofs.Persistence
import Mathlib.Data.List.TakeWhile

/-!
# `SmartFactory.Proofs.Events`: what an event comes to

A request goes through several calls of `access_handler`, a route and a handler before it
reaches the node manager. `Event.operation` is what remains of all that: the one operation on
the node manager that the event stands for, if there is one. By `serverWorldOf_handleEvent`
nothing else happens to the world, so whatever the operations keep holds along the runs of the
server (`last_of_events`). What can still go wrong is the answer: the handlers that change something
do not look at what cJSON has printed, and a `NULL` is a fault.

`request_eq` is the other half of it: the calls of a request collect the body and then answer
once.
-/

set_option autoImplicit false

namespace SmartFactory.Server

open Run

variable (env : HttpEnv)

/-! ### The calls of a request -/

/-- The body that the handler of a request gets: the chunks up to the first empty one, each
read as a C string. -/
def bodyOf (chunks : List (List Char)) : CString :=
  (chunks.takeWhile (fun chunk => chunk ≠ [])).flatMap cString

/-- The methods whose calls carry a body. -/
def hasBody (method : CString) : Bool := method = "PUT".toList || method = "POST".toList

/-- The answer when no route took the request. -/
def fallback (host : Host) (method url : CString) : Option Reply :=
  if method = "GET".toList ∧ !"/api/".toList.isPrefixOf url then
    (serveStatic env url).or (sendErrorJson env host httpNotFound "not found".toList)
  else sendErrorJson env host httpNotFound "not found".toList

/-- The answer to a request whose body was read. -/
def respond (host : Host) (method url body : CString) : H (Option Reply) := do
  let r ← route env host method url body
  return r.or (fallback env host method url)

/-- The end of a request. -/
def Answer.ofReply : Option Reply → Answer
  | some r => .queued r
  | none => .closed

/-- 404 is an answer like the others. -/
theorem sendNotFound_eq (host : Host) : sendNotFound env host
    = .ofReply (sendErrorJson env host httpNotFound "not found".toList) := by
  rw [sendNotFound]
  cases sendErrorJson env host httpNotFound "not found".toList <;> rfl

/-- The dispatcher sends what the routes answer. -/
theorem dispatch_eq (host : Host) (method url body : CString) :
    dispatch env host method url body = Answer.ofReply <$> respond env host method url body := by
  rw [dispatch, respond, map_bind]
  refine bind_congr fun r => ?_
  cases r with
  | some r => rfl
  | none =>
      simp only [fallback, Option.none_or, sendNotFound_eq]
      split
      · cases serveStatic env url <;> rfl
      · rfl

variable {env}

/-- PUT and POST have a body. -/
theorem hasBody_iff {method : CString} :
    hasBody method = true ↔ method = "PUT".toList ∨ method = "POST".toList := by
  simp [hasBody]

/-- A method with a body is not `OPTIONS`. -/
theorem ne_options_of_hasBody {method : CString} (hm : hasBody method = true) :
    method ≠ "OPTIONS".toList := by
  rcases hasBody_iff.mp hm with rfl | rfl <;> decide

/-- The answer, as the calls of `serve` see it. -/
theorem dispatch_bind_answer (host : Host) (method url body : CString)
    (goOn : ConCls → H (Option Reply)) :
    (dispatch env host method url body >>= fun a => match a with
      | .goOn conCls => goOn conCls
      | .queued r => pure (some r)
      | .closed => pure none) = respond env host method url body := by
  rw [dispatch_eq, bind_map_left]
  conv_rhs => rw [← bind_pure (respond env host method url body)]
  refine bind_congr fun r => ?_
  cases r <;> rfl

/-- The calls after the first one, for a method with a body. By induction over the chunks. -/
theorem serve_body {host : Host} {method url : CString} (hm : hasBody method = true)
    (chunks : List (List Char)) {conCls : ConCls} (hc : conCls ≠ .null) :
    serve env host method url conCls (chunks ++ [[]])
      = respond env host method url (readPostBody [] conCls ++ bodyOf chunks) := by
  have hmethod := hasBody_iff.mp hm
  have hoptions := ne_options_of_hasBody hm
  -- The call without data ends the body.
  have hend : ∀ (conCls : ConCls) (rest : List (List Char)), conCls ≠ .null →
      serve env host method url conCls ([] :: rest)
        = respond env host method url (readPostBody [] conCls) := by
    intro conCls rest hc
    rw [serve, accessHandler, if_neg hoptions, if_pos hmethod, if_neg (by simp), if_neg hc]
    exact dispatch_bind_answer ..
  induction chunks generalizing conCls with
  | nil =>
      rw [List.nil_append, hend conCls [] hc]
      simp [bodyOf]
  | cons chunk chunks ih =>
      by_cases hempty : chunk = []
      · rw [hempty, List.cons_append, hend conCls _ hc]
        simp [bodyOf]
      · rw [List.cons_append, serve, accessHandler, if_neg hoptions, if_pos hmethod,
          if_pos hempty]
        show serve env host method url (.body (readPostBody chunk conCls)) (chunks ++ [[]]) = _
        have hne : ConCls.body (readPostBody chunk conCls) ≠ .null := by simp
        rw [ih hne]
        have hbody : bodyOf (chunk :: chunks) = cString chunk ++ bodyOf chunks := by
          simp [bodyOf, hempty]
        rw [hbody]
        cases conCls with
        | null => exact absurd rfl hc
        | postRecvMarker => simp [readPostBody, cString]
        | body old => simp [readPostBody, cString]

/-- The body that a request comes with. -/
def requestBody (method : CString) (chunks : List (List Char)) : CString :=
  if hasBody method then bodyOf chunks else []

/-- **A request** collects its body and is answered once. -/
theorem request_eq (host : Host) (method url : CString) (chunks : List (List Char)) :
    request env host method url chunks
      = if method = "OPTIONS".toList then pure (some optionsReply)
        else respond env host method url (requestBody method chunks) := by
  rw [request, List.cons_append, serve, accessHandler]
  split
  · rfl
  · cases hm : hasBody method with
    | true =>
        rw [if_pos (hasBody_iff.mp hm), if_neg (by simp), if_pos rfl, requestBody, hm, if_pos rfl]
        show serve env host method url .postRecvMarker (chunks ++ [[]]) = _
        -- The first call sets the marker; the others collect the body, up to the last one.
        have hne : ConCls.postRecvMarker ≠ .null := by simp
        rw [serve_body hm chunks hne]
        rfl
    | false =>
        have hmethod : ¬ (method = "PUT".toList ∨ method = "POST".toList) := by
          rw [← hasBody_iff, hm]
          exact Bool.false_ne_true
        rw [if_neg hmethod, requestBody, hm, if_neg Bool.false_ne_true]
        exact dispatch_bind_answer ..

/-! ### The operation behind a handler -/

/-- The world that a run leaves, or its fault. -/
def worldOf {α : Type} (r : Except Fault (α × World)) : Except Fault World := r.map Prod.snd

/-- The world that an operation leaves. -/
def operationWorld (env : HttpEnv) (w : World) : Option ConfigOp → Except Fault World
  | none => .ok w
  | some op => worldOf ((performConfig env op).run w)

/-- What follows an operation only answers. -/
theorem worldOf_bind {α β : Type} {x : M α} {f : α → M β} {w : World}
    (hf : ∀ a w, ∃ b, (f a).run w = .ok (b, w)) :
    worldOf ((x >>= f).run w) = worldOf (x.run w) := by
  rw [StateT.run_bind]
  cases x.run w with
  | error e => rfl
  | ok r =>
      obtain ⟨b, hb⟩ := hf r.1 r.2
      show worldOf ((f r.1).run r.2) = _
      rw [hb]
      rfl

/-- An operation of the node manager, with its result reported or not. -/
theorem operationWorld_node (w : World) (op : Op) :
    operationWorld env w (some (.node op)) = worldOf ((perform env.cjson op).run w) :=
  worldOf_bind fun _ _ => ⟨_, rfl⟩

/-- The document that a success of the operation is answered with, where nothing looks at what was
printed. -/
def ConfigOp.uncheckedDocument : ConfigOp → Option Json
  | .putConfig _ _ => some restartDocument
  | .node (.addFolder ..) | .node (.addVariable ..) | .node (.setSimulationEnabled _) =>
      some okDocument
  | _ => none

/-- It can be printed. -/
def ConfigOp.prints (host : Host) (op : ConfigOp) : Bool := op.uncheckedDocument.all host.prints

/-- The world that an operation leaves when its success is answered. -/
def answeredWorld (env : HttpEnv) (host : Host) (w : World) : Option ConfigOp → Except Fault World
  | none => .ok w
  | some op =>
      match (performConfig env op).run w with
      | .error fault => .error fault
      | .ok (ok, w') => if ok && !op.prints host then .error .invalidPointer else .ok w'

/-- With an answer that is printed, this is the world that the operation leaves. -/
theorem answeredWorld_of_prints {host : Host} {w : World} {op : Option ConfigOp}
    (h : op.all (ConfigOp.prints host) = true) :
    answeredWorld env host w op = operationWorld env w op := by
  cases op with
  | none => rfl
  | some op =>
      rw [Option.all_some] at h
      rw [answeredWorld, operationWorld, h]
      cases (performConfig env op).run w with
      | error e => rfl
      | ok r =>
          show (if (r.1 && !true) = true then _ else Except.ok r.2) = .ok r.2
          rw [Bool.not_true, Bool.and_false]
          exact if_neg Bool.false_ne_true

/-- And so it is when there is a world at all. -/
theorem operationWorld_of_answered {host : Host} {w w' : World} {op : Option ConfigOp}
    (h : answeredWorld env host w op = .ok w') : operationWorld env w op = .ok w' := by
  cases op with
  | none => exact h
  | some op =>
      rw [answeredWorld] at h
      rw [operationWorld]
      cases hrun : (performConfig env op).run w with
      | error e =>
          rw [hrun] at h
          cases h
      | ok r =>
          rw [hrun] at h
          dsimp only at h
          split at h
          · cases h
          · exact h

/-- A handler that performs the operation and then answers. -/
theorem worldOf_answer {α : Type} {x : M α} {ok : α → Bool} {op : ConfigOp}
    {answer : α → M (Option Reply)} {host : Host} (w : World)
    (hperform : performConfig env op = x >>= fun a => pure (ok a))
    (hanswer : ∀ a w, worldOf ((answer a).run w)
      = if ok a && !op.prints host then .error .invalidPointer else .ok w) :
    worldOf ((x >>= answer).run w) = answeredWorld env host w (some op) := by
  rw [answeredWorld, hperform]
  cases hrun : x.run w with
  | error e =>
      rw [run_bind_error hrun, run_bind_error hrun]
      rfl
  | ok r =>
      rw [run_bind_ok hrun, run_bind_ok hrun]
      exact hanswer r.1 r.2

/-- An unchecked answer. -/
theorem worldOf_sendUnchecked (host : Host) (doc : Json) (w : World) :
    worldOf ((sendUnchecked env host doc).run w)
      = if !host.prints doc then .error .invalidPointer else .ok w := by
  rw [sendUnchecked, print]
  cases host.prints doc <;> rfl

/-- The report of an addition. -/
theorem worldOf_report (host : Host) (rc : StatusCode) (w : World) :
    worldOf ((if rc ≠ .good then
        (pure (sendErrorJson env host httpBadRequest (addNodeStatusMessage env rc)) :
          M (Option Reply))
      else sendUnchecked env host okDocument).run w)
      = if decide (rc = .good) && !host.prints okDocument then .error .invalidPointer
        else .ok w := by
  by_cases hrc : rc = .good
  · rw [if_neg (not_not.mpr hrc), worldOf_sendUnchecked, decide_eq_true hrc, Bool.true_and]
  · rw [if_pos hrc, decide_eq_false hrc, Bool.false_and]
    rfl

/-- The fields of a posted node: its parent and its names. -/
def postedNames (root : Json) : Option (Option CString × CString × CString) :=
  match Json.stringValue (root.getObjectItem "browseName".toList),
      Json.stringValue (root.getObjectItem "displayName".toList) with
  | some browse, some display =>
      some (some ((Json.stringValue (root.getObjectItem "parentBrowseName".toList)).getD []),
        browse, display)
  | _, _ => none

/-- The data type of a posted variable. -/
def postedType (root : Json) : Option ServerDataType :=
  ((Json.stringValue (root.getObjectItem "dataType".toList)).map
    serverDataTypeFromString).getD (some .boolean)

/-- The operation of `PUT /api/simulation`. -/
def putSimulationOp (env : HttpEnv) (body : CString) : Option ConfigOp := do
  let root ← env.cjson.parse body
  let enabled := root.getObjectItem "enabled".toList
  if Json.isBool enabled then some (.node (.setSimulationEnabled (Json.isTrue enabled))) else none

/-- The operation of `POST /api/nodes/folder`. -/
def postFolderOp (env : HttpEnv) (host : Host) (body : CString) : Option ConfigOp := do
  let root ← env.cjson.parse body
  let (parent, browse, display) ← postedNames root
  return .node (.addFolder host parent browse display)

/-- The operation of `POST /api/nodes/variable`. -/
def postVariableOp (env : HttpEnv) (host : Host) (body : CString) : Option ConfigOp := do
  let root ← env.cjson.parse body
  let (parent, browse, display) ← postedNames root
  let dt ← postedType root
  return .node (.addVariable host parent browse display dt
    (Json.isTrue (root.getObjectItem "simulation".toList)))

/-- A refused name ends the addition before it changes anything. -/
theorem addFolder_run_of_invalid {host : Host} {parent : Option CString} {b display : CString}
    (h : serverConfigValidateBrowseName b = false) (w : World) :
    (nodeManagerAddFolder env.cjson host parent b display).run w
      = .ok (.badInvalidArgument, w) := by
  rw [nodeManagerAddFolder, h]
  rfl

/-- A variable with an invalid name is refused. -/
theorem addVariable_run_of_invalid {host : Host} {parent : Option CString}
    {b display : CString} {dt : ServerDataType} {sim : Bool}
    (h : serverConfigValidateBrowseName b = false) (w : World) :
    (nodeManagerAddVariable env.cjson host parent b display dt sim).run w
      = .ok (.badInvalidArgument, w) := by
  rw [nodeManagerAddVariable, h]
  rfl

/-- What PUT /api/simulation does. -/
theorem worldOf_putSimulation (host : Host) (body : CString) (w : World) :
    worldOf ((handlePutSimulation env host body).run w)
      = answeredWorld env host w (putSimulationOp env body) := by
  rw [handlePutSimulation, putSimulationOp]
  cases env.cjson.parse body with
  | none => rfl
  | some root =>
      dsimp only
      split
      · -- A flag that is no Boolean is refused, and nothing is done.
        rename_i hno
        simp only [Bool.not_eq_true'] at hno
        simp only [Option.bind_eq_bind, Option.bind_some, hno]
        rfl
      · rename_i hyes
        simp only [Bool.not_eq_true', Bool.not_eq_false] at hyes
        simp only [Option.bind_eq_bind, Option.bind_some, hyes, if_true]
        have hperform : performConfig env (.node (.setSimulationEnabled
              (Json.isTrue (root.getObjectItem "enabled".toList))))
            = nodeManagerSetSimulationEnabled
                (Json.isTrue (root.getObjectItem "enabled".toList)) >>= fun _ => pure true := by
          rw [performConfig, perform, bind_assoc]
          rfl
        exact worldOf_answer w hperform fun _ w => worldOf_sendUnchecked host okDocument w

/-- What POST /api/nodes/folder does. -/
theorem worldOf_postFolder (host : Host) (body : CString) (w : World) :
    worldOf ((handlePostFolder env host body).run w)
      = answeredWorld env host w (postFolderOp env host body) := by
  rw [handlePostFolder, postFolderOp]
  cases env.cjson.parse body with
  | none => rfl
  | some root =>
      simp only [Option.bind_eq_bind, Option.bind_some, postedNames]
      cases Json.stringValue (root.getObjectItem "browseName".toList) with
      | none => rfl
      | some browse =>
          cases Json.stringValue (root.getObjectItem "displayName".toList) with
          | none => rfl
          | some display =>
              show worldOf (StateT.run (if (!serverConfigValidateBrowseName browse) = true
                then _ else _) w) = answeredWorld env host w (some (.node (.addFolder ..)))
              cases hv : serverConfigValidateBrowseName browse with
              | false =>
                  -- The handler refuses the name itself. The addition would have done so too.
                  rw [answeredWorld, performConfig, perform,
                    run_bind_ok (addFolder_run_of_invalid hv w)]
                  rfl
              | true => exact worldOf_answer w rfl fun rc w => worldOf_report host rc w

/-- A simulated variable of another type is refused as well. -/
theorem addVariable_run_of_type {host : Host} {parent : Option CString}
    {b display : CString} {dt : ServerDataType} {sim : Bool}
    (h : (sim && decide (dt ≠ .boolean)) = true) (w : World) : ∃ rc, rc ≠ .good ∧
      (nodeManagerAddVariable env.cjson host parent b display dt sim).run w = .ok (rc, w) := by
  rw [nodeManagerAddVariable]
  split
  · exact ⟨.badInvalidArgument, by decide, rfl⟩
  · rw [run_get_bind]
    split
    · exact ⟨.badNodeIdExists, by decide, rfl⟩
    · exact ⟨.badInvalidArgument, by decide, rfl⟩

/-- What POST /api/nodes/variable does. -/
theorem worldOf_postVariable (host : Host) (body : CString) (w : World) :
    worldOf ((handlePostVariable env host body).run w)
      = answeredWorld env host w (postVariableOp env host body) := by
  rw [handlePostVariable, postVariableOp]
  cases env.cjson.parse body with
  | none => rfl
  | some root =>
      simp only [Option.bind_eq_bind, Option.bind_some, postedNames]
      cases Json.stringValue (root.getObjectItem "browseName".toList) with
      | none => rfl
      | some browse =>
          cases Json.stringValue (root.getObjectItem "displayName".toList) with
          | none => rfl
          | some display =>
              simp only [Option.bind_some]
              rw [← postedType]
              cases hdt : postedType root with
              | none =>
                  -- An unknown data type is refused by the handler itself.
                  show worldOf (StateT.run (if (!serverConfigValidateBrowseName browse) = true
                    then _ else pure _) w) = .ok w
                  split <;> rfl
              | some dt =>
                  show worldOf (StateT.run (if (!serverConfigValidateBrowseName browse) = true
                    then _ else _) w) = answeredWorld env host w (some (.node (.addVariable ..)))
                  cases hv : serverConfigValidateBrowseName browse with
                  | false =>
                      rw [answeredWorld, performConfig, perform,
                        run_bind_ok (addVariable_run_of_invalid hv w)]
                      rfl
                  | true =>
                      simp only [Bool.not_true, Bool.false_eq_true, if_false]
                      split
                      · -- The handler refuses what the node manager would refuse as well.
                        rename_i hsim
                        obtain ⟨rc, hrc, hrun⟩ := addVariable_run_of_type hsim w
                        rw [answeredWorld, performConfig, perform, run_bind_ok hrun, run_return,
                          decide_eq_false hrc]
                        rfl
                      · exact worldOf_answer w rfl fun rc w => worldOf_report host rc w

/-- What PUT /api/config does. -/
theorem worldOf_putConfig (host : Host) (body : CString) (w : World) :
    worldOf ((handlePutConfig env host body).run w)
      = answeredWorld env host w (some (.putConfig host.save body)) := by
  rw [answeredWorld, performConfig, handlePutConfig, handlePutConfig]
  cases env.cjson.parse body with
  | none => rfl
  | some root =>
      dsimp only
      cases Json.stringValue (root.getObjectItem "namespaceUri".toList) with
      | none => rfl
      | some ns =>
          dsimp only
          rw [bind_assoc]
          cases hrun : (putNamespaceUri env host.save ns).run w with
          | error e =>
              rw [run_bind_error hrun, run_bind_error hrun]
              rfl
          | ok r =>
              rw [run_bind_ok hrun, run_bind_ok hrun]
              exact worldOf_sendUnchecked host restartDocument r.2

/-- What DELETE /api/nodes/<name> does. -/
theorem worldOf_delete (host : Host) (name : CString) (w : World) :
    worldOf ((handleDelete env host name).run w)
      = answeredWorld env host w (some (.node (.delete host name))) := by
  refine worldOf_answer w rfl fun rc w => ?_
  show _ = if decide (rc = .good) && !true then _ else _
  rw [Bool.not_true, Bool.and_false]
  split <;> rfl

/-- What POST /api/reset-overrides does. -/
theorem worldOf_resetOverrides (host : Host) (w : World) :
    worldOf (handleResetOverrides.run w)
      = answeredWorld env host w (some (.node .resetOverrides)) := by
  have hperform : performConfig env (.node .resetOverrides)
      = nodeManagerResetOverrides >>= fun _ => pure true := by
    rw [performConfig, perform, bind_assoc]
    rfl
  exact worldOf_answer w hperform fun _ _ => rfl

/-- A handler that only looks at the node manager under the mutex. -/
theorem worldOf_locked {answer : World → Option Reply} {w : World}
    (hm : w.nm.mutexHeld = false) :
    worldOf ((do
      lock
      let w ← get
      unlock
      return answer w : M (Option Reply)).run w) = .ok w := by
  rw [run_bind_ok (lock_run hm), run_get_bind, run_unlock_bind, run_return, setMutex_setMutex,
    setMutex_of_eq hm]
  rfl

/-! ### The operation behind a request -/

section
variable (env)

/-- The operation of the route that a request takes. -/
def requestOp (host : Host) (method url body : CString) : Option ConfigOp :=
  if method = "PUT".toList ∧ url = "/api/config".toList then some (.putConfig host.save body)
  else if method = "PUT".toList ∧ url = "/api/simulation".toList then putSimulationOp env body
  else if method = "POST".toList ∧ url = "/api/reset-overrides".toList then
    some (.node .resetOverrides)
  else if method = "POST".toList ∧ url = "/api/nodes/folder".toList then
    postFolderOp env host body
  else if method = "POST".toList ∧ url = "/api/nodes/variable".toList then
    postVariableOp env host body
  else if method = "DELETE".toList then
    -- A name of no letters is not a route of its own.
    match urlAfterPrefix url "/api/nodes/".toList with
    | some (c :: name) => some (.node (.delete host (c :: name)))
    | _ => none
  else none

/-- The operation that an event stands for. -/
def Event.operation : Event → Option ConfigOp
  | .request host method url chunks =>
      requestOp env host method url (requestBody method chunks)
  | .tick => some (.node .tick)
  | .clientWrite nodeId v => some (.node (.clientWrite nodeId v))

end

/-- The world of the server after a run. -/
def serverWorldOf {α : Type} (r : Except Fault (α × HttpServer)) : Except Fault World :=
  r.map fun q => q.2.world

/-- A call into the node manager. -/
theorem serverWorldOf_nodeManager {α : Type} (op : M α) (s : HttpServer) :
    serverWorldOf ((nodeManager op).run s) = worldOf (op.run s.world) := by
  show serverWorldOf ((op.run s.world).bind fun q => .ok (q.1, { s with world := q.2 })) = _
  cases op.run s.world <;> rfl

/-- What follows a run that leaves the world alone. -/
theorem serverWorldOf_bind {α β : Type} {x : H α} {f : α → H β} {s : HttpServer}
    (hf : ∀ a s, ∃ b, (f a).run s = .ok (b, s)) :
    serverWorldOf ((x >>= f).run s) = serverWorldOf (x.run s) := by
  rw [StateT.run_bind]
  cases x.run s with
  | error e => rfl
  | ok r =>
      obtain ⟨b, hb⟩ := hf r.1 r.2
      show serverWorldOf ((f r.1).run r.2) = _
      rw [hb]
      rfl

/-- **The route table.** A request does to the world what its operation does. -/
theorem serverWorldOf_route (host : Host) (method url body : CString) {s : HttpServer}
    (hm : s.world.nm.mutexHeld = false) :
    serverWorldOf ((route env host method url body).run s)
      = answeredWorld env host s.world (requestOp env host method url body) := by
  have hrouted := routed env host method url body
  generalize route env host method url body = x at hrouted
  cases hrouted with
  | getConfig => exact serverWorldOf_nodeManager _ s
  | putConfig => exact (serverWorldOf_nodeManager _ s).trans (worldOf_putConfig ..)
  | getNodes => exact (serverWorldOf_nodeManager _ s).trans (worldOf_locked hm)
  | getStatus => exact (serverWorldOf_nodeManager _ s).trans (worldOf_locked hm)
  | putSimulation => exact (serverWorldOf_nodeManager _ s).trans (worldOf_putSimulation ..)
  | resetOverrides => exact (serverWorldOf_nodeManager _ s).trans (worldOf_resetOverrides ..)
  | restart => rfl
  | postFolder => exact (serverWorldOf_nodeManager _ s).trans (worldOf_postFolder ..)
  | postVariable => exact (serverWorldOf_nodeManager _ s).trans (worldOf_postVariable ..)
  | delete url c name hurl =>
      -- No other row of the table has this method.
      have hop : requestOp env host "DELETE".toList url body
          = some (.node (.delete host (c :: name))) := by
        have hother : ∀ {m u : CString}, "DELETE".toList ≠ m →
            ¬ ("DELETE".toList = m ∧ url = u) := fun hm h => hm h.1
        rw [requestOp, if_neg (hother (by decide)), if_neg (hother (by decide)),
          if_neg (hother (by decide)), if_neg (hother (by decide)), if_neg (hother (by decide)),
          if_pos rfl, hurl]
      rw [hop]
      exact (serverWorldOf_nodeManager _ s).trans (worldOf_delete ..)
  | unknown method url hconfig hsimulation hreset hfolder hvariable hdelete =>
      have hop : requestOp env host method url body = none := by
        rw [requestOp, if_neg hconfig, if_neg hsimulation, if_neg hreset, if_neg hfolder,
          if_neg hvariable]
        by_cases hm : method = "DELETE".toList
        · rw [if_pos hm]
          split
          · rename_i c name hurl
            exact absurd hurl (hdelete hm c name)
          · rfl
        · rw [if_neg hm]
      rw [hop]
      rfl

/-- The outcomes of the library calls that an event comes with. -/
def Event.host : Event → Host
  | .request host _ _ _ => host
  | _ => .ok

/-- **An event** does to the world what its operation does, when the answer can be printed. -/
theorem serverWorldOf_handleEvent (e : Event) {s : HttpServer}
    (hm : s.world.nm.mutexHeld = false) :
    serverWorldOf ((handleEvent env e).run s)
      = answeredWorld env e.host s.world (e.operation env) := by
  cases e with
  | request host method url chunks =>
      refine (serverWorldOf_bind fun _ _ => ⟨_, rfl⟩).trans ?_
      rw [request_eq, Event.operation]
      split
      · -- `OPTIONS` is answered before the routes are looked at.
        rename_i hoptions
        rw [hoptions]
        rfl
      · rw [Event.host, ← serverWorldOf_route _ _ _ _ hm]
        exact serverWorldOf_bind fun _ _ => ⟨_, rfl⟩
  | tick =>
      rw [answeredWorld_of_prints (by rfl), Event.operation, operationWorld_node]
      refine (serverWorldOf_nodeManager _ _).trans ?_
      exact (worldOf_bind fun _ _ => ⟨_, rfl⟩).symm
  | clientWrite nodeId v =>
      rw [answeredWorld_of_prints (by rfl), Event.operation, operationWorld_node]
      refine (serverWorldOf_bind fun _ _ => ⟨_, rfl⟩).trans ?_
      exact serverWorldOf_nodeManager _ _

/-! ### Runs of the server -/

variable {w w' : World}

/-- An operation of the node manager steps as such. -/
theorem stepConfigOp_node (op : Op) :
    stepConfigOp env w (.node op) = stepOp env.cjson w op := by
  have hrun : (performConfig env (.node op)).run w
      = ((perform env.cjson op).run w).map fun r => (decide (r.1 = .good), r.2) := by
    cases hop : (perform env.cjson op).run w with
    | error e => exact run_bind_error hop
    | ok r => exact run_bind_ok hop
  rw [stepConfigOp, stepOp, hrun]
  cases (perform env.cjson op).run w <;> rfl

/-- The step of an operation is the world that it leaves. -/
theorem stepConfigOp_eq_some {op : ConfigOp} :
    stepConfigOp env w op = some w' ↔ worldOf ((performConfig env op).run w) = .ok w' := by
  rw [stepConfigOp]
  cases (performConfig env op).run w with
  | error e => exact iff_of_false (by simp) (by simp [worldOf, Except.map])
  | ok r =>
      show some r.2 = some w' ↔ Except.ok r.2 = Except.ok w'
      rw [Option.some.injEq, Except.ok.injEq]

/-- The step of an event is the world that it leaves. -/
theorem stepEvent_world {s s' : HttpServer} {e : Event} (h : stepEvent env s e = some s') :
    serverWorldOf ((handleEvent env e).run s) = .ok s'.world := by
  rw [stepEvent] at h
  cases hrun : (handleEvent env e).run s with
  | error f =>
      rw [hrun] at h
      cases h
  | ok r =>
      rw [hrun] at h
      obtain rfl := Option.some.inj h
      rfl

/-- **One event** leaves the world as it is, or its operation steps. -/
theorem stepEvent_cases {s s' : HttpServer} {e : Event} (hm : s.world.nm.mutexHeld = false)
    (h : stepEvent env s e = some s') : s'.world = s.world ∨
      ∃ op, e.operation env = some op ∧ stepConfigOp env s.world op = some s'.world := by
  have hworld : answeredWorld env e.host s.world (e.operation env) = .ok s'.world :=
    (serverWorldOf_handleEvent e hm).symm.trans (stepEvent_world h)
  have hstep := operationWorld_of_answered hworld
  cases hop : e.operation env with
  | none =>
      rw [hop] at hstep
      exact Or.inl (Except.ok.inj hstep).symm
  | some op =>
      rw [hop] at hstep
      exact Or.inr ⟨op, rfl, stepConfigOp_eq_some.mpr hstep⟩

/-- `PUT /api/config` changes the namespace and the file. -/
theorem putConfig_world {io : SaveIo} {body : CString} (hm : w.nm.mutexHeld = false)
    (h : stepConfigOp env w (.putConfig io body) = some w') :
    ∃ ns file, w' = { w with
      nm := { w.nm with config := { w.nm.config with namespaceUri := ns } }, file := file } := by
  obtain ⟨ok, hrun, -⟩ := configStep_of_step hm rfl h
  obtain ⟨r, w₁, hrun, hret⟩ := ok_of_run_bind hrun
  obtain ⟨-, rfl⟩ := ok_of_run_return hret
  rw [handlePutConfig] at hrun
  split at hrun
  · exact ⟨w.nm.config.namespaceUri, w.file, (ok_of_run_return hrun).2⟩
  · split at hrun
    · exact ⟨w.nm.config.namespaceUri, w.file, (ok_of_run_return hrun).2⟩
    · rw [run_bind_ok (putNamespaceUri_run env io _ hm)] at hrun
      exact ⟨_, _, (ok_of_run_return hrun).2⟩

/-- Every operation keeps the state sound. -/
theorem sound_stepConfigOp (hw : Sound w) {op : ConfigOp} (h : stepConfigOp env w op = some w') :
    Sound w' := by
  cases op with
  | node op => exact sound_step hw (stepConfigOp_node op ▸ h)
  | putConfig io body =>
      obtain ⟨ns, file, rfl⟩ := putConfig_world hw.mutex h
      exact hw.withConfig _ file

/-- And so does every event. -/
theorem sound_stepEvent {s s' : HttpServer} {e : Event} (hw : Sound s.world)
    (h : stepEvent env s e = some s') : Sound s'.world := by
  rcases stepEvent_cases hw.mutex h with hsame | ⟨op, -, hop⟩
  · rw [hsame]
    exact hw
  · exact sound_stepConfigOp hw hop

/-- **Runs of the server.** What the operations keep, along with a sound state, holds in the last
state of a run of events. -/
theorem last_of_events {I : World → Prop}
    (keep : ∀ w op w', Sound w → I w → stepConfigOp env w op = some w' → I w')
    {s s' : HttpServer} {es : List Event} (hw : Sound s.world) (hI : I s.world)
    (hr : run (stepEvent env) s es = some s') : Sound s'.world ∧ I s'.world := by
  refine last_of_step (I := fun s : HttpServer => Sound s.world ∧ I s.world) ?_ ⟨hw, hI⟩ hr
  rintro s e s' ⟨hw, hI⟩ hstep
  rcases stepEvent_cases hw.mutex hstep with hsame | ⟨op, -, hop⟩
  · rw [hsame]
    exact ⟨hw, hI⟩
  · exact ⟨sound_stepConfigOp hw hop, keep _ _ _ hw hI hop⟩

/-- The state of a running server is sound. -/
theorem sound_of_events {host : Host} {nsIdx : Nat} {cfg : ServerConfig}
    {file : Option CString} {flag : Bool} {s : HttpServer} {es : List Event}
    (hstart : start host nsIdx cfg file = some w)
    (hr : run (stepEvent env) ⟨w, flag⟩ es = some s) : Sound s.world :=
  (last_of_events (I := fun _ => True) (fun _ _ _ _ _ _ => trivial) (start_sound hstart) trivial
    hr).1

/-! ### Filling the server by requests -/

/-- An event whose operation leaves a world steps to it. -/
theorem stepEvent_of_operation {s : HttpServer} {e : Event} {op : Op}
    (hm : s.world.nm.mutexHeld = false) (he : e.operation env = some (.node op))
    (hprints : (ConfigOp.node op).prints e.host = true)
    (hop : stepOp env.cjson s.world op = some w') :
    ∃ s', stepEvent env s e = some s' ∧ s'.world = w' := by
  obtain ⟨rc, hrun⟩ := stepOp_eq_some.mp hop
  have hall : Option.all (ConfigOp.prints e.host) (some (.node op)) = true := hprints
  have hworld : serverWorldOf ((handleEvent env e).run s)
      = answeredWorld env e.host s.world (e.operation env) := serverWorldOf_handleEvent e hm
  rw [he, answeredWorld_of_prints hall, operationWorld_node, hrun] at hworld
  rw [stepEvent]
  cases hhandle : (handleEvent env e).run s with
  | error f =>
      rw [hhandle] at hworld
      cases hworld
  | ok r =>
      rw [hhandle] at hworld
      exact ⟨r.2, rfl, Except.ok.inj hworld⟩

/-- A run of operations is a run of the events that do the same. -/
theorem run_events_of_ops {α : Type} {event : α → Event} {op : α → Op} {l : List α}
    (hop : ∀ a ∈ l, ∃ op', (event a).operation env = some (.node op') ∧
      (ConfigOp.node op').prints (event a).host = true ∧
      ∀ w, stepOp env.cjson w op' = stepOp env.cjson w (op a)) {s : HttpServer}
    (hw : Sound s.world) (hr : run (stepOp env.cjson) s.world (l.map op) = some w') :
    ∃ s', run (stepEvent env) s (l.map event) = some s' ∧ s'.world = w' := by
  induction l generalizing s with
  | nil => exact ⟨s, rfl, Option.some.inj hr⟩
  | cons a rest ih =>
      rw [List.map_cons, run] at hr
      obtain ⟨w₁, hstep, hrest⟩ := Option.bind_eq_some_iff.mp hr
      obtain ⟨op', he, hprints, hsame⟩ := hop a (List.mem_cons_self ..)
      obtain ⟨s₁, hevent, rfl⟩ :=
        stepEvent_of_operation hw.mutex he hprints ((hsame _).trans hstep)
      obtain ⟨s', hrun, hworld⟩ := ih (fun b hb => hop b (List.mem_cons_of_mem _ hb))
        (sound_step hw hstep) hrest
      refine ⟨s', ?_, hworld⟩
      rw [List.map_cons, run, hevent, Option.bind_some, hrun]

/-- A simulated variable as a document. -/
def sensorDoc (b : CString) : Json :=
  .object [("browseName".toList, .string b), ("displayName".toList, .string b),
    ("simulation".toList, .bool true)]

/-- Its text. -/
def sensorText (b : CString) : CString :=
  "\x7b\"browseName\":\"".toList ++ b ++ "\",\"displayName\":\"".toList ++ b
    ++ "\",\"simulation\":true\x7d".toList

/-- An environment whose cJSON reads these texts, for names of three characters. -/
def fillEnv : HttpEnv :=
  { HttpEnv.knowing .null with
    cjson := ⟨Json.text 0, fun text => some (sensorDoc ((text.drop 15).take 3))⟩ }

/-- The request for a simulated variable. -/
def postSensor (b : CString) : Event :=
  .request .ok "POST".toList "/api/nodes/variable".toList [sensorText b]

/-- No character is NUL. -/
def noNul (text : CString) : Bool := text.all (fun c => c.toNat ≠ 0)

/-- A text without a NUL is the body as it was sent. -/
theorem requestBody_of_noNul {text : CString} (hne : text ≠ []) (hnul : noNul text = true) :
    requestBody "POST".toList [text] = text := by
  have hbody : hasBody "POST".toList = true := hasBody_iff.mpr (Or.inr rfl)
  rw [requestBody, if_pos hbody, bodyOf, List.takeWhile_cons, if_pos (decide_eq_true hne),
    List.takeWhile_nil, List.flatMap_singleton, cString,
    List.takeWhile_eq_self_iff.mpr (List.all_eq_true.mp hnul)]

/-- Texts without NUL make one without NUL. -/
theorem noNul_append {l r : CString} (hl : noNul l = true) (hr : noNul r = true) :
    noNul (l ++ r) = true := by
  rw [noNul] at hl hr
  rw [noNul, List.all_append, hl, hr, Bool.and_self]

/-- The text of a sensor has none. -/
theorem noNul_sensorText {b : CString} (hb : noNul b = true) : noNul (sensorText b) = true := by
  refine noNul_append (noNul_append (noNul_append (noNul_append ?_ hb) ?_) hb) ?_
  · decide +kernel
  · decide +kernel
  · decide +kernel

/-- The names that fill the array have three characters. -/
theorem fillNames_chars : ∀ b ∈ fillNames 253, b.length = 3 ∧ noNul b = true := by
  have hall : (fillNames 253).all (fun b => b.length = 3 && noNul b) = true := by decide +kernel
  intro b hb
  have hchars := List.all_eq_true.mp hall b hb
  rw [Bool.and_eq_true, decide_eq_true_eq] at hchars
  exact hchars

/-- And are read back from the text of their sensor. -/
theorem parse_sensorText : ∀ b ∈ fillNames 253,
    ((requestBody "POST".toList [sensorText b]).drop 15).take 3 = b := by
  intro b hb
  obtain ⟨hlength, hnul⟩ := fillNames_chars b hb
  have hstart : ("\x7b\"browseName\":\"".toList).length = 15 := by decide +kernel
  have hne : sensorText b ≠ [] := by
    refine List.append_ne_nil_of_right_ne_nil _ ?_
    decide +kernel
  have hmiddle : ∀ {l m r : CString}, l.length = 15 →
      ((l ++ b ++ m ++ b ++ r).drop 15).take 3 = b := by
    intro l m r hl
    rw [List.append_assoc, List.append_assoc, List.append_assoc, List.drop_left' hl,
      List.take_left' hlength]
  rw [requestBody_of_noNul hne (noNul_sensorText hnul)]
  exact hmiddle hstart

/-- The request adds a sensor. -/
theorem operation_postSensor {b : CString} (hb : b ∈ fillNames 253) :
    (postSensor b).operation fillEnv
      = some (.node (.addVariable .ok (some []) b b .boolean true)) := by
  have hparse : fillEnv.cjson.parse (requestBody "POST".toList [sensorText b])
      = some (sensorDoc b) := congrArg (fun b => some (sensorDoc b)) (parse_sensorText b hb)
  show postVariableOp fillEnv .ok (requestBody "POST".toList [sensorText b]) = _
  rw [postVariableOp, hparse]
  rfl

/-- **More sensors than the arrays on the stack hold**: requests fill the default server up to
257 of them. -/
theorem run_postSensors : ∃ w s, start .ok 1 serverConfigSeedDefaults none = some w ∧
    run (stepEvent fillEnv) ⟨w, false⟩ ((fillNames 253).map postSensor) = some s ∧
    s.world.nm.sensors.length = 257 := by
  obtain ⟨w, hw, -, hfour, -, hids⟩ := start_defaults
  obtain ⟨w', hrun, -, hsensors, -⟩ := run_adds fillEnv.cjson (start_sound hw) fillNames_nodup
    (newName_defaults hw hids)
  have hpost : ∀ b ∈ fillNames 253, ∃ op, (postSensor b).operation fillEnv = some (.node op) ∧
      (ConfigOp.node op).prints (postSensor b).host = true ∧
      ∀ w, stepOp fillEnv.cjson w op = stepOp fillEnv.cjson w (addSensorOp b) :=
    fun b hb => ⟨_, operation_postSensor hb, rfl, fun _ => rfl⟩
  obtain ⟨s, hevents, rfl⟩ := run_events_of_ops (s := ⟨w, false⟩) hpost (start_sound hw) hrun
  refine ⟨w, s, hw, hevents, ?_⟩
  rw [hsensors, hfour]
  simp [fillNames]

end SmartFactory.Server
