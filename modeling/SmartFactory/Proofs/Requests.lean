import SmartFactory.Server.Http
import SmartFactory.Proofs.Reload

/-!
# `SmartFactory.Proofs.Requests`: requests that fail change nothing

A request is nodeManager with an error at three places: a handler refuses the body, the node
manager refuses the operation, or no route matches. `Harmless` says of a handler that it has
changed nothing when its answer is such an error, and neither when it has no answer, for then the
last answer of `access_handler` is one. The operations of the node manager have the corresponding
property `KeepsOnFailure`: they return before their first change, or they succeed.

`Routed` is the route table case by case. `request_unchanged` puts the handlers together, over
the routes and over the calls that collect the body.
-/

set_option autoImplicit false

namespace SmartFactory.Server

/-- Taking the mutex that is held is a fault. -/
theorem lock_bind_held {β : Type} {f : Unit → M β} {w : World} (h : w.nm.mutexHeld = true) :
    (lock >>= f).run w = .error .relock := by
  refine run_bind_error ?_
  simp only [lock, run_get_bind, h, if_true]
  rfl

/-! ### Operations of the node manager -/

/-- An operation that does not report success has changed nothing. -/
def KeepsOnFailure (op : M StatusCode) : Prop :=
  ∀ w rc w', op.run w = .ok (rc, w') → rc ≠ .good → w' = w

/-- It is enough to look at the two states of the mutex. -/
theorem keepsOnFailure_of {op : M StatusCode}
    (hfree : ∀ w, w.nm.mutexHeld = false →
      ∃ rc w', op.run w = .ok (rc, w') ∧ (rc ≠ .good → w' = w))
    (hheld : ∀ w rc w', w.nm.mutexHeld = true → op.run w = .ok (rc, w') → w' = w) :
    KeepsOnFailure op := by
  intro w rc w' h hrc
  cases hm : w.nm.mutexHeld with
  | false =>
      obtain ⟨rc', w₁, hrun, hkeeps⟩ := hfree w hm
      rw [h, Except.ok.injEq, Prod.mk.injEq] at hrun
      obtain ⟨rfl, rfl⟩ := hrun
      exact hkeeps hrc
  | true => exact hheld w rc w' hm h

variable (cjson : CJson)

/-- A folder that is not added leaves the world. -/
theorem keepsOnFailure_addFolder (host : Host) (parent : Option CString) (b display : CString) :
    KeepsOnFailure (nodeManagerAddFolder cjson host parent b display) := by
  refine keepsOnFailure_of (fun w hm => ?_) fun w rc w' hm h => ?_
  · obtain ⟨rc, w', hrun, hadded, -⟩ := nodeManagerAddFolder_run cjson host parent b display hm
    refine ⟨rc, w', hrun, fun hrc => ?_⟩
    cases hadded with
    | refused => rfl
    | added => exact absurd rfl hrc
  · -- With the mutex held, only the checks before it return.
    rw [nodeManagerAddFolder] at h
    split at h
    · exact (ok_of_run_return h).2
    · rw [run_get_bind] at h
      split at h
      · exact (ok_of_run_return h).2
      · cases (lock_bind_held hm).symm.trans h

/-- So does a variable that is not added. -/
theorem keepsOnFailure_addVariable (host : Host) (parent : Option CString)
    (b display : CString) (dt : ServerDataType) (sim : Bool) :
    KeepsOnFailure (nodeManagerAddVariable cjson host parent b display dt sim) := by
  refine keepsOnFailure_of (fun w hm => ?_) fun w rc w' hm h => ?_
  · obtain ⟨rc, w', hrun, hadded, -⟩ :=
      nodeManagerAddVariable_run cjson host parent b display dt sim hm
    refine ⟨rc, w', hrun, fun hrc => ?_⟩
    cases hadded with
    | refused => rfl
    | added => exact absurd rfl hrc
  · rw [nodeManagerAddVariable] at h
    split at h
    · exact (ok_of_run_return h).2
    · rw [run_get_bind] at h
      split at h
      · exact (ok_of_run_return h).2
      · split at h
        · exact (ok_of_run_return h).2
        · -- All checks come before the lock, so that a refusal needs no mutex.
          cases (lock_bind_held hm).symm.trans h

/-- And a node that is not deleted. -/
theorem keepsOnFailure_delete (host : Host) (b : CString) :
    KeepsOnFailure (nodeManagerDelete cjson host b) := by
  refine keepsOnFailure_of (fun w hm => ?_) fun w rc w' hm h => ?_
  · obtain ⟨rc, w', hrun, hdeleted, -⟩ := nodeManagerDelete_run cjson host b hm
    refine ⟨rc, w', hrun, fun hrc => ?_⟩
    cases hdeleted with
    | deleted => exact absurd rfl hrc
    | _ => rfl
  · rw [nodeManagerDelete] at h
    cases (lock_bind_held hm).symm.trans h

/-! ### Handlers -/

/-- An answer spares the state: when it is an error of the request, or when there is none, nothing
has changed. -/
def Spares {σ : Type} (s s' : σ) : Option Reply → Prop
  | some r => r.isClientError = true → s' = s
  | none => s' = s

/-- What has not changed is spared by every answer. -/
theorem spares_refl {σ : Type} (s : σ) (res : Option Reply) : Spares s s res := by
  cases res with
  | none => rfl
  | some r => exact fun _ => rfl

/-- An answer that is no error spares what it has changed. -/
theorem spares_of_success {σ : Type} {s s' : σ} {r : Reply} (h : r.isClientError = false) :
    Spares s s' (some r) :=
  fun herr => by cases h.symm.trans herr

/-- A handler that answers with an error of the request, or not at all, has changed nothing. -/
def Harmless (handler : M (Option Reply)) : Prop :=
  ∀ w res w', handler.run w = .ok (res, w') → Spares w w' res

/-- A handler that has an answer, which is no error. -/
def AnswersWell (handler : M (Option Reply)) : Prop :=
  ∀ w res w', handler.run w = .ok (res, w') → ∃ r, res = some r ∧ r.isClientError = false

/-- Answering at once changes nothing. -/
theorem harmless_return (res : Option Reply) : Harmless (pure res) := by
  intro w res' w' h
  rw [(ok_of_run_return h).2]
  exact spares_refl w res'

/-- An answer without an error code. -/
theorem answersWell_return {r : Reply} (h : r.isClientError = false) :
    AnswersWell (pure (some r)) :=
  fun _ _ _ hrun => ⟨r, (ok_of_run_return hrun).1, h⟩

/-- A handler whose answers are no errors. -/
theorem harmless_of_success {α : Type} {x : M α} {answer : α → M (Option Reply)}
    (hanswer : ∀ a, AnswersWell (answer a)) : Harmless (x >>= answer) := by
  intro w res w' h
  obtain ⟨a, w₁, -, hrest⟩ := ok_of_run_bind h
  obtain ⟨r, rfl, hr⟩ := hanswer a w₁ res w' hrest
  exact spares_of_success hr

/-- A handler that answers with what it sees under the mutex. -/
theorem harmless_of_locked {answer : World → Option Reply} :
    Harmless (do
      lock
      let w ← get
      unlock
      return answer w) := by
  intro w res w' h
  cases hm : w.nm.mutexHeld with
  | true => cases (lock_bind_held hm).symm.trans h
  | false =>
      rw [run_bind_ok (lock_run hm), run_get_bind, run_unlock_bind, setMutex_setMutex,
        setMutex_of_eq hm] at h
      rw [(ok_of_run_return h).2]
      exact spares_refl w res

/-- A handler that reports the failure of an operation. -/
theorem harmless_of_status {op : M StatusCode} (hop : KeepsOnFailure op)
    {failure : StatusCode → Option Reply} {success : M (Option Reply)}
    (hsuccess : AnswersWell success) :
    Harmless (do
      let rc ← op
      if rc ≠ .good then return failure rc
      success) := by
  intro w res w' h
  obtain ⟨rc, w₁, hrun, hrest⟩ := ok_of_run_bind h
  by_cases hrc : rc = .good
  · rw [if_neg (not_not.mpr hrc)] at hrest
    obtain ⟨r, rfl, hr⟩ := hsuccess w₁ res w' hrest
    exact spares_of_success hr
  · rw [if_pos hrc] at hrest
    rw [(ok_of_run_return hrest).2, hop w rc w₁ hrun hrc]
    exact spares_refl w res

section
variable (env : HttpEnv)

/-- An answer that was printed changes nothing. -/
theorem ok_of_run_sendUnchecked {host : Host} {doc : Json} {w w' : World} {res : Option Reply}
    (h : (sendUnchecked env host doc).run w = .ok (res, w')) :
    res = some (sendJson httpOk (env.printUnformatted doc)) ∧ w' = w := by
  rw [sendUnchecked, print] at h
  split at h
  · rename_i text htext
    split at htext
    · obtain rfl := Option.some.inj htext
      exact ok_of_run_return h
    · cases htext
  · cases h

/-- A document is sent with 200, when the server goes on at all. -/
theorem answersWell_sendUnchecked (host : Host) (doc : Json) :
    AnswersWell (sendUnchecked env host doc) :=
  fun _ _ _ h => ⟨_, (ok_of_run_sendUnchecked env h).1, rfl⟩

/-- GET /api/config is harmless. -/
theorem harmless_getConfig (host : Host) : Harmless (handleGetConfig env host) := by
  intro w res w' h
  rw [handleGetConfig, run_get_bind] at h
  rw [(ok_of_run_return h).2]
  exact spares_refl w res

/-- GET /api/nodes. -/
theorem harmless_getNodes (host : Host) : Harmless (handleGetNodes env host) :=
  harmless_of_locked

/-- GET /api/status. -/
theorem harmless_getStatus (host : Host) : Harmless (handleGetStatus env host) :=
  harmless_of_locked

/-- PUT /api/config. -/
theorem harmless_putConfig (host : Host) (body : CString) :
    Harmless (handlePutConfig env host body) := by
  rw [handlePutConfig]
  split
  · exact harmless_return _
  · split
    · exact harmless_return _
    · exact harmless_of_success fun _ => answersWell_sendUnchecked env host _

/-- PUT /api/simulation. -/
theorem harmless_putSimulation (host : Host) (body : CString) :
    Harmless (handlePutSimulation env host body) := by
  rw [handlePutSimulation]
  split
  · exact harmless_return _
  · dsimp only
    split
    · exact harmless_return _
    · exact harmless_of_success fun _ => answersWell_sendUnchecked env host _

/-- POST /api/nodes/folder. -/
theorem harmless_postFolder (host : Host) (body : CString) :
    Harmless (handlePostFolder env host body) := by
  rw [handlePostFolder]
  split
  · exact harmless_return _
  · dsimp only
    split
    · split
      · exact harmless_return _
      · exact harmless_of_status (keepsOnFailure_addFolder _ _ _ _ _)
          (answersWell_sendUnchecked env host _)
    · exact harmless_return _

/-- POST /api/nodes/variable. -/
theorem harmless_postVariable (host : Host) (body : CString) :
    Harmless (handlePostVariable env host body) := by
  rw [handlePostVariable]
  split
  · exact harmless_return _
  · dsimp only
    split
    · split
      · exact harmless_return _
      · split
        · exact harmless_return _
        · split
          · exact harmless_return _
          · exact harmless_of_status (keepsOnFailure_addVariable _ _ _ _ _ _ _)
              (answersWell_sendUnchecked env host _)
    · exact harmless_return _

/-- DELETE /api/nodes/<name>. -/
theorem harmless_delete (host : Host) (name : CString) : Harmless (handleDelete env host name) :=
  harmless_of_status (keepsOnFailure_delete _ _ _) (answersWell_return rfl)

/-- And POST /api/reset-overrides. -/
theorem harmless_resetOverrides : Harmless handleResetOverrides :=
  harmless_of_success fun _ => answersWell_return rfl

/-! ### The route table and the calls of a request -/

/-- A call into the node manager changes the world of the server. -/
theorem ok_of_run_nodeManager {α : Type} {op : M α} {a : α} {s s' : HttpServer}
    (h : (nodeManager op).run s = .ok (a, s')) :
    ∃ w, op.run s.world = .ok (a, w) ∧ s' = { s with world := w } := by
  have hdef : (nodeManager op).run s
      = (op.run s.world).bind (fun q => .ok (q.1, { s with world := q.2 })) := rfl
  rw [hdef] at h
  cases hop : op.run s.world with
  | error e =>
      rw [hop] at h
      cases h
  | ok q =>
      rw [hop] at h
      cases h
      exact ⟨q.2, rfl, rfl⟩

/-- A handler behind a route. -/
theorem spares_nodeManager {handler : M (Option Reply)} (hhandler : Harmless handler)
    {s s' : HttpServer} {res : Option Reply}
    (h : (nodeManager handler).run s = .ok (res, s')) : Spares s s' res := by
  obtain ⟨w, hw, rfl⟩ := ok_of_run_nodeManager h
  have hspares := hhandler s.world res w hw
  cases res with
  | none => exact congrArg (fun w => { s with world := w }) hspares
  | some r => exact fun herr => congrArg (fun w => { s with world := w }) (hspares herr)

/-- What the route table makes of a request. -/
inductive Routed (host : Host) (body : CString) : CString → CString → H (Option Reply) → Prop
  | getConfig : Routed host body "GET".toList "/api/config".toList
      (nodeManager (handleGetConfig env host))
  | putConfig : Routed host body "PUT".toList "/api/config".toList
      (nodeManager (handlePutConfig env host body))
  | getNodes : Routed host body "GET".toList "/api/nodes".toList
      (nodeManager (handleGetNodes env host))
  | getStatus : Routed host body "GET".toList "/api/status".toList
      (nodeManager (handleGetStatus env host))
  | putSimulation : Routed host body "PUT".toList "/api/simulation".toList
      (nodeManager (handlePutSimulation env host body))
  | resetOverrides : Routed host body "POST".toList "/api/reset-overrides".toList
      (nodeManager handleResetOverrides)
  | restart : Routed host body "POST".toList "/api/restart".toList (do
      modify fun s => { s with shutdownRequested := true }
      return some (sendJson httpOk "\x7b\"ok\":true\x7d".toList))
  | postFolder : Routed host body "POST".toList "/api/nodes/folder".toList
      (nodeManager (handlePostFolder env host body))
  | postVariable : Routed host body "POST".toList "/api/nodes/variable".toList
      (nodeManager (handlePostVariable env host body))
  | delete (url : CString) (c : Char) (name : CString)
      (hurl : urlAfterPrefix url "/api/nodes/".toList = some (c :: name)) :
      Routed host body "DELETE".toList url (nodeManager (handleDelete env host (c :: name)))
  /-- No route takes the request; the routes that change something are listed. -/
  | unknown (method url : CString)
      (hconfig : ¬ (method = "PUT".toList ∧ url = "/api/config".toList))
      (hsimulation : ¬ (method = "PUT".toList ∧ url = "/api/simulation".toList))
      (hreset : ¬ (method = "POST".toList ∧ url = "/api/reset-overrides".toList))
      (hfolder : ¬ (method = "POST".toList ∧ url = "/api/nodes/folder".toList))
      (hvariable : ¬ (method = "POST".toList ∧ url = "/api/nodes/variable".toList))
      (hdelete : method = "DELETE".toList → ∀ c name,
        urlAfterPrefix url "/api/nodes/".toList ≠ some (c :: name)) :
      Routed host body method url (pure none)

/-- **The route table**, case by case. -/
theorem routed (host : Host) (method url body : CString) :
    Routed env host body method url (route env host method url body) := by
  by_cases h₁ : method = "GET".toList ∧ url = "/api/config".toList
  · obtain ⟨rfl, rfl⟩ := h₁
    exact .getConfig
  by_cases h₂ : method = "PUT".toList ∧ url = "/api/config".toList
  · obtain ⟨rfl, rfl⟩ := h₂
    exact .putConfig
  by_cases h₃ : method = "GET".toList ∧ url = "/api/nodes".toList
  · obtain ⟨rfl, rfl⟩ := h₃
    exact .getNodes
  by_cases h₄ : method = "GET".toList ∧ url = "/api/status".toList
  · obtain ⟨rfl, rfl⟩ := h₄
    exact .getStatus
  by_cases h₅ : method = "PUT".toList ∧ url = "/api/simulation".toList
  · obtain ⟨rfl, rfl⟩ := h₅
    exact .putSimulation
  by_cases h₆ : method = "POST".toList ∧ url = "/api/reset-overrides".toList
  · obtain ⟨rfl, rfl⟩ := h₆
    exact .resetOverrides
  by_cases h₇ : method = "POST".toList ∧ url = "/api/restart".toList
  · obtain ⟨rfl, rfl⟩ := h₇
    exact .restart
  by_cases h₈ : method = "POST".toList ∧ url = "/api/nodes/folder".toList
  · obtain ⟨rfl, rfl⟩ := h₈
    exact .postFolder
  by_cases h₉ : method = "POST".toList ∧ url = "/api/nodes/variable".toList
  · obtain ⟨rfl, rfl⟩ := h₉
    exact .postVariable
  rw [route, if_neg h₁, if_neg h₂, if_neg h₃, if_neg h₄, if_neg h₅, if_neg h₆, if_neg h₇,
    if_neg h₈, if_neg h₉]
  -- None of the nine fixed routes. What is left is a DELETE with a name in its path, or an unknown
  -- request.
  have hunknown : (method = "DELETE".toList → ∀ c name,
      urlAfterPrefix url "/api/nodes/".toList ≠ some (c :: name)) →
      Routed env host body method url (pure none) := .unknown method url h₂ h₅ h₆ h₈ h₉
  by_cases h₁₀ : method = "DELETE".toList
  · rw [if_pos h₁₀]
    split
    · rename_i c name hurl
      subst h₁₀
      exact .delete url c name hurl
    · rename_i hno
      exact hunknown fun _ c name => hno c name
  · rw [if_neg h₁₀]
    exact hunknown fun h => absurd h h₁₀

/-- Every route spares the server. -/
theorem spares_route {host : Host} {method url body : CString} {s s' : HttpServer}
    {res : Option Reply} (h : (route env host method url body).run s = .ok (res, s')) :
    Spares s s' res := by
  have hrouted := routed env host method url body
  generalize route env host method url body = x at h hrouted
  cases hrouted with
  | getConfig => exact spares_nodeManager (harmless_getConfig env _) h
  | putConfig => exact spares_nodeManager (harmless_putConfig env _ _) h
  | getNodes => exact spares_nodeManager (harmless_getNodes env _) h
  | getStatus => exact spares_nodeManager (harmless_getStatus env _) h
  | putSimulation => exact spares_nodeManager (harmless_putSimulation env _ _) h
  | resetOverrides => exact spares_nodeManager harmless_resetOverrides h
  | restart =>
      -- `/api/restart` sets its flag and succeeds.
      obtain ⟨-, s₁, -, h⟩ := ok_of_run_bind h
      obtain ⟨rfl, -⟩ := ok_of_run_return h
      exact fun herr => nomatch herr
  | postFolder => exact spares_nodeManager (harmless_postFolder env _ _) h
  | postVariable => exact spares_nodeManager (harmless_postVariable env _ _) h
  | delete => exact spares_nodeManager (harmless_delete env _ _) h
  | unknown =>
      obtain ⟨rfl, rfl⟩ := ok_of_run_return h
      rfl

/-- What the request gets for an answer. -/
def Answer.reply : Answer → Option Reply
  | .queued r => some r
  | _ => none

/-- After the body was read, a response is queued or the connection is closed. When the response is
an error of the request, or there is none, nothing has changed. -/
theorem spares_dispatch {host : Host} {method url body : CString} {s s' : HttpServer}
    {a : Answer} (h : (dispatch env host method url body).run s = .ok (a, s')) :
    Spares s s' a.reply := by
  rw [dispatch] at h
  obtain ⟨res, s₁, hroute, hrest⟩ := ok_of_run_bind h
  have hspares := spares_route env hroute
  cases res with
  | some r =>
      obtain ⟨rfl, rfl⟩ := ok_of_run_return hrest
      exact hspares
  | none =>
      -- Nothing has run yet: neither the files nor the last answer touch the server.
      obtain rfl : s₁ = s := hspares
      dsimp only at hrest
      split at hrest
      · split at hrest
        · rw [(ok_of_run_return hrest).2]
          exact spares_refl s₁ _
        · rw [(ok_of_run_return hrest).2]
          exact spares_refl s₁ _
      · rw [(ok_of_run_return hrest).2]
        exact spares_refl s₁ _

/-- A call of `access_handler` that lets the request go on has changed nothing, and neither has
one that answers with an error or not at all. -/
theorem spares_accessHandler {host : Host} {method url : CString} {uploadData : List Char}
    {conCls : ConCls} {s s' : HttpServer} {a : Answer}
    (h : (accessHandler env host method url uploadData conCls).run s = .ok (a, s')) :
    Spares s s' a.reply := by
  rw [accessHandler] at h
  split at h
  · rw [(ok_of_run_return h).2]
    exact spares_refl s _
  split at h
  · split at h
    · rw [(ok_of_run_return h).2]
      exact spares_refl s _
    split at h
    · rw [(ok_of_run_return h).2]
      exact spares_refl s _
    · exact spares_dispatch env h
  · exact spares_dispatch env h

/-- **The calls of a request.** By induction over the calls: all but the last one only collect
the body. -/
theorem spares_serve {host : Host} {method url : CString} {calls : List (List Char)}
    {conCls : ConCls} {s s' : HttpServer} {res : Option Reply}
    (h : (serve env host method url conCls calls).run s = .ok (res, s')) : Spares s s' res := by
  induction calls generalizing conCls s with
  | nil =>
      obtain ⟨rfl, rfl⟩ := ok_of_run_return h
      rfl
  | cons uploadData rest ih =>
      rw [serve] at h
      obtain ⟨a, s₁, hcall, hrest⟩ := ok_of_run_bind h
      have hspares := spares_accessHandler env hcall
      cases a with
      | goOn c =>
          obtain rfl : s₁ = s := hspares
          exact ih hrest
      | queued r =>
          obtain ⟨rfl, rfl⟩ := ok_of_run_return hrest
          exact hspares
      | closed =>
          obtain ⟨rfl, rfl⟩ := ok_of_run_return hrest
          exact hspares

/-- **Failed requests have no effect.** Whatever the method, the URL and the body: a request
that is finally nodeManager with a 4xx status leaves the server as it was, with its
configuration, its browse map, its sensors, its flags, its address space and its file. -/
theorem request_unchanged {host : Host} {method url : CString} {chunks : List (List Char)}
    {s s' : HttpServer} {r : Reply}
    (h : (request env host method url chunks).run s = .ok (some r, s'))
    (herr : 400 ≤ r.status ∧ r.status < 500) : s' = s :=
  spares_serve env h (by simpa [Reply.isClientError] using herr)

end

/-- An environment without web files, whose cJSON reads one document. -/
def HttpEnv.knowing (doc : Json) : HttpEnv :=
  { cjson := .knowing doc
    printUnformatted := Json.text 0
    statusCodeName := fun _ => "BadInternalError".toList
    configPath := "./server-config.json".toList
    webRoot := snprintf 512 "./web/opcua-server".toList
    readFile := fun _ => none }

/-- A folder with the name of one that exists. -/
def takenFolder : Json :=
  .object [("browseName".toList, .string "Sensors".toList),
    ("displayName".toList, .string "Sensors".toList)]

/-- The bytes of that document, in two chunks. -/
def takenChunks : List (List Char) :=
  [(takenFolder.text 0).take 20, (takenFolder.text 0).drop 20]

/-- The status of the response that the calls of a request queued. -/
def queuedStatus : Except Fault (Option Reply × HttpServer) → Option Nat
  | .ok (some r, _) => some r.status
  | _ => none

/-- A status that is queued is that of an answer. -/
theorem ok_of_queuedStatus {res : Except Fault (Option Reply × HttpServer)} {status : Nat}
    (h : queuedStatus res = some status) :
    ∃ r s', res = .ok (some r, s') ∧ r.status = status := by
  rcases res with e | ⟨_ | r, s'⟩
  · cases h
  · cases h
  · exact ⟨r, s', rfl, Option.some.inj h⟩

set_option maxRecDepth 10000 in
/-- A second folder `Sensors` is refused with status 400, and the default server stays as it
was. -/
theorem request_unchanged_takenName : ∃ w, start .ok 1 serverConfigSeedDefaults none = some w ∧
    ∃ r s', (request (.knowing takenFolder) .ok "POST".toList "/api/nodes/folder".toList
        takenChunks).run ⟨w, false⟩ = .ok (some r, s') ∧ r.status = 400 ∧ s' = ⟨w, false⟩ := by
  have hcheck : ((start .ok 1 serverConfigSeedDefaults none).any fun w =>
      queuedStatus ((request (.knowing takenFolder) .ok "POST".toList
        "/api/nodes/folder".toList takenChunks).run ⟨w, false⟩) = some 400) = true := by
    decide
  obtain ⟨w, hw, hcheck⟩ := (Option.any_eq_true _ _).mp hcheck
  obtain ⟨r, s', hrun, hstatus⟩ := ok_of_queuedStatus (of_decide_eq_true hcheck)
  refine ⟨w, hw, r, s', hrun, hstatus, request_unchanged _ hrun ?_⟩
  rw [hstatus]
  decide

end SmartFactory.Server
