import SmartFactory.Server.Program
import Mathlib.Data.List.Infix

/-!
# `SmartFactory.Server.Http`: the HTTP interface of the server (`http_server.c`)

libmicrohttpd calls `accessHandler` several times for one request: once with the header, once
for each chunk of the body and once more at the end. `*con_cls` is what the calls of one
request share. `serve` replays the calls of a request until one of them queues a response.

The handlers work on the node manager and are written in `M`. `HttpServer` adds the flag that
`/api/restart` sets. `HttpEnv` holds what the handlers use of cJSON, of open62541 and of the
file system. A document may be too large to print, which `Host.prints` says; the handlers' own
allocations and the calls of libmicrohttpd succeed.
-/

set_option autoImplicit false

namespace SmartFactory.Server

/-- The libraries and settings behind the HTTP interface. -/
structure HttpEnv where
  cjson : CJson
  /-- What `cJSON_PrintUnformatted` prints. -/
  printUnformatted : Json → CString
  /-- `UA_StatusCode_name`. -/
  statusCodeName : StatusCode → CString
  /-- `server_config_get_path()`. -/
  configPath : CString
  /-- `g_webRoot`. -/
  webRoot : CharBuf 512
  /-- The content of a file that can be opened and read. -/
  readFile : CString → Option CString

instance neZero_webRoot : NeZero 512 := ⟨by decide⟩

/-- A queued response. -/
structure Reply where
  status : Nat
  headers : List (CString × CString)
  body : CString
  deriving DecidableEq

abbrev httpOk : Nat := 200
abbrev httpNoContent : Nat := 204
abbrev httpBadRequest : Nat := 400
abbrev httpNotFound : Nat := 404

/-- The status reports an error of the request. -/
def Reply.isClientError (r : Reply) : Bool := 400 ≤ r.status && r.status < 500

/-- `send_json`. -/
def sendJson (status : Nat) (json : CString) : Reply :=
  { status := status
    headers := [("Content-Type".toList, "application/json".toList),
      ("Access-Control-Allow-Origin".toList, "*".toList)]
    body := json }

/-- `SERVER_BROWSE_NAME_INVALID_MSG`. -/
def serverBrowseNameInvalidMsg : CString :=
  "browseName may only contain letters, digits, and underscores (no spaces)".toList

/-- `cJSON_IsBool`. -/
def Json.isBool : Option Json → Bool
  | some (.bool _) => true
  | _ => false

/-- `cJSON_AddItemToObject`. -/
def Json.addItem : Json → CString → Json → Json
  | .object fields, name, item => .object (fields ++ [(name, item)])
  | json, _, _ => json

/-- A number without fraction, as `cJSON_AddNumberToObject` prints it. -/
def Json.ofNat (n : Nat) : Json := .number (toString n).toList

section
variable (env : HttpEnv)

/-- `cJSON_PrintUnformatted`: `none` stands for `NULL`. -/
def print (host : Host) (doc : Json) : Option CString :=
  if host.prints doc then some (env.printUnformatted doc) else none

/-- `send_error_json`. Without a text there is no response. -/
def sendErrorJson (host : Host) (status : Nat) (msg : CString) : Option Reply :=
  (print env host (.object [("error".toList, .string msg)])).map (sendJson status)

/-- How the handlers of `GET` requests end. -/
def sendPrinted (host : Host) (doc : Json) : Option Reply :=
  (print env host doc).map (sendJson httpOk)

/-- How the handlers of `PUT` and `POST` requests end. They pass on what was printed without a look
at it, and `send_json` calls `strlen`. -/
def sendUnchecked (host : Host) (doc : Json) : M (Option Reply) :=
  match print env host doc with
  | some text => return some (sendJson httpOk text)
  | none => throw .invalidPointer

/-- The document of the handlers that have nothing else to say. -/
def okDocument : Json := .object [("ok".toList, .bool true)]

/-! ### Handlers -/

/-- `handle_get_config`. It takes no mutex. -/
def handleGetConfig (host : Host) : M (Option Reply) := do
  let w ← get
  return sendPrinted env host (.object
    [("namespaceUri".toList, .string w.nm.config.namespaceUri.chars),
     ("configPath".toList, .string env.configPath)])

/-- The locked section of `handle_put_config`. -/
def putNamespaceUri (io : SaveIo) (ns : CString) : M Unit := do
  lock
  modify fun w => { w with nm := { w.nm with
    config := { w.nm.config with namespaceUri := snprintf serverNamespaceMax ns } } }
  -- The result of the save is dropped.
  modify fun w => (nodeManagerSaveConfig env.cjson io w).2
  unlock

/-- The document of `handle_put_config`. -/
def restartDocument : Json :=
  .object [("ok".toList, .bool true),
    ("message".toList, .string "Restart server to apply namespace change".toList)]

/-- `handle_put_config`. -/
def handlePutConfig (host : Host) (body : CString) : M (Option Reply) := do
  match env.cjson.parse body with
  | none => return sendErrorJson env host httpBadRequest "invalid json".toList
  | some root =>
      match Json.stringValue (root.getObjectItem "namespaceUri".toList) with
      | none => return sendErrorJson env host httpBadRequest "namespaceUri required".toList
      | some ns =>
          putNamespaceUri env host.save ns
          sendUnchecked env host restartDocument

/-- `node_id_string`, into the buffer `nid`. -/
def nodeIdString (ns : Nat) (browseName : CString) : CString :=
  (snprintf serverDisplayNameMax
    ("ns=".toList ++ (toString ns).toList ++ ";s=".toList ++ browseName)).chars

/-- The entry of `handle_get_nodes` for a definition: the fields of `node_to_json` in the same
order and under the same conditions, and the node id. -/
def listedNode (ns : Nat) (n : ServerNodeDef) : Json :=
  (nodeToJson n).addItem "nodeIdString".toList
    (.string (nodeIdString ns n.browseName.chars))

/-- `handle_get_nodes`. -/
def handleGetNodes (host : Host) : M (Option Reply) := do
  lock
  let nm := (← get).nm
  unlock
  return sendPrinted env host (.array (nm.config.nodes.map (listedNode nm.nsIdx)))

/-- The entry of `handle_get_status` for a sensor. -/
def sensorJson (st : SimulatedSensor) : Json :=
  .object [("browseName".toList, .string st.browseName.chars),
    ("value".toList, .bool st.value), ("overridden".toList, .bool st.overridden)]

/-- `handle_get_status`. -/
def handleGetStatus (host : Host) : M (Option Reply) := do
  lock
  let nm := (← get).nm
  unlock
  return sendPrinted env host (.object
    [("namespaceUri".toList, .string nm.config.namespaceUri.chars),
     ("namespaceIndex".toList, Json.ofNat nm.nsIdx),
     ("simulationEnabled".toList, .bool nm.simulationEnabled),
     ("sensors".toList, .array (nm.sensors.map sensorJson))])

/-- `handle_put_simulation`. -/
def handlePutSimulation (host : Host) (body : CString) : M (Option Reply) := do
  match env.cjson.parse body with
  | none => return sendErrorJson env host httpBadRequest "invalid json".toList
  | some root =>
      let en := root.getObjectItem "enabled".toList
      if !Json.isBool en then
        return sendErrorJson env host httpBadRequest "enabled required".toList
      nodeManagerSetSimulationEnabled (Json.isTrue en)
      sendUnchecked env host okDocument

/-- `add_node_status_message`. -/
def addNodeStatusMessage : StatusCode → CString
  | .badInvalidArgument => serverBrowseNameInvalidMsg
  | .badNodeIdExists => "browseName already exists".toList
  | rc => env.statusCodeName rc

/-- `handle_post_folder`. -/
def handlePostFolder (host : Host) (body : CString) : M (Option Reply) := do
  match env.cjson.parse body with
  | none => return sendErrorJson env host httpBadRequest "invalid json".toList
  | some root =>
      -- A parent that is not a string counts as none.
      let parent := Json.stringValue (root.getObjectItem "parentBrowseName".toList)
      match Json.stringValue (root.getObjectItem "browseName".toList),
          Json.stringValue (root.getObjectItem "displayName".toList) with
      | some browse, some display =>
          if !serverConfigValidateBrowseName browse then
            return sendErrorJson env host httpBadRequest serverBrowseNameInvalidMsg
          let rc ← nodeManagerAddFolder env.cjson host (some (parent.getD [])) browse display
          if rc ≠ .good then
            return sendErrorJson env host httpBadRequest (addNodeStatusMessage env rc)
          sendUnchecked env host okDocument
      | _, _ =>
          return sendErrorJson env host httpBadRequest "browseName and displayName required".toList

/-- `handle_post_variable`. -/
def handlePostVariable (host : Host) (body : CString) : M (Option Reply) := do
  match env.cjson.parse body with
  | none => return sendErrorJson env host httpBadRequest "invalid json".toList
  | some root =>
      let parent := Json.stringValue (root.getObjectItem "parentBrowseName".toList)
      match Json.stringValue (root.getObjectItem "browseName".toList),
          Json.stringValue (root.getObjectItem "displayName".toList) with
      | some browse, some display =>
          if !serverConfigValidateBrowseName browse then
            return sendErrorJson env host httpBadRequest serverBrowseNameInvalidMsg
          let dtype := Json.stringValue (root.getObjectItem "dataType".toList)
          -- A missing data type is `Boolean`; one that is no string counts as missing.
          match (dtype.map serverDataTypeFromString).getD (some .boolean) with
          | none =>
              return sendErrorJson env host httpBadRequest
                "dataType must be Boolean, Int32, Double, or String".toList
          | some dt =>
              let sim := Json.isTrue (root.getObjectItem "simulation".toList)
              if sim && dt ≠ .boolean then
                return sendErrorJson env host httpBadRequest
                  "simulation is only supported for Boolean variables".toList
              let rc ← nodeManagerAddVariable env.cjson host (some (parent.getD [])) browse
                display dt sim
              if rc ≠ .good then
                return sendErrorJson env host httpBadRequest (addNodeStatusMessage env rc)
              sendUnchecked env host okDocument
      | _, _ =>
          return sendErrorJson env host httpBadRequest "browseName and displayName required".toList

/-- The branch of `access_handler` that deletes a node. -/
def handleDelete (host : Host) (name : CString) : M (Option Reply) := do
  let rc ← nodeManagerDelete env.cjson host name
  if rc ≠ .good then return sendErrorJson env host httpBadRequest (env.statusCodeName rc)
  return some (sendJson httpOk "\x7b\"ok\":true\x7d".toList)

/-- The branch of `access_handler` that resets the overrides. -/
def handleResetOverrides : M (Option Reply) := do
  nodeManagerResetOverrides
  return some (sendJson httpOk "\x7b\"ok\":true\x7d".toList)

/-- `serve_static`: `none` when the file cannot be read. -/
def serveStatic (url : CString) : Option Reply :=
  let rel := if url = "/".toList then "/index.html".toList else url
  -- The path is cut at the size of its buffer.
  let path := (env.webRoot.chars ++ rel).take 767
  (env.readFile path).map fun content =>
    let ctype :=
      if ".html".toList <:+: rel then "text/html; charset=utf-8"
      else if ".css".toList <:+: rel then "text/css"
      else if ".js".toList <:+: rel then "application/javascript"
      else "text/plain"
    { status := httpOk, headers := [("Content-Type".toList, ctype.toList)], body := content }

/-- `url_after_prefix`. -/
def urlAfterPrefix (url start : CString) : Option CString :=
  if start.isPrefixOf url then some (url.drop start.length) else none

/-! ### Requests -/

/-- What a request can change. -/
structure HttpServer where
  world : World
  shutdownRequested : Bool
  deriving DecidableEq

/-- The calls of `access_handler`. -/
abbrev H := StateT HttpServer (Except Fault)

/-- A call into the node manager. -/
def nodeManager {α : Type} (op : M α) : H α := fun s => do
  let (a, w) ← op.run s.world
  return (a, { s with world := w })

/-- The route table of `access_handler`: `none` stands for `MHD_NO`. -/
def route (host : Host) (method url body : CString) : H (Option Reply) := do
  if method = "GET".toList ∧ url = "/api/config".toList then nodeManager (handleGetConfig env host)
  else if method = "PUT".toList ∧ url = "/api/config".toList then
    nodeManager (handlePutConfig env host body)
  else if method = "GET".toList ∧ url = "/api/nodes".toList then
    nodeManager (handleGetNodes env host)
  else if method = "GET".toList ∧ url = "/api/status".toList then
    nodeManager (handleGetStatus env host)
  else if method = "PUT".toList ∧ url = "/api/simulation".toList then
    nodeManager (handlePutSimulation env host body)
  else if method = "POST".toList ∧ url = "/api/reset-overrides".toList then
    nodeManager handleResetOverrides
  else if method = "POST".toList ∧ url = "/api/restart".toList then do
    modify fun s => { s with shutdownRequested := true }
    return some (sendJson httpOk "\x7b\"ok\":true\x7d".toList)
  else if method = "POST".toList ∧ url = "/api/nodes/folder".toList then
    nodeManager (handlePostFolder env host body)
  else if method = "POST".toList ∧ url = "/api/nodes/variable".toList then
    nodeManager (handlePostVariable env host body)
  else if method = "DELETE".toList then
    match urlAfterPrefix url "/api/nodes/".toList with
    | some (c :: name) => nodeManager (handleDelete env host (c :: name))
    -- The rest of the URL is empty, or there is none.
    | _ => return none
  else return none

/-- `*con_cls` between two calls: nothing, `POST_RECV_MARKER`, or the body so far. -/
inductive ConCls where
  | null
  | postRecvMarker
  | body (buf : CString)
  deriving DecidableEq

/-- A buffer, read as a C string: it ends at the first NUL. -/
def cString (buf : List Char) : CString := buf.takeWhile (fun c => c.toNat ≠ 0)

/-- `read_post_body`. The chunk is written behind the string that is there. -/
def readPostBody (uploadData : List Char) : ConCls → CString
  | .body old => old ++ cString uploadData
  | _ => cString uploadData

/-- What one call of `access_handler` comes to: the request goes on, a response is queued, or the
connection is closed without one (`MHD_NO`). -/
inductive Answer where
  | goOn (conCls : ConCls)
  | queued (r : Reply)
  | closed
  deriving DecidableEq

/-- The last answer of `access_handler`. -/
def sendNotFound (host : Host) : Answer :=
  match sendErrorJson env host httpNotFound "not found".toList with
  | some r => .queued r
  | none => .closed

/-- The part of `access_handler` after the body was read. -/
def dispatch (host : Host) (method url body : CString) : H Answer := do
  match ← route env host method url body with
  | some r => return .queued r
  | none =>
      if method = "GET".toList ∧ !"/api/".toList.isPrefixOf url then
        match serveStatic env url with
        | some r => return .queued r
        | none => return sendNotFound env host
      else return sendNotFound env host

/-- The response to `OPTIONS`. -/
def optionsReply : Reply :=
  { status := httpNoContent
    headers := [("Access-Control-Allow-Origin".toList, "*".toList),
      ("Access-Control-Allow-Methods".toList, "GET, PUT, POST, DELETE, OPTIONS".toList),
      ("Access-Control-Allow-Headers".toList, "Content-Type".toList)]
    body := [] }

/-- `access_handler`. -/
def accessHandler (host : Host) (method url : CString) (uploadData : List Char)
    (conCls : ConCls) : H Answer := do
  if method = "OPTIONS".toList then return .queued optionsReply
  else if method = "PUT".toList ∨ method = "POST".toList then
    if uploadData ≠ [] then return .goOn (.body (readPostBody uploadData conCls))
    -- The first call only announces the request.
    else if conCls = .null then return .goOn .postRecvMarker
    else dispatch env host method url (readPostBody uploadData conCls)
  else dispatch env host method url []

/-- The calls of one request, one for each list of bytes: the empty one stands for the call
with the header and for the last call. The result is `none` when no call has queued a
response. -/
def serve (host : Host) (method url : CString) :
    ConCls → List (List Char) → H (Option Reply)
  | _, [] => return none
  | conCls, uploadData :: rest => do
      match ← accessHandler env host method url uploadData conCls with
      | .goOn conCls => serve host method url conCls rest
      | .queued r => return some r
      | .closed => return none

/-- A request with the chunks of its body. -/
def request (host : Host) (method url : CString) (chunks : List (List Char)) :
    H (Option Reply) :=
  serve env host method url .null ([] :: chunks ++ [[]])

/-! ### Changes of the configuration -/

/-- What changes the configuration: an operation of the node manager, or
`PUT /api/config`. -/
inductive ConfigOp where
  | node (op : Op)
  | putConfig (io : SaveIo) (body : CString)

/-- Run the operation. The result is whether it reports success: `UA_STATUSCODE_GOOD`, or HTTP
status 200. -/
def performConfig : ConfigOp → M Bool
  | .node op => do return (← perform env.cjson op) = .good
  | .putConfig io body => do
      let r ← handlePutConfig env { Host.ok with save := io } body
      return r.map Reply.status = some httpOk

/-- One step; `none` after a fault. -/
def stepConfigOp (w : World) (op : ConfigOp) : Option World :=
  match (performConfig env op).run w with
  | .ok (_, w') => some w'
  | .error _ => none

end

end SmartFactory.Server
