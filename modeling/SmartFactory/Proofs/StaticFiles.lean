import SmartFactory.Lib.Paths
import SmartFactory.Proofs.Events
import Mathlib.Data.List.DropRight

/-!
# `SmartFactory.Proofs.StaticFiles`: which files the HTTP interface serves

`serve_static` puts the URL behind the web root and opens what that names, up to the size of its
buffer. `request_static` is that a `GET` outside of `/api/` does nothing else.

The library decodes a URL but leaves its `..` components. `confined_iff` is the extent to which
the file lies inside of the web root all the same, for any current directory.
-/

set_option autoImplicit false

namespace SmartFactory.Server

open Paths

/-! ### The path of a static file -/

/-- `OPCUA_HTTP_WEB_ROOT`, or the default of `g_webRoot`. -/
def configuredRoot : Option CString → CString
  | some (c :: cs) => c :: cs
  | _ => "./web/opcua-server".toList

/-- `init_web_root`: `g_webRoot` afterwards. -/
def initWebRoot (env : Option CString) : CharBuf 512 :=
  snprintf 512 (configuredRoot env)

/-- The file that a URL names below the web root. -/
def relativeUrl (url : CString) : CString := if url = "/".toList then "/index.html".toList else url

/-- The path that `serve_static` opens. -/
def staticPath (webRoot : CharBuf 512) (url : CString) : CString :=
  (webRoot.chars ++ relativeUrl url).take 767

/-- The response with the content of the file. -/
def fileReply (url content : CString) : Reply :=
  let rel := relativeUrl url
  let ctype :=
    if ".html".toList <:+: rel then "text/html; charset=utf-8"
    else if ".css".toList <:+: rel then "text/css"
    else if ".js".toList <:+: rel then "application/javascript"
    else "text/plain"
  { status := httpOk, headers := [("Content-Type".toList, ctype.toList)], body := content }

variable {env : HttpEnv}

/-- This is the only file that it opens. -/
theorem serveStatic_eq (url : CString) :
    serveStatic env url = (env.readFile (staticPath env.webRoot url)).map (fileReply url) := rfl

/-- No route takes a `GET` outside of `/api/`. -/
theorem route_static (host : Host) {url : CString} (body : CString)
    (hurl : "/api/".toList.isPrefixOf url = false) :
    route env host "GET".toList url body = pure none := by
  have hno : ∀ u : CString, "/api/".toList.isPrefixOf u = true →
      ¬ ("GET".toList = "GET".toList ∧ url = u) := by
    rintro u hu ⟨-, rfl⟩
    cases hu.symm.trans hurl
  have hmethod : ∀ {m : CString} {u : CString}, "GET".toList ≠ m → ¬ ("GET".toList = m ∧ url = u) :=
    fun hm h => hm h.1
  rw [route, if_neg (hno _ (by decide)), if_neg (hmethod (by decide)), if_neg (hno _ (by decide)),
    if_neg (hno _ (by decide)), if_neg (hmethod (by decide)), if_neg (hmethod (by decide)),
    if_neg (hmethod (by decide)), if_neg (hmethod (by decide)), if_neg (hmethod (by decide)),
    if_neg (by decide)]

/-- **A request for a file** is answered with its content, or it is not found. The connection is
closed when this cannot be said either. -/
theorem request_static (host : Host) {url : CString} (chunks : List (List Char))
    (hurl : "/api/".toList.isPrefixOf url = false) (s : HttpServer) :
    (request env host "GET".toList url chunks).run s = .ok
      (((env.readFile (staticPath env.webRoot url)).map (fileReply url)).or
        (sendErrorJson env host httpNotFound "not found".toList), s) := by
  rw [request_eq, if_neg (by decide), respond, route_static host _ hurl]
  have hfallback : fallback env host "GET".toList url
      = (serveStatic env url).or (sendErrorJson env host httpNotFound "not found".toList) := by
    rw [fallback, hurl]
    exact if_pos ⟨rfl, rfl⟩
  rw [← serveStatic_eq, ← hfallback]
  rfl

/-! ### Where the path leads -/

/-- The characters before the first slash of a text continue the name before it, and the
components behind the slash are followed from there. -/
def laterComponents (text : CString) : List (Component (List Char)) :=
  match text.dropWhile (fun c => c ≠ '/') with
  | [] => []
  | _ :: rest => components rest

theorem resolveText_append (cwd : List (List Char)) {root : CString} (hroot : root ≠ [])
    (text : CString) : resolveText cwd (root ++ text)
      = resolve (resolveText cwd (root ++ text.takeWhile (fun c => c ≠ '/')))
          (laterComponents text) := by
  have hsplit : text.takeWhile (fun c => c ≠ '/') ++ text.dropWhile (fun c => c ≠ '/') = text :=
    List.takeWhile_append_dropWhile
  rw [laterComponents]
  cases hrest : text.dropWhile (fun c => c ≠ '/') with
  | nil =>
      rw [hrest, List.append_nil] at hsplit
      rw [hsplit]
      rfl
  | cons c rest =>
      -- What is dropped begins with a slash: from there on the components are those of the path.
      have hc : c = '/' := by
        have hhead := List.head?_dropWhile_not (fun c => decide (c ≠ '/')) text
        rw [hrest] at hhead
        simpa using hhead
      rw [hrest, hc] at hsplit
      conv_lhs => rw [← hsplit, ← List.append_assoc]
      exact resolveText_append_slash cwd rest (List.append_ne_nil_of_left_ne_nil hroot _)

/-! ### Files inside of the web root -/

/-- The file that `serve_static` opens for a URL is the one that the web root and the URL name,
and it lies inside of the web root. -/
structure Confined (cwd : List (List Char)) (e : Option CString) (url : CString) : Prop where
  whole : staticPath (initWebRoot e) url = configuredRoot e ++ relativeUrl url
  inside : resolveText cwd (configuredRoot e) <+: resolveText cwd (staticPath (initWebRoot e) url)

/-- A URL that begins with a slash climbs out of nothing, or it comes back by the names that it
climbed out of. Without the slash it continues the last name of the root, so it is followed
from the directory that holds the root. -/
def ComesBack (cwd : List (List Char)) (root : CString) : CString → Prop
  | '/' :: rest =>
      (resolveText cwd root).drop
        ((resolveText cwd root).length - (normal (components rest)).climb)
        <+: (normal (components rest)).names
  | rel =>
      let holder := resolveText cwd (root.rdropWhile (fun c => c ≠ '/'))
      let seg := root.rtakeWhile (fun c => c ≠ '/')
      let n := normal (Component.ofText (seg ++ rel.takeWhile (fun c => c ≠ '/')) ::
        laterComponents rel)
      ((Component.ofText seg).enter holder).drop (holder.length - n.climb) <+: n.names

/-- The root and the path fit their buffers, and the URL comes back to the root. -/
structure StaysInside (cwd : List (List Char)) (root rel : CString) : Prop where
  rootFits : root.length ≤ 511
  pathFits : root.length + rel.length ≤ 767
  comesBack : ComesBack cwd root rel

theorem configuredRoot_ne_nil : ∀ e : Option CString, configuredRoot e ≠ []
  | some (_ :: _) => List.cons_ne_nil _ _
  | some [] => List.cons_ne_nil _ _
  | none => List.cons_ne_nil _ _

/-- Two cuts leave a text whole when both parts fit. -/
theorem staticPath_eq_iff (e : Option CString) (url : CString) :
    staticPath (initWebRoot e) url = configuredRoot e ++ relativeUrl url ↔
      (configuredRoot e).length ≤ 511 ∧
        (configuredRoot e).length + (relativeUrl url).length ≤ 767 := by
  show ((configuredRoot e).take 511 ++ relativeUrl url).take 767 = _ ↔ _
  constructor
  · intro h
    have hlen := congrArg List.length h
    rw [List.length_take, List.length_append, List.length_append, List.length_take] at hlen
    omega
  · rintro ⟨hroot, hpath⟩
    rw [List.take_of_length_le hroot, List.take_of_length_le (by simpa using hpath)]

/-- **Where the whole path leads**: below the root exactly when the URL comes back to it. -/
theorem prefix_resolveText_append_iff (cwd : List (List Char)) {root : CString} (hroot : root ≠ [])
    (rel : CString) :
    resolveText cwd root <+: resolveText cwd (root ++ rel) ↔ ComesBack cwd root rel := by
  by_cases hslash : ∃ rest, rel = '/' :: rest
  · obtain ⟨rest, rfl⟩ := hslash
    rw [resolveText_append_slash cwd rest hroot, ComesBack]
    exact prefix_resolve_iff _ _
  · have hcomes : ComesBack cwd root rel = _ := ComesBack.eq_2 cwd root rel fun rest h =>
      hslash ⟨rest, h⟩
    -- The root is a directory and a name in it, which the first name of the URL continues.
    have hsplit : root.rdropWhile (fun c => c ≠ '/') ++ root.rtakeWhile (fun c => c ≠ '/') = root :=
      List.rdropWhile_append_rtakeWhile
    have hholder : ∀ h : root.rdropWhile (fun c => decide (c ≠ '/')) ≠ [],
        (root.rdropWhile (fun c => decide (c ≠ '/'))).getLast h = '/' := by
      intro h
      simpa using List.rdropWhile_last_not (fun c => decide (c ≠ '/')) root h
    have hseg : '/' ∉ root.rtakeWhile (fun c => c ≠ '/') := by
      intro h
      simpa using List.mem_rtakeWhile_imp h
    have hfirst : '/' ∉ rel.takeWhile (fun c => c ≠ '/') := by
      intro h
      simpa using List.mem_takeWhile_imp h
    have hroot' := resolveText_append_segment cwd hholder hseg
    have hrel := resolveText_append_segment cwd hholder
      (fun h => (List.mem_append.mp h).elim hseg hfirst)
    rw [hsplit] at hroot'
    rw [← List.append_assoc, hsplit] at hrel
    rw [hcomes, resolveText_append cwd hroot rel, hrel, hroot']
    exact prefix_enter_resolve_iff _ _ (_ :: _)

/-- **Which files are served**: a `GET` outside of `/api/` opens one file at most, and it is the
one that the URL names inside of the web root exactly when the texts fit their buffers and the
URL comes back to the root. -/
theorem confined_iff (host : Host) (cwd : List (List Char)) (e : Option CString)
    (henv : env.webRoot = initWebRoot e) {url : CString} (chunks : List (List Char))
    (hurl : "/api/".toList.isPrefixOf url = false) (s : HttpServer) :
    (request env host "GET".toList url chunks).run s = .ok
        (((env.readFile (staticPath (initWebRoot e) url)).map (fileReply url)).or
          (sendErrorJson env host httpNotFound "not found".toList), s) ∧
      (Confined cwd e url ↔ StaysInside cwd (configuredRoot e) (relativeUrl url)) := by
  constructor
  · rw [request_static host chunks hurl s, henv]
  · have hinside := prefix_resolveText_append_iff cwd (configuredRoot_ne_nil e) (relativeUrl url)
    constructor
    · rintro ⟨hwhole, hin⟩
      -- The path is whole when neither buffer has cut it, and then the components decide.
      obtain ⟨hrootFits, hpathFits⟩ := (staticPath_eq_iff e url).mp hwhole
      rw [hwhole] at hin
      exact ⟨hrootFits, hpathFits, hinside.mp hin⟩
    · rintro ⟨hrootFits, hpathFits, hback⟩
      have hwhole := (staticPath_eq_iff e url).mpr ⟨hrootFits, hpathFits⟩
      exact ⟨hwhole, hwhole ▸ hinside.mpr hback⟩

/-- An environment with one file, which is outside of the web root. -/
def passwdEnv : HttpEnv :=
  { HttpEnv.knowing .null with
    webRoot := initWebRoot (some "/app/web".toList)
    readFile := fun path =>
      if path = "/app/web/../../etc/passwd".toList then some "root:x:0:0".toList else none }

/-- The server after `node_manager_create`. -/
def createdServer : HttpServer :=
  { world := nodeManagerCreate 1 serverConfigSeedDefaults none, shutdownRequested := false }

/-- A URL that names a file of the web root. -/
theorem confined_index :
    (request passwdEnv .ok "GET".toList "/".toList []).run createdServer
        = .ok (sendErrorJson passwdEnv .ok httpNotFound "not found".toList, createdServer) ∧
      Confined [] (some "/app/web".toList) "/".toList := by
  have hurl : "/api/".toList.isPrefixOf "/".toList = false := by decide
  obtain ⟨hrun, hiff⟩ :=
    confined_iff .ok [] (some "/app/web".toList) (rfl : passwdEnv.webRoot = _) [] hurl createdServer
  have hback : ComesBack [] "/app/web".toList "/index.html".toList := by
    show List.drop _ _ <+: _
    decide
  exact ⟨hrun, hiff.mpr ⟨by decide, by decide, hback⟩⟩

/-- The `..` components of a URL lead out of the web root. -/
theorem not_confined_passwd :
    (request passwdEnv .ok "GET".toList "/../../etc/passwd".toList []).run createdServer
        = .ok (some (fileReply "/../../etc/passwd".toList "root:x:0:0".toList), createdServer) ∧
      resolveText [] (staticPath passwdEnv.webRoot "/../../etc/passwd".toList)
        = ["etc".toList, "passwd".toList] ∧
      ¬ Confined [] (some "/app/web".toList) "/../../etc/passwd".toList := by
  have hurl : "/api/".toList.isPrefixOf "/../../etc/passwd".toList = false := by decide
  refine ⟨?_, by decide, fun h => absurd h.inside (by decide)⟩
  rw [request_static .ok [] hurl createdServer]
  rfl

end SmartFactory.Server
