import SmartFactory.Lib.ThreadPool
import SmartFactory.Server.PostBody

/-!
# `SmartFactory.Server.Uploads`: many requests with bodies at a time

The HTTP library serves all connections in one thread. So the calls of `access_handler` come one
after the other, but those of several requests come in any order. Each request has its own
`*con_cls`, and all of them have one heap. `SmartFactory.Pool` interleaves the requests: the heap is
the shared state, and a request is a thread.

A connection may go away before its request is answered. The program registers no callback for this
(`MHD_OPTION_NOTIFY_COMPLETED`), so nothing of it is called then. Allocations succeed, as in
`SmartFactory.Server.PostBody`.
-/

set_option autoImplicit false

namespace SmartFactory.Server.PostBody

/-- The buffers of all requests. A freed one is `none`. -/
abbrev Heap := List (Option (List Char))

/-- How far a `PUT` or `POST` request has got. -/
inductive Stage where
  | headers
  | body
  | answered
  | aborted
  | crashed (fault : MemFault)
  deriving DecidableEq

/-- A request. `uploaded` are the chunks that it has sent so far, which the code does not keep. -/
structure Upload where
  conCls : Pointer
  stage : Stage
  uploaded : List (List Char)
  handled : List CString
  deriving DecidableEq

/-- A request whose header has come. -/
def Upload.init : Upload := ⟨.null, .headers, [], []⟩

/-- What the library does for a request: it calls the access handler, with a chunk of the body or
with no data, or it drops the connection. -/
inductive Action where
  | call (uploadData : List Char)
  | abort
  deriving DecidableEq

/-- The first call has no data. Later ones have a chunk each, and the last one has none. -/
def Upload.accepts (u : Upload) (uploadData : List Char) : Bool :=
  u.stage = .headers && uploadData = [] || u.stage = .body

/-- A call of the access handler for one request, or its end. -/
def execUpload (heap : Heap) (u : Upload) : Action → Option (Heap × Upload × List Upload)
  | .call uploadData =>
      if u.accepts uploadData then
        match (accessHandler uploadData).run ⟨u.conCls, heap, u.handled⟩ with
        | .error fault => some (heap, { u with stage := .crashed fault }, [])
        | .ok (answered, m) =>
            some (m.heap,
              { conCls := m.conCls
                stage := if answered then .answered else .body
                uploaded := if uploadData = [] then u.uploaded else u.uploaded ++ [uploadData]
                handled := m.handled }, [])
      else none
  | .abort =>
      -- The library forgets `*con_cls`.
      if u.stage = .headers ∨ u.stage = .body then some (heap, { u with stage := .aborted }, [])
      else none

/-- The HTTP interface: the heap and the requests. -/
abbrev Uploads := Pool Heap Upload

/-- A new request, a call or an abort. -/
abbrev UploadMove := SmartFactory.Move Upload Action

/-- One move. -/
def stepUploads (p : Uploads) (m : UploadMove) : Option Uploads :=
  p.move (fun u => u = Upload.init) execUpload m

/-- The interface before the first request. -/
def bootUploads : Uploads := ⟨[], []⟩

/-- How many buffers have not been freed. -/
def liveBuffers (heap : Heap) : Nat := heap.countP Option.isSome

/-- The request has sent a part of a body and has not been answered. -/
def Upload.unanswered (u : Upload) : Bool := u.stage ≠ .answered && u.uploaded ≠ []

end SmartFactory.Server.PostBody
