import SmartFactory.Server.Http

/-!
# `SmartFactory.Server.PostBody`: the memory of a request with a body

`Server.Http` gives the calls of a request the string that they share. This module is the same
part of `http_server.c` one level down: `*con_cls` is a pointer that may also be
`POST_RECV_MARKER`, the string is in a buffer of the heap, and its length is found by `strlen`.

A pointer that is dereferenced, resized or freed has to refer to a live buffer. `realloc` gives
the buffer a new address and frees the old one, so that a pointer to the old one would be noticed.
Allocations succeed.
-/

set_option autoImplicit false

namespace SmartFactory.Server.PostBody

/-- What a `char *` of the request refers to. Buffers are numbered in the order of their
allocation. -/
inductive Pointer where
  | null
  | postRecvMarker
  | buffer (id : Nat)
  deriving DecidableEq

/-- What a pointer was that had to refer to a live buffer. -/
inductive MemFault where
  | null
  | marker
  | freed
  deriving DecidableEq

/-- What the calls of one request share: `*con_cls`, the heap, in which a freed buffer is
`none`, and the bodies that the route table got. -/
structure Memory where
  conCls : Pointer
  heap : List (Option (List Char))
  handled : List CString
  deriving DecidableEq

abbrev P := StateT Memory (Except MemFault)

/-- `*con_cls = p`. -/
def setConCls (p : Pointer) : P Unit := modify fun s => { s with conCls := p }

/-- The byte behind every string. -/
def nul : Char := Char.ofNat 0

/-! ### The heap -/

/-- `malloc`, and what is written into the buffer at once. -/
def malloc (content : List Char) : P Pointer :=
  modifyGet fun s => (.buffer s.heap.length, { s with heap := s.heap ++ [some content] })

/-- The number and the content of the live buffer that a pointer refers to. -/
def live (p : Pointer) : P (Nat × List Char) := do
  match p with
  | .null => throw .null
  | .postRecvMarker => throw .marker
  | .buffer id =>
      match (← get).heap[id]? with
      | some (some content) => return (id, content)
      | _ => throw .freed

/-- A buffer, read as a string. -/
def readString (p : Pointer) : P CString := do
  let (_, content) ← live p
  return cString content

/-- `strlen`. -/
def strlen (p : Pointer) : P Nat := do
  let s ← readString p
  return s.length

/-- `free`. -/
def free (p : Pointer) : P Unit := do
  let (id, _) ← live p
  modify fun s => { s with heap := s.heap.set id none }

/-- `realloc`, and what is written into the larger buffer. -/
def realloc (p : Pointer) (write : List Char → List Char) : P Pointer := do
  let (_, content) ← live p
  free p
  malloc (write content)

/-! ### `http_server.c` -/

/-- `read_post_body`. -/
def readPostBody (uploadData : List Char) : P Pointer := do
  let conCls := (← get).conCls
  if conCls = .null then
    let buf ← malloc (uploadData ++ [nul])
    setConCls buf
    return buf
  else if uploadData = [] then return conCls
  else
    -- The length of what is there: it ends at the first NUL, also at one of the body.
    let old ← strlen conCls
    let buf ← realloc conCls fun content => content.take old ++ uploadData ++ [nul]
    setConCls buf
    return buf

/-- `free_con_cls`. -/
def freeConCls : P Unit := do
  let conCls := (← get).conCls
  if conCls ≠ .null then
    free conCls
    setConCls .null

/-- `access_handler` for `PUT` and `POST`. The result is whether the handlers have run; whatever
they answer, the buffer is freed afterwards. -/
def accessHandler (uploadData : List Char) : P Bool := do
  if uploadData ≠ [] then
    if (← get).conCls = .postRecvMarker then setConCls .null
    let _ ← readPostBody uploadData
    return false
  else if (← get).conCls = .null then
    -- The first call of a request, which comes with its headers only.
    setConCls .postRecvMarker
    return false
  else
    if (← get).conCls = .postRecvMarker then setConCls .null
    let b ← readPostBody []
    let body ← readString b
    modify fun s => { s with handled := s.handled ++ [body] }
    freeConCls
    return true

/-- The calls of a request, one for each list of bytes, until the handlers have run. -/
def serve : List (List Char) → P Unit
  | [] => return
  | uploadData :: rest => do
      if !(← accessHandler uploadData) then serve rest

/-- A request with the chunks of its body, and what is left of it. -/
def request (chunks : List (List Char)) : Except MemFault Memory := do
  let (_, s) ← (serve ([] :: chunks ++ [[]])).run ⟨.null, [], []⟩
  return s

end SmartFactory.Server.PostBody
