import SmartFactory.Server.PostBody
import SmartFactory.Proofs.Events
import Mathlib.Data.List.TakeWhile

/-!
# `SmartFactory.Proofs.PostBody`: bodies that come in chunks

`request_run` follows the pointer of a request through its calls. The marker is only ever
compared, every buffer is freed once, and the handlers run once, with the body that
`Server.Http` gives them.

That body depends on how it was cut into chunks, because a NUL ends what `strlen` counts but not
what was received. `chunkingIrrelevant_iff` is the extent of it.
-/

set_option autoImplicit false

namespace SmartFactory.Server.PostBody

/-! ### Strings in buffers -/

/-- A C string ends at its first NUL. -/
theorem cString_cons (c : Char) (cs : List Char) :
    cString (c :: cs) = if c.toNat = 0 then [] else c :: cString cs := by
  rw [cString, List.takeWhile_cons]
  by_cases hc : c.toNat = 0
  · simp [hc]
  · simp [hc, cString]

/-- The string in a buffer ends at its terminator, if not before. -/
theorem cString_append_nul (data : List Char) : cString (data ++ [nul]) = cString data := by
  induction data with
  | nil => rfl
  | cons c data ih => rw [List.cons_append, cString_cons, cString_cons, ih]

/-- What is written behind a string continues it. -/
theorem cString_take_append (content data : List Char) :
    cString (content.take (cString content).length ++ data) = cString content ++ cString data := by
  induction content with
  | nil => rfl
  | cons c content ih =>
      rw [cString_cons]
      split
      · rfl
      · rename_i hc
        rw [List.length_cons, List.take_succ_cons, List.cons_append, cString_cons, if_neg hc, ih]
        rfl

/-! ### The calls of a request -/

/-- Reading the memory leaves it. -/
@[simp] theorem run_get_bind {β : Type} (f : Memory → P β) (s : Memory) :
    (get >>= f).run s = (f s).run s := rfl

/-- A sequence continues in the memory that its first part leaves. -/
theorem run_bind_ok {α β : Type} {x : P α} {f : α → P β} {s s' : Memory} {a : α}
    (h : x.run s = .ok (a, s')) : (x >>= f).run s = (f a).run s' := by
  rw [StateT.run_bind, h]
  rfl

/-- A part of the body has been collected: it is the string in the last buffer, and the earlier
buffers are freed. -/
inductive Collected (body : CString) : Memory → Prop where
  | intro (freed : List (Option (List Char))) (content : List Char)
      (hfreed : ∀ b ∈ freed, b = none) (hbody : cString content = body) :
      Collected body ⟨.buffer freed.length, freed ++ [some content], []⟩

/-- The last buffer is live. -/
theorem live_run (freed : List (Option (List Char))) (content : List Char) (conCls : Pointer)
    (handled : List CString) :
    (live (.buffer freed.length)).run ⟨conCls, freed ++ [some content], handled⟩
      = .ok ((freed.length, content), ⟨conCls, freed ++ [some content], handled⟩) := by
  simp only [live, run_get_bind, List.getElem?_concat_length]
  rfl

/-- The buffer is read as a C string. -/
theorem readString_run (freed : List (Option (List Char))) (content : List Char)
    (conCls : Pointer) (handled : List CString) :
    (readString (.buffer freed.length)).run ⟨conCls, freed ++ [some content], handled⟩
      = .ok (cString content, ⟨conCls, freed ++ [some content], handled⟩) := by
  rw [readString, run_bind_ok (live_run freed content conCls handled)]
  rfl

/-- The buffer is freed. -/
theorem free_run (freed : List (Option (List Char))) (content : List Char) (conCls : Pointer)
    (handled : List CString) :
    (free (.buffer freed.length)).run ⟨conCls, freed ++ [some content], handled⟩
      = .ok ((), ⟨conCls, freed ++ [none], handled⟩) := by
  rw [free, run_bind_ok (live_run freed content conCls handled)]
  have hset : (freed ++ [some content]).set freed.length none = freed ++ [none] := by simp
  show Except.ok ((), (⟨conCls, (freed ++ [some content]).set freed.length none, handled⟩
    : Memory)) = _
  rw [hset]

/-- And the pointer of the connection is cleared. -/
theorem freeConCls_run (freed : List (Option (List Char))) (content : List Char)
    (handled : List CString) :
    freeConCls.run ⟨.buffer freed.length, freed ++ [some content], handled⟩
      = .ok ((), ⟨.null, freed ++ [none], handled⟩) := by
  have hnull : Pointer.buffer freed.length ≠ .null := nofun
  rw [freeConCls, run_get_bind, if_pos hnull, run_bind_ok (free_run freed content _ _)]
  rfl

/-- The first chunk gets a buffer, which replaces the marker. -/
theorem accessHandler_first {chunk : List Char} (hne : chunk ≠ []) :
    ∃ s, (accessHandler chunk).run ⟨.postRecvMarker, [], []⟩ = .ok (false, s) ∧
      Collected (cString chunk) s := by
  refine ⟨⟨.buffer 0, [some (chunk ++ [nul])], []⟩, ?_, ?_⟩
  · simp only [accessHandler, hne, ne_eq, not_false_eq_true, if_true, run_get_bind]
    rfl
  · exact .intro [] _ (by simp) (cString_append_nul chunk)

/-- **Each further chunk** is written behind the string that is there, into a new buffer. -/
theorem accessHandler_chunk {chunk body : List Char} {s : Memory} (hne : chunk ≠ [])
    (h : Collected body s) :
    ∃ s', (accessHandler chunk).run s = .ok (false, s') ∧ Collected (body ++ cString chunk) s' := by
  obtain ⟨freed, content, hfreed, hbody⟩ := h
  refine ⟨⟨.buffer (freed ++ [none]).length, freed ++ [none] ++
    [some (content.take (cString content).length ++ chunk ++ [nul])], []⟩, ?_, ?_⟩
  · have hbuf : Pointer.buffer freed.length ≠ .postRecvMarker := nofun
    -- `strlen` of the old string, `realloc` to a new buffer, and the chunk behind the string. The
    -- old buffer is freed.
    have hread : (readPostBody chunk).run ⟨.buffer freed.length, freed ++ [some content], []⟩
        = .ok (.buffer (freed ++ [none]).length, ⟨.buffer (freed ++ [none]).length,
          freed ++ [none] ++ [some (content.take (cString content).length ++ chunk ++ [nul])],
          []⟩) := by
      rw [readPostBody, run_get_bind, if_neg nofun, if_neg hne, strlen, bind_assoc,
        run_bind_ok (readString_run freed content _ _), pure_bind, realloc, bind_assoc,
        run_bind_ok (live_run freed content _ _), bind_assoc,
        run_bind_ok (free_run freed content _ _)]
      rfl
    rw [accessHandler, if_pos hne, run_get_bind, if_neg hbuf]
    show (readPostBody chunk >>= fun _ => pure false).run _ = _
    rw [run_bind_ok hread]
    rfl
  · refine .intro _ _ ?_ ?_
    · intro b hb
      rw [List.mem_append, List.mem_singleton] at hb
      exact hb.elim (hfreed b) id
    · rw [List.append_assoc, cString_take_append, cString_append_nul, hbody]

/-- The call without data runs the handlers on what was collected and frees the buffer. -/
theorem accessHandler_end {body : CString} {s : Memory} (h : Collected body s) :
    ∃ heap, (accessHandler []).run s = .ok (true, ⟨.null, heap, [body]⟩) ∧
      ∀ b ∈ heap, b = none := by
  obtain ⟨freed, content, hfreed, hbody⟩ := h
  refine ⟨freed ++ [none], ?_, ?_⟩
  · have hbuf : Pointer.buffer freed.length ≠ .postRecvMarker := nofun
    have hnull : Pointer.buffer freed.length ≠ .null := nofun
    have hread : (readPostBody []).run ⟨.buffer freed.length, freed ++ [some content], []⟩
        = .ok (.buffer freed.length, ⟨.buffer freed.length, freed ++ [some content], []⟩) := by
      rw [readPostBody, run_get_bind, if_neg hnull, if_pos rfl]
      rfl
    rw [accessHandler, if_neg (by simp), run_get_bind, if_neg hnull, run_get_bind, if_neg hbuf]
    show (readPostBody [] >>= _).run _ = _
    rw [run_bind_ok hread, run_bind_ok (readString_run freed content _ _), hbody]
    -- The handlers have run, and then the buffer is freed whatever they answer.
    show (freeConCls >>= fun _ => pure true).run
      ⟨.buffer freed.length, freed ++ [some content], [body]⟩ = _
    rw [run_bind_ok (freeConCls_run freed content _)]
    rfl
  · intro b hb
    rw [List.mem_append, List.mem_singleton] at hb
    exact hb.elim (hfreed b) id

/-- The calls after the first chunk. By induction over the chunks, which carries what was
collected. -/
theorem serve_run {chunks : List (List Char)} (hne : ∀ chunk ∈ chunks, chunk ≠ [])
    {body : CString} {s : Memory} (h : Collected body s) :
    ∃ heap, (serve (chunks ++ [[]])).run s
      = .ok ((), ⟨.null, heap, [body ++ chunks.flatMap cString]⟩)
      ∧ ∀ b ∈ heap, b = none := by
  induction chunks generalizing body s with
  | nil =>
      obtain ⟨heap, hend, hfreed⟩ := accessHandler_end h
      refine ⟨heap, ?_, hfreed⟩
      rw [List.nil_append, serve, run_bind_ok hend, List.flatMap_nil, List.append_nil]
      rfl
  | cons chunk chunks ih =>
      rw [List.forall_mem_cons] at hne
      obtain ⟨s', hchunk, h'⟩ := accessHandler_chunk hne.1 h
      obtain ⟨heap, hrest, hfreed⟩ := ih hne.2 h'
      refine ⟨heap, ?_, hfreed⟩
      rw [List.cons_append, serve, run_bind_ok hchunk]
      show (serve (chunks ++ [[]])).run s' = _
      rw [hrest, List.flatMap_cons, List.append_assoc]

/-- Chunks that are not empty all belong to the body. -/
theorem bodyOf_eq {chunks : List (List Char)} (hne : ∀ chunk ∈ chunks, chunk ≠ []) :
    bodyOf chunks = chunks.flatMap cString := by
  have hall : chunks.takeWhile (fun chunk => chunk ≠ []) = chunks := by
    rw [List.takeWhile_eq_self_iff]
    intro chunk hchunk
    simpa using hne chunk hchunk
  rw [bodyOf, hall]

/-- **A request** ends without a fault, whatever its chunks are. The handlers have run once, with
the body that `Server.Http` gives them, and nothing is left of the buffers. -/
theorem request_run {chunks : List (List Char)} (hne : ∀ chunk ∈ chunks, chunk ≠ []) :
    ∃ heap, request chunks = .ok ⟨.null, heap, [bodyOf chunks]⟩ ∧ ∀ b ∈ heap, b = none := by
  rw [bodyOf_eq hne]
  have hmark : (accessHandler []).run ⟨.null, [], []⟩
      = .ok (false, ⟨.postRecvMarker, [], []⟩) := rfl
  -- It is enough to follow the calls after the one that announces the request.
  suffices hserve : ∃ heap, (serve (chunks ++ [[]])).run ⟨.postRecvMarker, [], []⟩
      = .ok ((), ⟨.null, heap, [chunks.flatMap cString]⟩) ∧ ∀ b ∈ heap, b = none by
    obtain ⟨heap, hrun, hfreed⟩ := hserve
    refine ⟨heap, ?_, hfreed⟩
    rw [request, List.cons_append, serve, run_bind_ok hmark]
    show ((serve (chunks ++ [[]])).run ⟨.postRecvMarker, [], []⟩ >>= _) = _
    rw [hrun]
    rfl
  cases chunks with
  | nil => exact ⟨[none], rfl, by simp⟩
  | cons chunk chunks =>
      rw [List.forall_mem_cons] at hne
      obtain ⟨s, hfirst, h⟩ := accessHandler_first hne.1
      obtain ⟨heap, hrest, hfreed⟩ := serve_run hne.2 h
      refine ⟨heap, ?_, hfreed⟩
      rw [List.cons_append, serve, run_bind_ok hfirst]
      show (serve (chunks ++ [[]])).run s = _
      rw [hrest, List.flatMap_cons]

/-! ### The law and its extent -/

/-- The chunks are a way to cut the body. -/
def Splits (body : List Char) (chunks : List (List Char)) : Prop :=
  chunks.flatten = body ∧ ∀ chunk ∈ chunks, chunk ≠ []

/-- The handlers run once and get the same string however the body is cut, and no pointer is used
that is not the one of a live buffer. -/
def ChunkingIrrelevant (body : List Char) : Prop :=
  ∃ b, ∀ chunks, Splits body chunks → ∃ s, request chunks = .ok s ∧ s.handled = [b]

/-- Nothing but NULs follows a NUL. -/
def EndsAtNul (body : List Char) : Prop :=
  ∀ c ∈ body.dropWhile (fun c => c.toNat ≠ 0), c.toNat = 0

/-- Whether a text ends at its first NUL, from the front. -/
theorem endsAtNul_cons (c : Char) (body : List Char) : EndsAtNul (c :: body) ↔
    if c.toNat = 0 then ∀ c ∈ body, c.toNat = 0 else EndsAtNul body := by
  rw [EndsAtNul, List.dropWhile_cons]
  by_cases hc : c.toNat = 0
  · simp [hc]
  · simp [hc, EndsAtNul]

/-- A text of NULs is the empty C string. -/
theorem cString_of_nuls {body : List Char} (h : ∀ c ∈ body, c.toNat = 0) : cString body = [] := by
  cases body with
  | nil => rfl
  | cons c body => rw [cString_cons, if_pos (h c (List.mem_cons_self ..))]

/-- A body that ends at its first NUL may be cut anywhere. -/
theorem cString_append {a b : List Char} (h : EndsAtNul (a ++ b)) :
    cString (a ++ b) = cString a ++ cString b := by
  induction a with
  | nil => rfl
  | cons c a ih =>
      rw [List.cons_append, endsAtNul_cons] at h
      rw [List.cons_append, cString_cons, cString_cons]
      split at h
      · rename_i hc
        rw [if_pos hc, if_pos hc, List.nil_append, cString_of_nuls]
        exact fun c hcb => h c (List.mem_append_right a hcb)
      · rename_i hc
        rw [if_neg hc, if_neg hc, ih h, List.cons_append]

/-- The end of a text that ends at its first NUL does so too. -/
theorem EndsAtNul.right {a b : List Char} (h : EndsAtNul (a ++ b)) : EndsAtNul b := by
  induction a with
  | nil => exact h
  | cons c a ih =>
      rw [List.cons_append, endsAtNul_cons] at h
      split at h
      · intro c' hc'
        exact h c' (List.mem_append_right a ((List.dropWhile_suffix _).subset hc'))
      · exact ih h

/-- By induction over the chunks, such a body is collected whole. -/
theorem flatMap_cString {chunks : List (List Char)} (h : EndsAtNul chunks.flatten) :
    chunks.flatMap cString = cString chunks.flatten := by
  induction chunks with
  | nil => rfl
  | cons chunk chunks ih =>
      rw [List.flatten_cons] at h ⊢
      rw [List.flatMap_cons, ih h.right, cString_append h]

/-- What is collected of a body in one chunk, and of the same body cut before a byte behind a
NUL, is not the same. -/
theorem exists_cut {body : List Char} (h : ¬ EndsAtNul body) :
    ∃ a b, a ++ b = body ∧ a ≠ [] ∧ b ≠ [] ∧ cString a ++ cString b ≠ cString body := by
  induction body with
  | nil => exact absurd (fun _ hc => nomatch hc) h
  | cons c body ih =>
      rw [endsAtNul_cons] at h
      split at h
      · rename_i hc
        -- The first byte is a NUL: cut before the first byte that is none.
        obtain ⟨x, hx, hne⟩ : ∃ x ∈ body, x.toNat ≠ 0 := by simpa using h
        obtain ⟨l, r, rfl⟩ := List.append_of_mem hx
        refine ⟨c :: l, x :: r, rfl, by simp, by simp, ?_⟩
        simp [cString_cons, hc, hne]
      · rename_i hc
        obtain ⟨a, b, rfl, -, hb, hcut⟩ := ih h
        refine ⟨c :: a, b, rfl, by simp, hb, ?_⟩
        rw [cString_cons, if_neg hc, cString_cons, if_neg hc]
        simpa using hcut

/-- A body that goes on behind a NUL is read differently when it is cut there. -/
theorem endsAtNul_of_chunkingIrrelevant {body : List Char} (h : ChunkingIrrelevant body) :
    EndsAtNul body := by
  by_contra hnot
  obtain ⟨a, b, hab, ha, hb, hcut⟩ := exists_cut hnot
  obtain ⟨same, hsame⟩ := h
  have hgets : ∀ chunks, Splits body chunks → bodyOf chunks = same := by
    intro chunks hsplits
    obtain ⟨s, hs, hhandled⟩ := hsame chunks hsplits
    obtain ⟨heap, hrun, -⟩ := request_run hsplits.2
    obtain rfl := Except.ok.inj (hrun.symm.trans hs)
    simpa using hhandled
  have hwhole : Splits body [body] := by
    refine ⟨by simp, fun chunk hchunk => ?_⟩
    rw [List.mem_singleton.mp hchunk, ← hab]
    exact List.append_ne_nil_of_left_ne_nil ha b
  -- In one piece the body ends at its NUL; cut there, the second piece is read as well.
  have htwo : Splits body [a, b] := by
    refine ⟨by simpa using hab, fun chunk hchunk => ?_⟩
    rcases List.mem_pair.mp hchunk with rfl | rfl
    · exact ha
    · exact hb
  have heq := (hgets _ htwo).trans (hgets _ hwhole).symm
  rw [bodyOf_eq htwo.2, bodyOf_eq hwhole.2] at heq
  exact hcut (by simpa using heq)

/-- **The extent of it.** Every request with chunks runs its handlers once and uses only pointers
to live buffers. What the handlers get does not depend on the chunks exactly when nothing but
NULs follows a NUL in the body. -/
theorem chunkingIrrelevant_iff (body : List Char) :
    (∀ chunks, Splits body chunks →
      ∃ heap, request chunks = .ok ⟨.null, heap, [bodyOf chunks]⟩ ∧ ∀ b ∈ heap, b = none) ∧
    (ChunkingIrrelevant body ↔ EndsAtNul body) := by
  refine ⟨fun _ hsplits => request_run hsplits.2, endsAtNul_of_chunkingIrrelevant, fun h => ?_⟩
  refine ⟨cString body, ?_⟩
  rintro chunks ⟨rfl, hne⟩
  obtain ⟨heap, hrun, -⟩ := request_run hne
  refine ⟨_, hrun, ?_⟩
  rw [bodyOf_eq hne, flatMap_cString h]

/-- A body of three bytes, the second of which is a NUL: in one chunk it is read as `a`, and cut
behind the NUL as `ab`. -/
theorem not_chunkingIrrelevant_nul :
    (request [['a', nul, 'b']]).toOption.map Memory.handled = some ["a".toList] ∧
    (request [['a', nul], ['b']]).toOption.map Memory.handled = some ["ab".toList] ∧
    ¬ ChunkingIrrelevant ['a', nul, 'b'] := by
  refine ⟨by decide, by decide, fun h => ?_⟩
  have hends := endsAtNul_of_chunkingIrrelevant h
  exact absurd (hends 'b' (by decide)) (by decide)

end SmartFactory.Server.PostBody
