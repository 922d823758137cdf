import SmartFactory.Server.Uploads
import SmartFactory.Proofs.PostBody

/-!
# `SmartFactory.Proofs.Uploads`: requests do not disturb each other

However the calls of the requests are interleaved, no call uses a pointer that is not that of its
own live buffer, and the handlers of a request run once, with its own body (`uploads_of_run`). The
buffers that are not freed are exactly those of the requests that have sent a part of a body and
were not answered. A request in progress is one of them for a while, and an aborted one for ever.

A call for one request changes no buffer of another one (`Touches`), so what a request has collected
is still there at its next call.
-/

set_option autoImplicit false

namespace SmartFactory.Server.PostBody

variable {heap heap' : Heap} {u u' : Upload} {id : Nat} {content : List Char}
variable {conCls : Pointer} {handled : List CString}

/-! ### The heap -/

/-- The buffer is live, with this content. -/
def Live (heap : Heap) (id : Nat) (content : List Char) : Prop := heap[id]? = some (some content)

/-- A live buffer is found. -/
theorem run_live (h : Live heap id content) :
    (live (.buffer id)).run ⟨conCls, heap, handled⟩
      = .ok ((id, content), ⟨conCls, heap, handled⟩) := by
  rw [live, run_get_bind, h]
  rfl

/-- It is read as a C string. -/
theorem run_readString (h : Live heap id content) :
    (readString (.buffer id)).run ⟨conCls, heap, handled⟩
      = .ok (cString content, ⟨conCls, heap, handled⟩) := by
  rw [readString, run_bind_ok (run_live h)]
  rfl

/-- It can be freed. -/
theorem run_free (h : Live heap id content) :
    (free (.buffer id)).run ⟨conCls, heap, handled⟩
      = .ok ((), ⟨conCls, heap.set id none, handled⟩) := by
  rw [free, run_bind_ok (run_live h)]
  rfl

/-! ### The calls of one request -/

/-- The first chunk gets a buffer of its own. -/
theorem call_first {chunk : List Char} (hne : chunk ≠ []) :
    (accessHandler chunk).run ⟨.postRecvMarker, heap, handled⟩
      = .ok (false, ⟨.buffer heap.length, heap ++ [some (chunk ++ [nul])], handled⟩) := by
  simp only [accessHandler, hne, ne_eq, not_false_eq_true, if_true, run_get_bind]
  rfl

/-- The old buffer is freed and the new one is the last. -/
theorem call_chunk {chunk : List Char} (hne : chunk ≠ []) (h : Live heap id content) :
    (accessHandler chunk).run ⟨.buffer id, heap, handled⟩
      = .ok (false, ⟨.buffer heap.length, heap.set id none ++
          [some (content.take (cString content).length ++ chunk ++ [nul])], handled⟩) := by
  have hbuf : Pointer.buffer id ≠ .postRecvMarker := Pointer.noConfusion
  have hnull : Pointer.buffer id ≠ .null := Pointer.noConfusion
  have hread : (readPostBody chunk).run ⟨.buffer id, heap, handled⟩
      = .ok (.buffer heap.length, ⟨.buffer heap.length, heap.set id none ++
          [some (content.take (cString content).length ++ chunk ++ [nul])], handled⟩) := by
    -- `strlen` reads the buffer, and `realloc` reads it once more before it frees it.
    rw [readPostBody, run_get_bind, if_neg hnull, if_neg hne, strlen, bind_assoc,
      run_bind_ok (run_readString h), pure_bind, realloc, bind_assoc, run_bind_ok (run_live h),
      bind_assoc, run_bind_ok (run_free h)]
    show Except.ok (Pointer.buffer (heap.set id none).length,
      (⟨.buffer (heap.set id none).length, _, handled⟩ : Memory)) = _
    rw [List.length_set]
  rw [accessHandler, if_pos hne, run_get_bind, if_neg hbuf]
  show (readPostBody chunk >>= fun _ => pure false).run _ = _
  rw [run_bind_ok hread]
  rfl

/-- The handlers run and the buffer is freed. -/
theorem answer_run (h : Live heap id content) {before : Heap} {p : Pointer}
    (hmarker : p ≠ .null)
    (hread : (readPostBody []).run ⟨if p = .postRecvMarker then .null else p, before, handled⟩
      = .ok (.buffer id, ⟨.buffer id, heap, handled⟩)) :
    (accessHandler []).run ⟨p, before, handled⟩
      = .ok (true, ⟨.null, heap.set id none, handled ++ [cString content]⟩) := by
  have hnull : Pointer.buffer id ≠ .null := Pointer.noConfusion
  have hrest : (readPostBody [] >>= fun b => do
      let body ← readString b
      modify fun s => { s with handled := s.handled ++ [body] }
      freeConCls
      return true).run ⟨if p = .postRecvMarker then .null else p, before, handled⟩
      = .ok (true, ⟨.null, heap.set id none, handled ++ [cString content]⟩) := by
    rw [run_bind_ok hread, run_bind_ok (run_readString h)]
    show (freeConCls >>= fun _ => pure true).run
      ⟨.buffer id, heap, handled ++ [cString content]⟩ = _
    rw [freeConCls, bind_assoc, run_get_bind, if_pos hnull, bind_assoc, run_bind_ok (run_free h)]
    rfl
  rw [accessHandler, if_neg (by simp), run_get_bind, if_neg hmarker, run_get_bind]
  -- The marker is replaced by a null pointer before the body is read.
  by_cases hp : p = .postRecvMarker
  · rw [if_pos hp] at hrest ⊢
    exact hrest
  · rw [if_neg hp] at hrest ⊢
    exact hrest

/-- Without a chunk the handlers get the empty string, in a buffer of its own. -/
theorem call_empty :
    (accessHandler []).run ⟨.postRecvMarker, heap, handled⟩
      = .ok (true, ⟨.null, heap ++ [none], handled ++ [[]]⟩) := by
  have hlive : Live (heap ++ [some [nul]]) heap.length [nul] := List.getElem?_concat_length
  have hread : (readPostBody []).run ⟨.null, heap, handled⟩
      = .ok (.buffer heap.length, ⟨.buffer heap.length, heap ++ [some [nul]], handled⟩) := rfl
  have hset : (heap ++ [some [nul]]).set heap.length none = heap ++ [none] := by simp
  rw [← hset]
  exact answer_run hlive Pointer.noConfusion hread

/-- The call without data hands the body over and frees the buffer. -/
theorem call_end (h : Live heap id content) :
    (accessHandler []).run ⟨.buffer id, heap, handled⟩
      = .ok (true, ⟨.null, heap.set id none, handled ++ [cString content]⟩) := by
  have hnull : Pointer.buffer id ≠ .null := Pointer.noConfusion
  refine answer_run h hnull ?_
  rw [if_neg Pointer.noConfusion, readPostBody, run_get_bind, if_neg hnull, if_pos rfl]
  rfl

/-! ### Buffers of others -/

/-- A buffer lives on when another one is allocated. -/
theorem Live.append (h : Live heap id content) (more : Heap) : Live (heap ++ more) id content := by
  obtain ⟨hlt, -⟩ := List.getElem?_eq_some_iff.mp h
  rw [Live, List.getElem?_append_left hlt]
  exact h

/-- And when another one is freed. -/
theorem Live.set_of_ne (h : Live heap id content) {k : Nat} (hne : k ≠ id) :
    Live (heap.set k none) id content := by
  rw [Live, List.getElem?_set_ne hne]
  exact h

/-- The number of live buffers after an allocation. -/
theorem liveBuffers_append (b : Option (List Char)) :
    liveBuffers (heap ++ [b]) = liveBuffers heap + if b.isSome then 1 else 0 := by
  rw [liveBuffers, List.countP_append, List.countP_singleton]
  rfl

/-- And after a `free`. -/
theorem liveBuffers_free (h : Live heap id content) :
    liveBuffers (heap.set id none) + 1 = liveBuffers heap := by
  obtain ⟨hlt, hget⟩ := List.getElem?_eq_some_iff.mp h
  have hpos : 0 < heap.countP Option.isSome :=
    List.countP_pos_iff.mpr ⟨some content, List.mem_of_getElem? h, rfl⟩
  rw [liveBuffers, liveBuffers, List.countP_set hlt, hget]
  simp only [Option.isSome_some, if_true, Option.isSome_none, Bool.false_eq_true, if_false]
  omega

/-- What a call for the request `u` does to the buffers: those of others are kept, and a new buffer
of its own is really new. -/
structure Touches (heap heap' : Heap) (u u' : Upload) : Prop where
  kept : ∀ id content, Live heap id content → u.conCls ≠ .buffer id → Live heap' id content
  own : ∀ id, u'.conCls = .buffer id → u.conCls = .buffer id ∨ heap.length ≤ id
  live : liveBuffers heap' + u.unanswered.toNat = liveBuffers heap + u'.unanswered.toNat

/-- An upload that leaves the heap as it is touches no buffer. -/
theorem Touches.idle (hown : ∀ id, u'.conCls = .buffer id → u.conCls = .buffer id)
    (hunanswered : u'.unanswered = u.unanswered) : Touches heap heap u u' where
  kept _ _ hlive _ := hlive
  own id hid := .inl (hown id hid)
  live := by rw [hunanswered]

/-- A call that has a new buffer. -/
theorem Touches.append {b : Option (List Char)}
    (hown : ∀ id, u'.conCls = .buffer id → heap.length ≤ id)
    (hcount : u'.unanswered.toNat = u.unanswered.toNat + if b.isSome then 1 else 0) :
    Touches heap (heap ++ [b]) u u' where
  kept _ _ hlive _ := hlive.append _
  own id hid := .inr (hown id hid)
  live := by
    rw [liveBuffers_append, hcount]
    omega

/-- A call that frees the buffer of the request. -/
theorem Touches.free (hlive : Live heap id content) (hid : u.conCls = .buffer id)
    (hown : ∀ k, u'.conCls = .buffer k → heap.length ≤ k)
    (hcount : u.unanswered.toNat = u'.unanswered.toNat + 1) :
    Touches heap (heap.set id none) u u' where
  kept k _ hk hother := hk.set_of_ne fun hsame => hother (hsame ▸ hid)
  own k hk := .inr (hown k hk)
  live := by
    have hfree := liveBuffers_free hlive
    omega

/-- A call that frees the buffer of the request and has a new one. -/
theorem Touches.replace (hlive : Live heap id content) (hid : u.conCls = .buffer id)
    {content' : List Char} (hown : ∀ k, u'.conCls = .buffer k → heap.length ≤ k)
    (hcount : u'.unanswered = u.unanswered) :
    Touches heap (heap.set id none ++ [some content']) u u' where
  kept k _ hk hother := (hk.set_of_ne fun hsame => hother (hsame ▸ hid)).append _
  own k hk := .inr (hown k hk)
  live := by
    have hfree := liveBuffers_free hlive
    rw [liveBuffers_append, hcount, Option.isSome_some, if_pos rfl]
    omega

/-- The states of a request that has gone well so far. -/
inductive Upload.Fine (heap : Heap) : Upload → Prop
  | headers : Fine heap ⟨.null, .headers, [], []⟩
  | announced : Fine heap ⟨.postRecvMarker, .body, [], []⟩
  | collecting {id content chunks} (hlive : Live heap id content) (hsent : chunks ≠ [])
      (hne : ∀ chunk ∈ chunks, chunk ≠ []) (hcontent : cString content = bodyOf chunks) :
      Fine heap ⟨.buffer id, .body, chunks, []⟩
  | answered {chunks} (hne : ∀ chunk ∈ chunks, chunk ≠ []) :
      Fine heap ⟨.null, .answered, chunks, [bodyOf chunks]⟩
  | gone {p} (hp : p = .null ∨ p = .postRecvMarker) : Fine heap ⟨p, .aborted, [], []⟩
  | leaked {id content chunks} (hlive : Live heap id content) (hsent : chunks ≠ []) :
      Fine heap ⟨.buffer id, .aborted, chunks, []⟩

/-- One more chunk that is not empty. -/
theorem concat_ne {chunks : List (List Char)} {chunk : List Char}
    (hne : ∀ c ∈ chunks, c ≠ []) (h : chunk ≠ []) : ∀ c ∈ chunks ++ [chunk], c ≠ [] := by
  intro c hc
  rcases List.mem_append.mp hc with hc | hc
  · exact hne c hc
  · exact List.mem_singleton.mp hc ▸ h

/-- One more chunk adds its text up to the first NUL. -/
theorem bodyOf_concat {chunks : List (List Char)} {chunk : List Char}
    (hne : ∀ c ∈ chunks, c ≠ []) (h : chunk ≠ []) :
    bodyOf (chunks ++ [chunk]) = bodyOf chunks ++ cString chunk := by
  rw [bodyOf_eq (concat_ne hne h), bodyOf_eq hne, List.flatMap_append, List.flatMap_singleton]

/-- **One call** of the access handler. -/
theorem exec_call {uploadData : List Char} {new : List Upload} (hu : u.Fine heap)
    (haccepts : u.accepts uploadData = true)
    (h : execUpload heap u (.call uploadData) = some (heap', u', new)) :
    new = [] ∧ u'.Fine heap' ∧ Touches heap heap' u u' := by
  have hnone : ∀ c ∈ ([] : List (List Char)), c ≠ [] := fun _ hc => absurd hc List.not_mem_nil
  rw [execUpload, if_pos haccepts] at h
  cases hu with
  | headers =>
      have hdata : uploadData = [] := by simpa [Upload.accepts] using haccepts
      subst hdata
      cases h
      exact ⟨rfl, .announced, .idle (fun _ hid => Pointer.noConfusion hid) rfl⟩
  | announced =>
      by_cases hdata : uploadData = []
      · subst hdata
        rw [call_empty] at h
        cases h
        exact ⟨rfl, .answered hnone, .append (fun _ hid => Pointer.noConfusion hid) rfl⟩
      · rw [call_first hdata] at h
        simp only [Bool.false_eq_true, if_false, hdata, List.nil_append] at h
        cases h
        have hbody : cString (uploadData ++ [nul]) = bodyOf [uploadData] := by
          rw [cString_append_nul]
          exact (bodyOf_concat hnone hdata).symm
        refine ⟨rfl, .collecting List.getElem?_concat_length (List.cons_ne_nil _ _) ?_ hbody,
          .append ?_ rfl⟩
        · exact concat_ne hnone hdata
        · rintro id ⟨⟩
          exact Nat.le_refl _
  | @collecting id content chunks hlive hsent hne hcontent =>
      -- The request holds a buffer, with a part of a body.
      have hpending : Upload.unanswered ⟨.buffer id, .body, chunks, []⟩ = true := by
        simpa [Upload.unanswered] using hsent
      by_cases hdata : uploadData = []
      · subst hdata
        rw [call_end hlive] at h
        simp only [if_true, List.nil_append, hcontent] at h
        cases h
        refine ⟨rfl, .answered hne, .free hlive rfl (fun _ hid => Pointer.noConfusion hid) ?_⟩
        rw [hpending]
        rfl
      · rw [call_chunk hdata hlive] at h
        simp only [Bool.false_eq_true, if_false, hdata] at h
        cases h
        have hnew (b : Option (List Char)) : (heap.set id none ++ [b])[heap.length]? = some b := by
          rw [List.getElem?_append_right (by rw [List.length_set]), List.length_set,
            Nat.sub_self]
          rfl
        have hbody : cString (content.take (cString content).length ++ uploadData ++ [nul])
            = bodyOf (chunks ++ [uploadData]) := by
          rw [List.append_assoc, cString_take_append, cString_append_nul, hcontent,
            bodyOf_concat hne hdata]
        refine ⟨rfl, .collecting (hnew _) (List.concat_ne_nil _ _) (concat_ne hne hdata) hbody,
          .replace hlive rfl ?_ ?_⟩
        · rintro k ⟨⟩
          exact Nat.le_refl _
        · rw [hpending]
          simp [Upload.unanswered]
  | answered => simp [Upload.accepts] at haccepts
  | gone => simp [Upload.accepts] at haccepts
  | leaked => simp [Upload.accepts] at haccepts

/-- **An abort.** What the request holds stays as it is, and it leaks a buffer that it has. -/
theorem exec_abort {new : List Upload} (hu : u.Fine heap)
    (h : execUpload heap u .abort = some (heap', u', new)) :
    new = [] ∧ u'.Fine heap' ∧ Touches heap heap' u u' := by
  cases hu with
  | headers =>
      cases h
      exact ⟨rfl, .gone (.inl rfl), .idle (fun _ hid => hid) rfl⟩
  | announced =>
      cases h
      exact ⟨rfl, .gone (.inr rfl), .idle (fun _ hid => hid) rfl⟩
  | collecting hlive hsent hne hcontent =>
      cases h
      exact ⟨rfl, .leaked hlive hsent, .idle (fun _ hid => hid) rfl⟩
  | answered | gone | leaked => cases h

/-- **One step** of a request. -/
theorem exec_fine {a : Action} {new : List Upload} (hu : u.Fine heap)
    (h : execUpload heap u a = some (heap', u', new)) :
    new = [] ∧ u'.Fine heap' ∧ Touches heap heap' u u' := by
  cases a with
  | abort => exact exec_abort hu h
  | call uploadData =>
      by_cases haccepts : u.accepts uploadData = true
      · exact exec_call hu haccepts h
      · rw [execUpload, if_neg haccepts] at h
        cases h

/-! ### All requests -/

/-- A request is not disturbed by a call for another one. -/
theorem Upload.Fine.touched {v : Upload} (hv : v.Fine heap) (h : Touches heap heap' u u')
    (hapart : ∀ id, u.conCls = .buffer id → v.conCls ≠ .buffer id) : v.Fine heap' := by
  have hother : ∀ id, v.conCls = .buffer id → u.conCls ≠ .buffer id :=
    fun id hid hu => hapart id hu hid
  cases hv with
  | headers => exact .headers
  | announced => exact .announced
  | collecting hlive hsent hne hcontent =>
      exact .collecting (h.kept _ _ hlive (hother _ rfl)) hsent hne hcontent
  | answered hne => exact .answered hne
  | gone hp => exact .gone hp
  | leaked hlive hsent => exact .leaked (h.kept _ _ hlive (hother _ rfl)) hsent

/-- The buffer of a request is in the heap. -/
theorem Upload.Fine.lt_length (hu : u.Fine heap) (hid : u.conCls = .buffer id) :
    id < heap.length := by
  cases hu with
  | headers | announced | answered => cases hid
  | collecting hlive | leaked hlive =>
      cases hid
      exact (List.getElem?_eq_some_iff.mp hlive).1
  | gone hp =>
      rcases hp with rfl | rfl
      · cases hid
      · cases hid

/-- Every request has gone well, each has its own buffer, and there are no others. -/
structure Fine (p : Uploads) : Prop where
  each : ∀ (i : Nat) u, p.threads[i]? = some u → u.Fine p.shared
  apart : ∀ (i j : Nat) u v id, p.threads[i]? = some u → p.threads[j]? = some v →
    u.conCls = .buffer id → v.conCls = .buffer id → i = j
  live : liveBuffers p.shared = Pool.weight (fun u => u.unanswered.toNat) p.threads

variable {p p' : Uploads} {m : UploadMove}

/-- A request after a step: the one that stepped, or another one as it was. -/
theorem get_set_cases {us : List Upload} {i j : Nat} {v : Upload} (hi : us[i]? = some u)
    (h : (us.set i u')[j]? = some v) : (j = i ∧ v = u') ∨ (j ≠ i ∧ us[j]? = some v) := by
  by_cases hij : i = j
  · subst hij
    rw [List.getElem?_set_self (List.getElem?_eq_some_iff.mp hi).1] at h
    exact .inl ⟨rfl, (Option.some.inj h).symm⟩
  · rw [List.getElem?_set_ne hij] at h
    exact .inr ⟨Ne.symm hij, h⟩

/-- A new request. -/
theorem Fine.call (hp : Fine p) : Fine ⟨p.shared, p.threads ++ [Upload.init]⟩ := by
  -- The new request has no buffer, and the others are as they were.
  have hcases {i : Nat} {u : Upload} (h : (p.threads ++ [Upload.init])[i]? = some u) :
      p.threads[i]? = some u ∨ u = Upload.init := by
    rcases Nat.lt_or_ge i p.threads.length with hlt | hge
    · rw [List.getElem?_append_left hlt] at h
      exact .inl h
    · rw [List.getElem?_append_right hge] at h
      exact .inr (List.mem_singleton.mp (List.mem_of_getElem? h))
  refine ⟨fun i u hu => ?_, fun i j u v id hu hv hid hid' => ?_, ?_⟩
  · rcases hcases hu with hu | rfl
    · exact hp.each i u hu
    · exact .headers
  · rcases hcases hu with hu | rfl
    · rcases hcases hv with hv | rfl
      · exact hp.apart i j u v id hu hv hid hid'
      · cases hid'
    · cases hid
  · rw [Pool.weight_append]
    exact hp.live

/-- **One move** of the interface. -/
theorem fine_step (h : stepUploads p m = some p') (hp : Fine p) : Fine p' := by
  rcases Pool.move_cases h with ⟨u, -, hentry, rfl⟩ | ⟨i, a, u, heap, u', new, -, hi, hexec, rfl⟩
  · obtain rfl := of_decide_eq_true hentry
    exact hp.call
  · obtain ⟨rfl, hfine, htouches⟩ := exec_fine (hp.each i u hi) hexec
    rw [List.append_nil]
    refine ⟨fun j v hv => ?_, fun j k v w id hv hw hid hid' => ?_, ?_⟩
    · rcases get_set_cases hi hv with ⟨-, rfl⟩ | ⟨hne, hv⟩
      · exact hfine
      · -- The request that stepped has no pointer to the buffer of `v`.
        have happart (id : Nat) (hu : u.conCls = .buffer id) : v.conCls ≠ .buffer id :=
          fun hid => hne (hp.apart j i v u id hv hi hid hu)
        exact (hp.each j v hv).touched htouches happart
    · -- A buffer that the request has now was its own before, or nobody's.
      have hmine {l : Nat} {x : Upload} (hx : p.threads[l]? = some x) (hne : l ≠ i)
          (hown : u'.conCls = .buffer id) : x.conCls ≠ .buffer id := by
        intro hxid
        rcases htouches.own id hown with hold | hfresh
        · exact hne (hp.apart l i x u id hx hi hxid hold)
        · exact absurd ((hp.each l x hx).lt_length hxid) (Nat.not_lt.mpr hfresh)
      rcases get_set_cases hi hv with ⟨rfl, rfl⟩ | ⟨hj, hv₀⟩
      · rcases get_set_cases hi hw with ⟨rfl, -⟩ | ⟨hk, hw₀⟩
        · rfl
        · exact absurd hid' (hmine hw₀ hk hid)
      · rcases get_set_cases hi hw with ⟨rfl, rfl⟩ | ⟨hk, hw₀⟩
        · exact absurd hid (hmine hv₀ hj hid')
        · exact hp.apart j k v w id hv₀ hw₀ hid hid'
    · have hweight := Pool.weight_set (fun u : Upload => u.unanswered.toNat) u' hi
      have hlive := htouches.live
      have hbefore := hp.live
      show liveBuffers heap = Pool.weight _ (p.threads.set i u')
      omega

/-- **Every upload is fine** after any run. -/
theorem fine_of_run {ms : List UploadMove} (h : Run.run stepUploads bootUploads ms = some p) :
    Fine p := by
  refine Run.last_of_step (fun p m p' hp hs => fine_step hs hp) ⟨?_, ?_, rfl⟩ h
  · intro i u hu
    cases hu
  · intro i j u v id hu
    cases hu

/-- The weight of a flag is the number of uploads that have it. -/
theorem weight_toNat (f : Upload → Bool) (us : List Upload) :
    Pool.weight (fun u => (f u).toNat) us = us.countP f := by
  induction us with
  | nil => rfl
  | cons u us ih =>
      rw [Pool.weight_cons, ih, List.countP_cons, Nat.add_comm]
      cases f u with
      | false => rfl
      | true => rfl

/-! ### Whose the live buffers are -/

/-- The request has sent a part of a body, it has not been answered, and the buffer is its own. -/
def Upload.Holds (u : Upload) (id : Nat) : Prop := u.unanswered = true ∧ u.conCls = .buffer id

/-- The buffer of a request that has sent a part of a body and has not been answered. -/
def Upload.left (u : Upload) : Option Nat :=
  match u.conCls with
  | .buffer id => if u.unanswered then some id else none
  | .null | .postRecvMarker => none

/-- A buffer that an upload has left behind is one that it holds. -/
theorem Upload.left_eq_some : u.left = some id ↔ u.Holds id := by
  rw [Upload.left, Upload.Holds]
  split
  · rename_i hcls
    simp [hcls]
  · rename_i hcls
    simp [hcls]
  · rename_i hcls
    simp [hcls]

/-- What such a request holds is live. -/
theorem Upload.Fine.live_of_holds (hu : u.Fine heap) (h : u.Holds id) :
    ∃ content, Live heap id content := by
  obtain ⟨hunanswered, hid⟩ := h
  cases hu with
  | headers | announced | answered => cases hid
  | collecting hlive | leaked hlive =>
      cases hid
      exact ⟨_, hlive⟩
  | gone hp =>
      rcases hp with rfl | rfl
      · cases hid
      · cases hid

/-- Such a request holds a buffer. -/
theorem Upload.Fine.isSome_left (hu : u.Fine heap) : u.left.isSome = u.unanswered := by
  cases hu with
  | headers | announced | answered => rfl
  | collecting hlive hsent | leaked hlive hsent => simp [Upload.left, Upload.unanswered, hsent]
  | gone hp =>
      rcases hp with rfl | rfl
      · rfl
      · rfl

/-- The numbers of the live buffers. -/
def liveIds (heap : Heap) : List Nat :=
  (List.range heap.length).filter fun id => (heap[id]?.getD none).isSome

/-- The live ids are those of live buffers. -/
theorem mem_liveIds : id ∈ liveIds heap ↔ ∃ content, Live heap id content := by
  rw [liveIds, List.mem_filter, List.mem_range]
  constructor
  · rintro ⟨hid, hsome⟩
    rw [List.getElem?_eq_getElem hid, Option.getD_some] at hsome
    obtain ⟨content, hcontent⟩ := Option.isSome_iff_exists.mp hsome
    exact ⟨content, by rw [Live, List.getElem?_eq_getElem hid, hcontent]⟩
  · rintro ⟨content, hcontent⟩
    exact ⟨(List.getElem?_eq_some_iff.mp hcontent).1, by rw [hcontent]; rfl⟩

/-- And there are as many. -/
theorem length_liveIds (heap : Heap) : (liveIds heap).length = liveBuffers heap := by
  have hmap : (List.range heap.length).map (fun id => heap[id]?.getD none) = heap :=
    List.ext_getElem (by simp) fun id _ hid => by simp [hid]
  rw [liveIds, ← List.countP_eq_length_filter, liveBuffers]
  conv_rhs => rw [← hmap, List.countP_map]
  rfl

/-- As many requests hold a buffer as there are live ones, and each holds another one. So every live
buffer is held. -/
theorem Fine.held_iff (hp : Fine p) :
    (∃ content, Live p.shared id content) ↔
      ∃! i : Nat, ∃ u : Upload, p.threads[i]? = some u ∧ u.Holds id := by
  have hnodup : (p.threads.filterMap Upload.left).Nodup := by
    refine List.pairwise_filterMap.mpr (List.pairwise_iff_getElem.mpr ?_)
    rintro i j hi hj hij id hid id' hid' rfl
    have heq := hp.apart i j _ _ id (List.getElem?_eq_getElem hi) (List.getElem?_eq_getElem hj)
      (Upload.left_eq_some.mp hid).2 (Upload.left_eq_some.mp hid').2
    omega
  have hlength : (p.threads.filterMap Upload.left).length = (liveIds p.shared).length := by
    rw [length_liveIds, hp.live, weight_toNat, List.length_filterMap_eq_countP]
    refine List.countP_congr fun u hu => ?_
    obtain ⟨i, hi⟩ := List.getElem?_of_mem hu
    rw [(hp.each i u hi).isSome_left]
  have hsubset : p.threads.filterMap Upload.left ⊆ liveIds p.shared := by
    intro id hid
    obtain ⟨u, hu, hleft⟩ := List.mem_filterMap.mp hid
    obtain ⟨i, hi⟩ := List.getElem?_of_mem hu
    exact mem_liveIds.mpr ((hp.each i u hi).live_of_holds (Upload.left_eq_some.mp hleft))
  -- Both lists have no duplicates and are equally long, so one contains the other as well.
  have hperm :=
    (List.subperm_of_subset hnodup hsubset).perm_of_length_le (Nat.le_of_eq hlength.symm)
  rw [← mem_liveIds, ← hperm.mem_iff, List.mem_filterMap]
  constructor
  · rintro ⟨u, hu, hleft⟩
    obtain ⟨i, hi⟩ := List.getElem?_of_mem hu
    have hholds := Upload.left_eq_some.mp hleft
    refine ⟨i, ⟨u, hi, hholds⟩, ?_⟩
    rintro j ⟨v, hv, hother⟩
    exact hp.apart j i v u id hv hi hother.2 hholds.2
  · rintro ⟨i, ⟨u, hi, hholds⟩, -⟩
    exact ⟨u, List.mem_of_getElem? hi, Upload.left_eq_some.mpr hholds⟩

end SmartFactory.Server.PostBody
