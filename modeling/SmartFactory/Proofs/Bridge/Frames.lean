import SmartFactory.Proofs.Bridge.Connections
import Mathlib.Data.List.Chain

/-!
# `SmartFactory.Proofs.Bridge.Frames`: the sequence numbers of the frames

A loop draws the number of a frame before it takes the lock to write the frame. Two loops
that are active at a time can therefore write their frames in the wrong order.

`FramesFollow` says that the frames of a connection are numbered one after another.
`framesFollow_of_oneLoop` is kept along an interleaving with one loop at a time (`OneLoop`):
a run begins only when no earlier loop can draw or write any more. It also needs that every
frame that was numbered is encoded, and that the counter does not wrap.
-/

set_option autoImplicit false

namespace SmartFactory.Bridge

open Run

/-- The sequence numbers of the frames that were written to a connection. -/
def State.frames (s : State) (c : Nat) : List UInt64 :=
  (s.sent.filter (fun f => f.1 = c)).map Prod.snd

/-- One number follows the other. -/
def Follows (a b : UInt64) : Prop := b.toNat = a.toNat + 1

/-- The frames of every connection are strictly increasing, and two consecutive ones differ by
exactly one. -/
def FramesFollow (p : System) : Prop :=
  ∀ c, (p.shared.frames c).Pairwise (· < ·) ∧ (p.shared.frames c).IsChain Follows

/-- The goroutine is a loop that may draw or write a frame, or it is about to launch one. -/
def Goroutine.ticks : Goroutine → Nat
  | .startBridge (.clearErr _) | .startBridge (.wgAdd _) | .startBridge (.goAccept _)
  | .startBridge (.goTick _) => 1
  | .tickLoop _ (.setLost _) | .tickLoop _ (.clearConnected _) | .tickLoop _ .goStop
  | .tickLoop _ .leave => 0
  | .tickLoop _ _ => 1
  | _ => 0

/-- A run begins only when no loop of an earlier run is left, every numbered frame is encoded,
and the counter does not wrap. -/
structure OneLoop (p : System) (m : Move) : Prop where
  start : ∀ i, m = .step i .ok → p.threads[i]? = some (.startBridge .enter) →
    p.shared.Ready → ∀ g ∈ p.threads, g.ticks = 0
  encoded : ∀ i run stop err, m = .step i (.fail err) →
    p.threads[i]? ≠ some (.tickLoop run (.draw stop))
  small : ∀ i o run stop, m = .step i o → p.threads[i]? = some (.tickLoop run (.draw stop)) →
    p.shared.seq.toNat + 1 < 2 ^ 64

/-- The number that the goroutine has drawn and will write. -/
def Goroutine.drawn? : Goroutine → Option UInt64
  | .tickLoop _ (.broadcast _ seq) => some seq
  | _ => none

/-- `1` for a goroutine that has drawn a number. -/
def Goroutine.drawing (g : Goroutine) : Nat := if g.drawn?.isSome then 1 else 0

variable {s s' : State} {g g' : Goroutine} {o : Outcome} {new : List Goroutine}
variable {p p' : System} {m : Move}

theorem drawing_of_none (h : g.drawn? = none) : g.drawing = 0 := by
  rw [Goroutine.drawing, h]
  rfl

/-- Whoever has drawn a number is about to write it. -/
theorem eq_of_drawn {seq : UInt64} (h : g.drawn? = some seq) :
    ∃ run stop, g = .tickLoop run (.broadcast stop seq) := by
  unfold Goroutine.drawn? at h
  split at h
  · rename_i run stop seq'
    obtain rfl := Option.some.inj h
    exact ⟨run, stop, rfl⟩
  · cases h

theorem drawing_le_ticks (g : Goroutine) : g.drawing ≤ g.ticks := by
  cases hg : g.drawn? with
  | none => exact drawing_of_none hg ▸ Nat.zero_le _
  | some seq =>
      obtain ⟨run, stop, rfl⟩ := eq_of_drawn hg
      exact Nat.le_refl _

/-! ### The frames of a broadcast -/

/-- The frames that a list of writes adds to a connection. -/
theorem frames_of_writes (l : List Nat) (seq : UInt64) (c : Nat) :
    ((l.map (fun d => (d, seq))).filter (fun f => f.1 = c)).map Prod.snd
      = List.replicate (l.count c) seq := by
  induction l with
  | nil => rfl
  | cons d rest ih =>
      rw [List.map_cons, List.count_cons]
      by_cases hd : d = c
      · simp only [hd, List.filter_cons, decide_true, if_true, List.map_cons, ih, beq_self_eq_true,
          List.replicate_succ]
      · simp [hd, ih]

/-- A broadcast adds its number once for each time that the connection is written. -/
theorem frames_broadcast (s : State) (seq : UInt64) (failing : List Nat) (c : Nat) :
    (s.broadcast seq failing).frames c
      = s.frames c ++ List.replicate ((s.clients.filter (s.writable failing)).count c) seq := by
  rw [State.frames, State.broadcast, List.filter_append, List.map_append, frames_of_writes]
  rfl

/-- A connection that is not in the list is not written. -/
theorem frames_broadcast_of_unlisted {s : State} (seq : UInt64) (failing : List Nat) {c : Nat}
    (hc : s.clients.count c = 0) : (s.broadcast seq failing).frames c = s.frames c := by
  have hle : (s.clients.filter (s.writable failing)).count c ≤ s.clients.count c :=
    List.filter_sublist.count_le c
  rw [hc, Nat.le_zero] at hle
  rw [frames_broadcast, hle, List.replicate_zero, List.append_nil]

/-! ### What a step does to the frames -/

/-- A step, by what it does to the connections, the counter and the frames. -/
inductive FrameEffect (s : State) (g : Goroutine) (o : Outcome) (s' : State) (g' : Goroutine)
    (new : List Goroutine) : Prop where
  /-- Connections may leave the list. -/
  | quiet (hsent : s'.sent = s.sent) (hseq : s'.seq = s.seq)
      (haccepted : s'.accepted = s.accepted) (hclients : ∀ c ∈ s'.clients, c ∈ s.clients)
      (hmine : g.drawn? = none)
      (hnext : ∀ u, u = g' ∨ u ∈ new → u.drawn? = none ∧ ∀ c, u.records c = 0)
  /-- A connection is accepted. -/
  | accepted (run : Nat) (hs' : s' = { s with accepted := s.accepted + 1 })
      (hmine : g.drawn? = none) (hg' : g' = .acceptLoop run (.record s.accepted))
      (hnew : new = [])
  /-- A connection is recorded. -/
  | recorded (run conn : Nat) (hs' : s' = { s with clients := s.clients ++ [conn] })
      (hg : g = .acceptLoop run (.record conn)) (hg' : g' = .acceptLoop run (.goWatch conn))
      (hnew : new = [])
  /-- A number is drawn. -/
  | drawn (run : Nat) (stop : Option Nat) (hs' : s' = { s with seq := s.seq + 1 })
      (hg : g = .tickLoop run (.draw stop))
      (hg' : g' = .tickLoop run (.broadcast stop (s.seq + 1))) (hnew : new = [])
  /-- A number is drawn, and its frame is not encoded. -/
  | skipped (run : Nat) (stop : Option Nat) (err : String)
      (hg : g = .tickLoop run (.draw stop)) (ho : o = .fail err)
  /-- A frame is written. -/
  | written (run : Nat) (stop : Option Nat) (seq : UInt64) (failing : List Nat)
      (hs' : s' = s.broadcast seq failing) (hg : g = .tickLoop run (.broadcast stop seq))
      (hg' : g' = .tickLoop run (.select stop)) (hnew : new = [])

/-- A goroutine that goes on alone. -/
theorem next_alone {P : Goroutine → Prop} (h : P g') : ∀ u, u = g' ∨ u ∈ [] → P u := by
  rintro u (rfl | hu)
  · exact h
  · cases hu

/-- A goroutine that goes on and launches another one. -/
theorem next_pair {P : Goroutine → Prop} {g₁ : Goroutine} (h : P g') (h₁ : P g₁) :
    ∀ u, u = g' ∨ u ∈ [g₁] → P u := by
  rintro u (rfl | hu)
  · exact h
  · exact List.mem_singleton.mp hu ▸ h₁

theorem Step.frameEffect (h : Step s g o s' g' new) : FrameEffect s g o s' g' new := by
  cases h with
  | startListening | stopTaken =>
      exact .quiet rfl rfl rfl (fun c hc => nomatch hc) rfl (next_alone ⟨rfl, fun _ => rfl⟩)
  | startGoAccept | startGoTick | acceptWatch | tickGoStop =>
      exact .quiet rfl rfl rfl (fun _ hc => hc) rfl
        (next_pair ⟨rfl, fun _ => rfl⟩ ⟨rfl, fun _ => rfl⟩)
  | acceptConn run => exact .accepted run rfl rfl rfl rfl
  | acceptRecorded run conn => exact .recorded run conn rfl rfl rfl rfl
  | watchForgot conn =>
      exact .quiet rfl rfl rfl (fun c hc => List.mem_of_mem_erase hc) rfl
        (next_alone ⟨rfl, fun _ => rfl⟩)
  | tickDrawn run stop => exact .drawn run stop rfl rfl rfl rfl
  | tickDrawFailed run stop err => exact .skipped run stop err rfl rfl
  | tickBroadcast run stop seq failing => exact .written run stop seq failing rfl rfl rfl rfl
  | _ => exact .quiet rfl rfl rfl (fun _ hc => hc) rfl (next_alone ⟨rfl, fun _ => rfl⟩)

/-- Only the beginning of a run adds a loop. -/
theorem Step.ticks (h : Step s g o s' g' new) :
    g'.ticks + Pool.weight Goroutine.ticks new ≤ g.ticks ∨
      (g = .startBridge .enter ∧ o = .ok ∧ s.Ready ∧
        g'.ticks + Pool.weight Goroutine.ticks new = 1) := by
  cases h with
  | startListening hready => exact Or.inr ⟨rfl, rfl, hready, rfl⟩
  | _ => exact Or.inl (Nat.le_of_ble_eq_true rfl)

/-! ### One loop at a time -/

/-- What is known of the frames while there is one loop at a time. A number that was drawn is
the latest one. The connections in the list have received every frame but that one. -/
structure Framed (p : System) : Prop where
  conns : ConnsOnce p
  one : Pool.weight Goroutine.ticks p.threads ≤ 1
  drawn : ∀ g ∈ p.threads, ∀ seq, g.drawn? = some seq → seq = p.shared.seq
  last : ∀ c ∈ p.shared.clients, ∀ seq ∈ (p.shared.frames c).getLast?,
    seq.toNat + Pool.weight Goroutine.drawing p.threads = p.shared.seq.toNat
  fresh : ∀ c, p.shared.accepted ≤ c → p.shared.frames c = []
  pending : ∀ g ∈ p.threads, ∀ c, 0 < g.records c → p.shared.frames c = []
  chain : ∀ c, (p.shared.frames c).IsChain Follows

theorem framed_boot (cfg : Config) : Framed (boot cfg) :=
  ⟨connsOnce_boot cfg, Nat.zero_le _, nofun, nofun, fun _ _ => rfl, nofun, fun _ => .nil⟩

/-- Numbers that follow one another increase. -/
theorem pairwise_of_follows {l : List UInt64} (h : l.IsChain Follows) : l.Pairwise (· < ·) := by
  have hlt : l.IsChain (fun a b : UInt64 => a < b) := by
    refine h.imp fun a b hab => UInt64.lt_iff_toNat_lt.mpr ?_
    rw [Follows] at hab
    omega
  exact List.isChain_iff_pairwise.mp hlt

theorem Framed.follow (hp : Framed p) : FramesFollow p := fun c =>
  ⟨pairwise_of_follows (hp.chain c), hp.chain c⟩

/-- While one loop is about to draw a number, nobody else has drawn one. -/
theorem Framed.drawn_none {i : Nat} (hp : Framed p) (hg : p.threads[i]? = some g)
    (hticks : g.ticks = 1) (hmine : g.drawn? = none) : ∀ u ∈ p.threads, u.drawn? = none := by
  intro u hu
  by_contra hdrawn
  obtain ⟨seq, hseq⟩ := Option.ne_none_iff_exists'.mp hdrawn
  obtain ⟨run, stop, rfl⟩ := eq_of_drawn hseq
  have hne : g ≠ .tickLoop run (.broadcast stop seq) := by
    rintro rfl
    cases hmine
  -- Two such goroutines would make two loops.
  have hpair := Pool.weight_pair_le Goroutine.ticks (Pool.mem_of_get hg) hu hne
  have hone := hp.one
  rw [hticks] at hpair
  have hother : (Goroutine.tickLoop run (.broadcast stop seq)).ticks = 1 := rfl
  omega

/-- A step keeps the loops to one, unless it begins a run while there is one. -/
theorem Step.one {i : Nat} (h : Step p.shared g o s' g' new) (hg : p.threads[i]? = some g)
    (hone : Pool.weight Goroutine.ticks p.threads ≤ 1)
    (hstart : g = .startBridge .enter → o = .ok → p.shared.Ready →
      Pool.weight Goroutine.ticks p.threads = 0) :
    Pool.weight Goroutine.ticks (p.threads.set i g' ++ new) ≤ 1 := by
  have hsum := Pool.weight_step Goroutine.ticks g' new hg
  rcases h.ticks with hle | ⟨hgstart, ho, hready, hnew⟩
  · omega
  · have hzero := hstart hgstart ho hready
    omega

variable {i : Nat}

/-- A step that adds no frame and draws no number. -/
theorem Framed.quiet (hp : Framed p) (hg : p.threads[i]? = some g)
    (hconns : ConnsOnce ⟨s', p.threads.set i g' ++ new⟩)
    (hone : Pool.weight Goroutine.ticks (p.threads.set i g' ++ new) ≤ 1)
    (hsent : s'.sent = p.shared.sent) (hseq : s'.seq = p.shared.seq)
    (haccepted : p.shared.accepted ≤ s'.accepted)
    (hclients : ∀ c ∈ s'.clients, c ∈ p.shared.clients ∨ p.shared.frames c = [])
    (hmine : g.drawn? = none) (hnext : ∀ u, u = g' ∨ u ∈ new → u.drawn? = none ∧
      ∀ c, 0 < u.records c → p.shared.frames c = []) :
    Framed ⟨s', p.threads.set i g' ++ new⟩ := by
  -- Nothing is sent, and no tick has a number that it has yet to send: neither of the goroutines
  -- that change has one. The clauses are those of before.
  have hframes : ∀ c, s'.frames c = p.shared.frames c := by
    intro c
    rw [State.frames, State.frames, hsent]
  have hweight : Pool.weight Goroutine.drawing (p.threads.set i g' ++ new)
      = Pool.weight Goroutine.drawing p.threads := by
    have hsum := Pool.weight_step Goroutine.drawing g' new hg
    have hnew : Pool.weight Goroutine.drawing new = 0 :=
      (Pool.weight_eq_zero _).mpr fun u hu => drawing_of_none (hnext u (Or.inr hu)).1
    rw [drawing_of_none hmine, drawing_of_none (hnext g' (Or.inl rfl)).1, hnew] at hsum
    exact hsum
  refine ⟨hconns, hone, ?_, fun c hc seq hlast => ?_, fun c hc => ?_, ?_, fun c => ?_⟩
  · refine Pool.forall_threads_step hp.drawn ?_ (fun u hu => ?_) fun u _ hold seq hdrawn =>
      (hold seq hdrawn).trans hseq.symm
    · intro seq hdrawn
      cases (hnext g' (Or.inl rfl)).1.symm.trans hdrawn
    · intro seq hdrawn
      cases (hnext u (Or.inr hu)).1.symm.trans hdrawn
  · -- A connection that was not in the set has got no frame, and so has no last one.
    have hlast' : seq ∈ (p.shared.frames c).getLast? := hframes c ▸ hlast
    rcases hclients c hc with hold | hnil
    · show seq.toNat + Pool.weight _ _ = s'.seq.toNat
      rw [hweight, hseq]
      exact hp.last c hold seq hlast'
    · rw [hnil] at hlast'
      cases hlast'
  · rw [hframes]
    exact hp.fresh c (Nat.le_trans haccepted hc)
  · refine Pool.forall_threads_step hp.pending ?_ (fun u hu c hpos => ?_) fun u _ hold c hpos =>
      (hframes c).trans (hold c hpos)
    · exact fun c hpos => (hframes c).trans ((hnext g' (Or.inl rfl)).2 c hpos)
    · exact (hframes c).trans ((hnext u (Or.inr hu)).2 c hpos)
  · show (s'.frames c).IsChain Follows
    rw [hframes]
    exact hp.chain c

/-- A loop draws the next number. -/
theorem Framed.draw {run : Nat} {stop : Option Nat} (hp : Framed p)
    (hg : p.threads[i]? = some (.tickLoop run (.draw stop)))
    (hsmall : p.shared.seq.toNat + 1 < 2 ^ 64)
    (hconns : ConnsOnce ⟨{ p.shared with seq := p.shared.seq + 1 },
      p.threads.set i (.tickLoop run (.broadcast stop (p.shared.seq + 1))) ++ []⟩)
    (hone : Pool.weight Goroutine.ticks
      (p.threads.set i (.tickLoop run (.broadcast stop (p.shared.seq + 1))) ++ []) ≤ 1) :
    Framed ⟨{ p.shared with seq := p.shared.seq + 1 },
      p.threads.set i (.tickLoop run (.broadcast stop (p.shared.seq + 1))) ++ []⟩ := by
  have hnone := hp.drawn_none hg rfl rfl
  have hnext : (p.shared.seq + 1).toNat = p.shared.seq.toNat + 1 := by
    rw [UInt64.toNat_add]
    exact Nat.mod_eq_of_lt hsmall
  refine ⟨hconns, hone, ?_, fun c hc seq hlast => ?_, hp.fresh, ?_, hp.chain⟩
  · refine Pool.forall_threads_step hp.drawn (fun seq hdrawn => (Option.some.inj hdrawn).symm)
      (List.forall_mem_nil _) fun u hu _ seq hdrawn => nomatch (hnone u hu).symm.trans hdrawn
  · -- The new number is the only one that was drawn and not written.
    have hsum := Pool.weight_step Goroutine.drawing
      (.tickLoop run (.broadcast stop (p.shared.seq + 1))) [] hg
    have hbefore : (Goroutine.tickLoop run (.draw stop)).drawing = 0 := rfl
    have hafter : (Goroutine.tickLoop run (.broadcast stop (p.shared.seq + 1))).drawing = 1 := rfl
    have hold := hp.last c hc seq hlast
    rw [hbefore, hafter, Pool.weight_nil] at hsum
    show seq.toNat + Pool.weight Goroutine.drawing (p.threads.set i _ ++ [])
      = (p.shared.seq + 1).toNat
    omega
  · exact Pool.forall_threads_step hp.pending (fun c hpos => nomatch hpos)
      (List.forall_mem_nil _) fun u _ hold => hold

/-- A loop that has drawn a number is the only one. -/
theorem Framed.drawing_eq_one {run : Nat} {stop : Option Nat} {seq : UInt64} (hp : Framed p)
    (hg : p.threads[i]? = some (.tickLoop run (.broadcast stop seq))) :
    Pool.weight Goroutine.drawing p.threads = 1 := by
  have hle := Pool.weight_of_get_le Goroutine.drawing hg
  have hticks := Pool.weight_mono drawing_le_ticks p.threads
  have hone := hp.one
  have hmine : (Goroutine.tickLoop run (.broadcast stop seq)).drawing = 1 := rfl
  omega

/-- The number that was drawn last follows the last frame of every connection in the list. -/
theorem Framed.chain_broadcast (hp : Framed p) (failing : List Nat)
    (hdrawing : Pool.weight Goroutine.drawing p.threads = 1) (c : Nat) :
    ((p.shared.broadcast p.shared.seq failing).frames c).IsChain Follows := by
  have honce := hp.conns.once c
  have hle : (p.shared.clients.filter (p.shared.writable failing)).count c
      ≤ p.shared.clients.count c := List.filter_sublist.count_le c
  rcases Nat.eq_zero_or_pos
    ((p.shared.clients.filter (p.shared.writable failing)).count c) with hzero | hpos
  -- The connection is not in the list, or its write fails.
  · rw [frames_broadcast, hzero, List.replicate_zero, List.append_nil]
    exact hp.chain c
  · have hlisted : c ∈ p.shared.clients := (List.mem_filter.mp (List.count_pos_iff.mp hpos)).1
    have hcount : (p.shared.clients.filter (p.shared.writable failing)).count c = 1 := by omega
    rw [frames_broadcast, hcount, List.replicate_one]
    -- One number is drawn and not written, so it is the last frame's number plus one.
    refine (hp.chain c).append (.singleton _) fun x hx y hy => ?_
    obtain rfl := Option.some.inj hy
    have hlast := hp.last c hlisted x hx
    rw [hdrawing] at hlast
    exact hlast.symm

/-- A loop writes the number that it has drawn. -/
theorem Framed.write {run : Nat} {stop : Option Nat} {seq : UInt64} {failing : List Nat}
    (hp : Framed p) (hg : p.threads[i]? = some (.tickLoop run (.broadcast stop seq)))
    (hconns : ConnsOnce ⟨p.shared.broadcast seq failing,
      p.threads.set i (.tickLoop run (.select stop)) ++ []⟩)
    (hone : Pool.weight Goroutine.ticks
      (p.threads.set i (.tickLoop run (.select stop)) ++ []) ≤ 1) :
    Framed ⟨p.shared.broadcast seq failing,
      p.threads.set i (.tickLoop run (.select stop)) ++ []⟩ := by
  obtain rfl : seq = p.shared.seq := hp.drawn _ (Pool.mem_of_get hg) seq rfl
  have hdrawing := hp.drawing_eq_one hg
  -- It was the only number that was drawn and not written.
  have hafter : Pool.weight Goroutine.drawing
      (p.threads.set i (.tickLoop run (.select stop)) ++ []) = 0 := by
    have hsum := Pool.weight_step Goroutine.drawing (.tickLoop run (.select stop)) [] hg
    have hmine : (Goroutine.tickLoop run (.broadcast stop p.shared.seq)).drawing = 1 := rfl
    have hnext : (Goroutine.tickLoop run (.select stop)).drawing = 0 := rfl
    rw [hmine, hnext, hdrawing, Pool.weight_nil] at hsum
    omega
  refine ⟨hconns, hone, ?_, fun c hc seq hlast => ?_, fun c hc => ?_, ?_,
    hp.chain_broadcast failing hdrawing⟩
  · exact Pool.forall_threads_step hp.drawn nofun (List.forall_mem_nil _) fun u _ hold => hold
  · -- A connection that is still in the list was written this very frame.
    have hpos : 0 < (p.shared.clients.filter (p.shared.writable failing)).count c :=
      List.count_pos_iff.mpr hc
    have hframes : (p.shared.broadcast p.shared.seq failing).frames c = _ :=
      frames_broadcast p.shared p.shared.seq failing c
    rw [hframes, List.getLast?_append, List.getLast?_replicate,
      if_neg (Nat.pos_iff_ne_zero.mp hpos)] at hlast
    show seq.toNat + Pool.weight _ _ = p.shared.seq.toNat
    rw [hafter, ← Option.some.inj hlast]
    rfl
  · have hfresh := hp.conns.fresh c hc
    exact (frames_broadcast_of_unlisted _ _ (by omega)).trans (hp.fresh c hc)
  · have hkeep : ∀ u ∈ p.threads, ∀ c, 0 < u.records c →
        (p.shared.broadcast p.shared.seq failing).frames c = [] := by
      intro u hu c hpos
      have hle := Pool.weight_le (Goroutine.records c) hu
      have honce := hp.conns.once c
      exact (frames_broadcast_of_unlisted _ _ (by omega)).trans (hp.pending u hu c hpos)
    exact Pool.forall_threads_step hkeep (fun c hpos => nomatch hpos) (List.forall_mem_nil _)
      fun u _ hold => hold

/-- **One step.** A move with one loop at a time keeps the frames in order. -/
theorem framed_step (h : step p m = some p') (hm : OneLoop p m) (hp : Framed p) : Framed p' := by
  have hconns := connsOnce_step h hp.conns
  rcases system_cases h with ⟨g, rfl, hreq, rfl⟩ | ⟨i, o, g, s, g', new, rfl, hg, hstep, rfl⟩
  · have hrequest : g.ticks = 0 ∧ g.drawn? = none ∧ ∀ c, g.records c = 0 := by
      rcases request_cases hreq with rfl | rfl | rfl | rfl | ⟨cfg, rfl⟩ <;>
        exact ⟨rfl, rfl, fun _ => rfl⟩
    obtain ⟨hticks, hdrawn, hrecords⟩ := hrequest
    refine ⟨hconns, ?_, ?_, fun c hc seq hlast => ?_, hp.fresh, ?_, hp.chain⟩
    · rw [Pool.weight_append, Pool.weight_singleton, hticks]
      exact hp.one
    · intro u hu seq hseq
      rcases List.mem_append.mp hu with hu | hu
      · exact hp.drawn u hu seq hseq
      · rw [List.mem_singleton.mp hu, hdrawn] at hseq
        cases hseq
    · rw [Pool.weight_append, Pool.weight_singleton, drawing_of_none hdrawn]
      exact hp.last c hc seq hlast
    · intro u hu c hpos
      rcases List.mem_append.mp hu with hu | hu
      · exact hp.pending u hu c hpos
      · rw [List.mem_singleton.mp hu, hrecords] at hpos
        cases hpos
  · have hone := hstep.one hg hp.one fun hstart ho hready => (Pool.weight_eq_zero _).mpr
      (hm.start i (by rw [ho]) (hstart ▸ hg) hready)
    cases hstep.frameEffect with
    | quiet hsent hseq haccepted hclients hmine hnext =>
        exact hp.quiet hg hconns hone hsent hseq (Nat.le_of_eq haccepted.symm)
          (fun c hc => Or.inl (hclients c hc)) hmine fun u hu =>
            ⟨(hnext u hu).1, fun c hpos => absurd ((hnext u hu).2 c) (Nat.ne_of_gt hpos)⟩
    | accepted run hs' hmine hg' hnew =>
        subst hs' hg' hnew
        -- The new connection has received nothing yet.
        refine hp.quiet hg hconns hone rfl rfl (Nat.le_succ _) (fun c hc => Or.inl hc) hmine
          (next_alone ⟨rfl, fun c hpos => hp.fresh c ?_⟩)
        by_contra hlt
        have hzero : (if p.shared.accepted = c then 1 else 0) = 0 := if_neg (by omega)
        exact Nat.lt_irrefl 0 (hzero ▸ hpos)
    | recorded run conn hs' hmine hg' hnew =>
        subst hs' hmine hg' hnew
        -- A connection that is recorded has received nothing before, so any number may be next.
        refine hp.quiet hg hconns hone rfl rfl (Nat.le_refl _) (fun c hc => ?_) rfl
          (next_alone ⟨rfl, fun c hpos => nomatch hpos⟩)
        rcases List.mem_append.mp hc with hc | hc
        · exact Or.inl hc
        · refine Or.inr (hp.pending _ (Pool.mem_of_get hg) c ?_)
          rw [List.mem_singleton.mp hc]
          exact Nat.lt_of_lt_of_eq Nat.zero_lt_one (if_pos rfl).symm
    | drawn run stop hs' hmine hg' hnew =>
        subst hs' hmine hg' hnew
        exact hp.draw hg (hm.small i o run stop rfl hg) hconns hone
    | skipped run stop err hmine ho =>
        subst hmine ho
        exact absurd hg (hm.encoded i run stop err rfl)
    | written run stop seq failing hs' hmine hg' hnew =>
        subst hs' hmine hg' hnew
        exact hp.write hg hconns hone

/-- **The extent of the law.** Along any interleaving with one loop at a time, the frames of
every connection are numbered one after another in every state. -/
theorem framesFollow_of_oneLoop (cfg : Config) (ms : List Move)
    (h : Each step OneLoop (boot cfg) ms) : Always step FramesFollow (boot cfg) ms :=
  always_of_each (I := Framed) (fun _ => True)
    (fun _ _ _ _ hp hm hstep => framed_step hstep hm hp) (fun _ hp => hp.follow)
    (fun _ _ => trivial) (framed_boot cfg) h

/-! ### Two clients -/

/-- A check that suffices for a move with one loop at a time. -/
def oneLoop (p : System) : Move → Bool
  | .call _ => true
  | .step i o =>
      match p.threads[i]?, o with
      | some (.startBridge .enter), _ => p.threads.all (fun g => g.ticks = 0)
      | some (.tickLoop _ (.draw _)), .fail _ => false
      | some (.tickLoop _ (.draw _)), _ => p.shared.seq.toNat + 1 < 2 ^ 64
      | _, _ => true

theorem oneLoop_of_check (p : System) (m : Move) (h : oneLoop p m = true) : OneLoop p m := by
  refine ⟨?_, ?_, ?_⟩
  · rintro i rfl hg -
    simpa [oneLoop, hg] using h
  · rintro i run stop err rfl hg
    simp [oneLoop, hg] at h
  · rintro i o run stop rfl hg
    cases o with
    | fail err => simp [oneLoop, hg] at h
    | _ => simpa [oneLoop, hg] using h

/-- The steps of a loop from `select` to `broadcast`. -/
def ticks : List Outcome := [.ticked, .state true, .ok, .ok, .ok]

/-- A client of one run receives two frames. -/
theorem framesFollow_twoFrames : Always step FramesFollow (boot defaultConfig)
    (connects 0 ++ starts 1 ++ steps 3 [.ok] ++ steps 2 [.ok, .ok, .ok]
      ++ steps 3 (ticks ++ [.writes []]) ++ steps 3 (ticks ++ [.writes []])) :=
  framesFollow_of_oneLoop defaultConfig _ (each_of_eachb oneLoop_of_check (by decide))

/-- A loop draws the number 1, its run is stopped and the next run begins before it writes.
The loop of the next run draws the number 2 and writes it first. -/
theorem not_framesFollow_twoLoops : ¬ Always step FramesFollow (boot defaultConfig)
    (connects 0 ++ starts 1 ++ steps 3 (.ok :: ticks)
      ++ [.call (.stopBridge none .enter)] ++ steps 4 [.ok, .ok, .ok, .ok]
      ++ steps 2 [.fail "use of closed network connection"] ++ starts 5
      ++ steps 6 [.ok, .ok, .ok] ++ steps 7 (.ok :: ticks ++ [.writes []])
      ++ steps 3 [.writes []]) := by
  intro h
  -- The connection has received the numbers 2 and 1, in this order.
  have hcheck : (run step (boot defaultConfig)
      (connects 0 ++ starts 1 ++ steps 3 (.ok :: ticks)
        ++ [.call (.stopBridge none .enter)] ++ steps 4 [.ok, .ok, .ok, .ok]
        ++ steps 2 [.fail "use of closed network connection"] ++ starts 5
        ++ steps 6 [.ok, .ok, .ok] ++ steps 7 (.ok :: ticks ++ [.writes []])
        ++ steps 3 [.writes []])).any (fun p => p.shared.frames 0 = [2, 1]) = true := by
    decide
  obtain ⟨p, hrun, hframes⟩ := (Option.any_eq_true _ _).mp hcheck
  have hpair := ((h.last hrun) 0).1
  rw [of_decide_eq_true hframes, List.pairwise_pair] at hpair
  exact absurd hpair (by decide)

end SmartFactory.Bridge
