import SmartFactory.Lib.Run
import Mathlib.Algebra.Order.BigOperators.Group.List
import Mathlib.Algebra.Order.Group.Nat
import Mathlib.Algebra.GroupWithZero.Nat

/-!
# `SmartFactory.Lib.ThreadPool`: interleavings of threads over a shared state

A program of many threads is given by one function `exec`: in the shared state `σ`, a
thread with local state `τ` and a choice `γ` of the environment make one atomic step. The
step yields the next shared state, the next local state and the threads it launches.

A `Pool` is a shared state with any number of threads. A `Move` either adds a thread that
starts at an entry point, or lets one thread make a step. Every interleaving is a list of
moves (`SmartFactory.Run`).

Two proof rules cover the invariants of a pool.

* `forall_threads_step` (rely and guarantee): a fact about each thread is kept when the
  stepping thread and the threads it launches establish it, and the step does not
  disturb it in the other threads.
* `Kept.step` (custody): a resource that is in the shared state or in the hands of a thread
  is not lost by a step that hands it on.
* `weight_step` (accounting): when each thread carries a weight, one step changes the
  total by what the stepping thread loses and gains, plus the weight of the threads it
  launches. Ownership of a resource is a weight that is `0` or `1`; `weight_eq_zero` and
  `weight_le` read ownership back from a total. `Unique` is the case of resources that are
  made one after another and are in one place at a time.
-/

set_option autoImplicit false

namespace SmartFactory

/-- A shared state and the threads that run over it. -/
structure Pool (σ τ : Type*) where
  shared : σ
  threads : List τ
  deriving DecidableEq

/-- A move of the pool: a new thread, or one step of the thread at an index. -/
inductive Move (τ γ : Type*) where
  | call (t : τ)
  | step (i : Nat) (c : γ)
  deriving DecidableEq

namespace Pool

variable {σ τ γ : Type*}

section
variable (entry : τ → Bool) (exec : σ → τ → γ → Option (σ × τ × List τ))

/-- One move. A new thread must stand at an entry point. -/
def move (p : Pool σ τ) : Move τ γ → Option (Pool σ τ)
  | .call t => if entry t then some { p with threads := p.threads ++ [t] } else none
  | .step i c =>
      match p.threads[i]? with
      | none => none
      | some t =>
          match exec p.shared t c with
          | none => none
          | some (s, t', new) => some ⟨s, p.threads.set i t' ++ new⟩
end

variable {entry : τ → Bool} {exec : σ → τ → γ → Option (σ × τ × List τ)}

/-- What a move does: it adds one thread at an entry point, or it is one step of one
thread. -/
theorem move_cases {p p' : Pool σ τ} {m : Move τ γ} (h : p.move entry exec m = some p') :
    (∃ t, m = .call t ∧ entry t = true ∧ p' = ⟨p.shared, p.threads ++ [t]⟩) ∨
    (∃ i c t s t' new, m = .step i c ∧ p.threads[i]? = some t ∧
      exec p.shared t c = some (s, t', new) ∧ p' = ⟨s, p.threads.set i t' ++ new⟩) := by
  cases m with
  | call t =>
      simp only [move] at h
      split at h
      · rename_i he
        exact Or.inl ⟨t, rfl, he, (Option.some.inj h).symm⟩
      · cases h
  | step i c =>
      simp only [move] at h
      split at h
      · cases h
      · rename_i t ht
        split at h
        · cases h
        · rename_i s t' new he
          exact Or.inr ⟨i, c, t, s, t', new, rfl, ht, he, (Option.some.inj h).symm⟩

/-- A thread of the pool after a step is the one that stepped, one that it launched, or
one of the threads before. -/
theorem mem_threads_step {ts new : List τ} {i : Nat} {t' u : τ}
    (h : u ∈ ts.set i t' ++ new) : u = t' ∨ u ∈ new ∨ u ∈ ts := by
  rcases List.mem_append.mp h with h | h
  · rcases List.mem_or_eq_of_mem_set h with h | h
    · exact Or.inr (Or.inr h)
    · exact Or.inl h
  · exact Or.inr (Or.inl h)

/-- The thread that steps is one of the pool. -/
theorem mem_of_get {ts : List τ} {i : Nat} {t : τ} (h : ts[i]? = some t) : t ∈ ts :=
  List.mem_of_getElem? h

/-- **Rely and guarantee.** A fact about each thread is kept by a step when the stepping
thread and the launched ones establish it, and no other thread loses it. -/
theorem forall_threads_step {ts new : List τ} {i : Nat} {t' : τ} {L L' : τ → Prop}
    (hts : ∀ u ∈ ts, L u) (hself : L' t') (hnew : ∀ u ∈ new, L' u)
    (hother : ∀ u ∈ ts, L u → L' u) : ∀ u ∈ ts.set i t' ++ new, L' u := by
  intro u hu
  rcases mem_threads_step hu with rfl | hu | hu
  · exact hself
  · exact hnew u hu
  · exact hother u hu (hts u hu)

/-- The next position of a thread that stepped is in the pool. -/
theorem mem_set_self {ts : List τ} {i : Nat} {t : τ} (h : ts[i]? = some t) (t' : τ)
    (new : List τ) : t' ∈ ts.set i t' ++ new := by
  obtain ⟨hlt, -⟩ := List.getElem?_eq_some_iff.mp h
  exact List.mem_append_left _ (List.mem_set hlt t')

/-! ### Custody -/

/-- A resource is kept: the shared state has it, or a thread holds it. -/
def Kept (place : σ → Prop) (hold : τ → Prop) (p : Pool σ τ) : Prop :=
  place p.shared ∨ ∃ t ∈ p.threads, hold t

variable {place : σ → Prop} {hold : τ → Prop}

/-- A new thread takes nothing away. -/
theorem Kept.call {p : Pool σ τ} (hp : Kept place hold p) (t : τ) :
    Kept place hold ⟨p.shared, p.threads ++ [t]⟩ := by
  rcases hp with hplace | ⟨u, hu, hhold⟩
  · exact Or.inl hplace
  · exact Or.inr ⟨u, List.mem_append_left _ hu, hhold⟩

/-- What the shared state has or the stepping thread holds after a step is kept. -/
theorem Kept.of_step {p : Pool σ τ} {s' : σ} {new : List τ} {i : Nat} {t t' : τ}
    (h : p.threads[i]? = some t) (hnext : place s' ∨ hold t') :
    Kept place hold ⟨s', p.threads.set i t' ++ new⟩ := by
  rcases hnext with hplace | hhold
  · exact Or.inl hplace
  · obtain ⟨hlt, -⟩ := List.getElem?_eq_some_iff.mp h
    exact Or.inr ⟨t', List.mem_append_left _ (List.mem_set hlt t'), hhold⟩

/-- **Custody.** A resource stays kept through a step that hands on what the shared state had
and what the stepping thread held. -/
theorem Kept.step {p : Pool σ τ} {s' : σ} {new : List τ} {i : Nat} {t t' : τ}
    (hp : Kept place hold p) (h : p.threads[i]? = some t)
    (hplace : place p.shared → place s' ∨ hold t') (hhold : hold t → place s' ∨ hold t') :
    Kept place hold ⟨s', p.threads.set i t' ++ new⟩ := by
  rcases hp with hstate | ⟨u, hu, hmine⟩
  · exact Kept.of_step h (hplace hstate)
  · obtain ⟨j, hj⟩ := List.getElem?_of_mem hu
    by_cases hij : i = j
    · -- The holder is the thread that steps.
      subst hij
      rw [h, Option.some.injEq] at hj
      exact Kept.of_step h (hhold (hj ▸ hmine))
    · refine Or.inr ⟨u, List.mem_append_left _ (List.mem_of_getElem? (i := j) ?_), hmine⟩
      rw [List.getElem?_set_ne hij]
      exact hj

/-! ### Accounting -/

/-- The total weight of the threads. -/
def weight (w : τ → Nat) (ts : List τ) : Nat := (ts.map w).sum

variable (w : τ → Nat)

/-- A new thread adds its weight. -/
@[simp] theorem weight_append (ts us : List τ) :
    weight w (ts ++ us) = weight w ts + weight w us := by
  simp [weight]

/-- The weight of one thread. -/
@[simp] theorem weight_singleton (t : τ) : weight w [t] = w t := by
  simp [weight]

/-- The weight of no threads. -/
@[simp] theorem weight_nil : weight w ([] : List τ) = 0 := rfl

/-- The weight of a thread and others. -/
@[simp] theorem weight_cons (t : τ) (ts : List τ) :
    weight w (t :: ts) = w t + weight w ts := by
  simp [weight]

/-- **Accounting.** A step exchanges the weight of the thread that steps for its new
weight. -/
theorem weight_set {ts : List τ} {i : Nat} {t : τ} (t' : τ) (h : ts[i]? = some t) :
    weight w (ts.set i t') + w t = weight w ts + w t' := by
  induction ts generalizing i with
  | nil => simp at h
  | cons x xs ih =>
      cases i with
      | zero =>
          have hx : x = t := by simpa using h
          subst hx
          simp only [List.set_cons_zero, weight_cons]
          omega
      | succ i =>
          have hx : xs[i]? = some t := by simpa using h
          have hstep := ih hx
          simp only [List.set_cons_succ, weight_cons]
          omega

/-- The accounting of a whole step, launched threads included. -/
theorem weight_step {ts : List τ} {i : Nat} {t : τ} (t' : τ) (new : List τ)
    (h : ts[i]? = some t) :
    weight w (ts.set i t' ++ new) + w t = weight w ts + w t' + weight w new := by
  rw [weight_append]
  have hset := weight_set w t' h
  omega

/-- Each thread weighs at most the total. -/
theorem weight_le {ts : List τ} {t : τ} (h : t ∈ ts) : w t ≤ weight w ts :=
  List.single_le_sum (fun _ _ => Nat.zero_le _) _ (List.mem_map_of_mem h)

/-- A smaller weight has a smaller total. -/
theorem weight_mono {w w' : τ → Nat} (h : ∀ t, w t ≤ w' t) (ts : List τ) :
    weight w ts ≤ weight w' ts := by
  induction ts with
  | nil => exact Nat.le_refl _
  | cons t ts ih =>
      rw [weight_cons, weight_cons]
      exact Nat.add_le_add (h t) ih

/-- In a pool of weight `0`, every thread has weight `0`. -/
theorem weight_eq_zero {ts : List τ} : weight w ts = 0 ↔ ∀ t ∈ ts, w t = 0 := by
  simp [weight, List.sum_eq_zero_iff_forall_eq_nat]

/-- The stepping thread weighs at most the total, so it can be set apart. -/
theorem weight_of_get_le {ts : List τ} {i : Nat} {t : τ} (h : ts[i]? = some t) :
    w t ≤ weight w ts :=
  weight_le w (mem_of_get h)

/-! ### Numbered resources -/

/-- Resources that a program makes one after another are numbered. `place s c` counts how
often the shared state has the resource `c`, and `carry c t` how often a thread has it. Every
resource is in at most one place, and one that is still to be made is in none. -/
structure Unique (place : σ → Nat → Nat) (carry : Nat → τ → Nat) (made : σ → Nat)
    (p : Pool σ τ) : Prop where
  once : ∀ c, place p.shared c + weight (carry c) p.threads ≤ 1
  fresh : ∀ c, made p.shared ≤ c → place p.shared c + weight (carry c) p.threads = 0

variable {place : σ → Nat → Nat} {carry : Nat → τ → Nat} {made : σ → Nat}

/-- A new thread has no resources. -/
theorem Unique.call {p : Pool σ τ} (hp : Unique place carry made p) {t : τ}
    (ht : ∀ c, carry c t = 0) : Unique place carry made ⟨p.shared, p.threads ++ [t]⟩ := by
  have hweight : ∀ c, weight (carry c) (p.threads ++ [t]) = weight (carry c) p.threads := by
    intro c
    rw [weight_append, weight_singleton, ht, Nat.add_zero]
  refine ⟨fun c => ?_, fun c hc => ?_⟩
  · rw [hweight]
    exact hp.once c
  · rw [hweight]
    exact hp.fresh c hc

/-- **Numbered resources.** A step that only moves resources, drops them, or makes the next
ones keeps each of them in one place. -/
theorem Unique.step {p : Pool σ τ} (hp : Unique place carry made p) {i : Nat} {t t' : τ}
    {s' : σ} {new : List τ} (h : p.threads[i]? = some t) (hmade : made p.shared ≤ made s')
    (hstep : ∀ c, place s' c + carry c t' + weight (carry c) new
      ≤ place p.shared c + carry c t + if made p.shared ≤ c ∧ c < made s' then 1 else 0) :
    Unique place carry made ⟨s', p.threads.set i t' ++ new⟩ := by
  have hweight : ∀ c, weight (carry c) (p.threads.set i t' ++ new) + carry c t
      = weight (carry c) p.threads + carry c t' + weight (carry c) new :=
    fun c => weight_step _ t' new h
  refine ⟨fun c => ?_, fun c hc => ?_⟩
  · have hplace := hstep c
    have hsum := hweight c
    have honce := hp.once c
    show place s' c + weight (carry c) (p.threads.set i t' ++ new) ≤ 1
    split at hplace
    · -- A resource that this step makes was in no place before.
      rename_i hnew
      have hfresh := hp.fresh c hnew.1
      omega
    · omega
  · have hplace := hstep c
    have hsum := hweight c
    have hfresh := hp.fresh c (Nat.le_trans hmade hc)
    show place s' c + weight (carry c) (p.threads.set i t' ++ new) = 0
    rw [if_neg fun hnew => Nat.not_lt.mpr hc hnew.2] at hplace
    omega

/-- Two different threads weigh at most the total together. -/
theorem weight_pair_le (w : τ → Nat) {ts : List τ} {t u : τ} (ht : t ∈ ts) (hu : u ∈ ts)
    (hne : t ≠ u) : w t + w u ≤ weight w ts := by
  induction ts with
  | nil => cases ht
  | cons x xs ih =>
      rw [weight_cons]
      rcases List.mem_cons.mp ht with rfl | ht'
      · rcases List.mem_cons.mp hu with rfl | hu'
        · exact absurd rfl hne
        · have hle := weight_le w hu'
          omega
      · rcases List.mem_cons.mp hu with rfl | hu'
        · have hle := weight_le w ht'
          omega
        · have hle := ih ht' hu'
          omega

end Pool

end SmartFactory
