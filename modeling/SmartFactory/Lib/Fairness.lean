import SmartFactory.Lib.ThreadPool

/-!
# `SmartFactory.Lib.Fairness`: what threads get to in the end

A `Pool` (`SmartFactory.Lib.ThreadPool`) that goes on for ever is a sequence of pools (`Endless`):
from one time to the next there is a move, or nothing happens.

`prompt s t` says that a thread at `t` can go on by itself in the state `s`. A sequence is `Fair`
when no thread stays where it is while it can always go on. This is weak fairness, for the leaving
of a position: a thread that makes choices again and again does not always choose to stay.

`reaches_of_rank` is the rule. A thread whose steps bring it nearer to a goal by some rank gets
there. `pad` makes a sequence out of a list of moves.
-/

set_option autoImplicit false

namespace SmartFactory.Pool

variable {σ τ γ : Type*}

section
variable (entry : τ → Bool) (exec : σ → τ → γ → Option (σ × τ × List τ))

/-- The pool at each time. -/
def Endless (ρ : Nat → Pool σ τ) : Prop :=
  ∀ n, ρ (n + 1) = ρ n ∨ ∃ m, (ρ n).move entry exec m = some (ρ (n + 1))
end

/-- No thread stays at a position that it can always leave. -/
def Fair (prompt : σ → τ → Prop) (ρ : Nat → Pool σ τ) : Prop :=
  ∀ (n i : Nat) (t : τ), (ρ n).threads[i]? = some t → (∀ m, n ≤ m → prompt (ρ m).shared t) →
    ∃ m, n ≤ m ∧ (ρ m).threads[i]? ≠ some t

variable {entry : τ → Bool} {exec : σ → τ → γ → Option (σ × τ × List τ)}
variable {ρ : Nat → Pool σ τ} {prompt : σ → τ → Prop}

/-- A property that every move keeps from some time on holds from then on. -/
theorem Endless.always (hρ : Endless entry exec ρ) {I : Pool σ τ → Prop} {n : Nat}
    (keep : ∀ k a, n ≤ k → I (ρ k) → (ρ k).move entry exec a = some (ρ (k + 1)) → I (ρ (k + 1)))
    (h : I (ρ n)) {m : Nat} (hm : n ≤ m) : I (ρ m) := by
  induction m, hm using Nat.le_induction with
  | base => exact h
  | succ m hm ih =>
      rcases hρ m with hsame | ⟨a, ha⟩
      · rw [hsame]
        exact ih
      · exact keep m a hm ih ha

/-- From one time to the next a thread stays where it is, or it makes a step. -/
theorem Endless.thread_cases (hρ : Endless entry exec ρ) {n i : Nat} {t : τ}
    (h : (ρ n).threads[i]? = some t) : (ρ (n + 1)).threads[i]? = some t ∨
      ∃ c t' new, exec (ρ n).shared t c = some ((ρ (n + 1)).shared, t', new) ∧
        (ρ (n + 1)).threads[i]? = some t' := by
  obtain ⟨hlt, -⟩ := List.getElem?_eq_some_iff.mp h
  rcases hρ n with hsame | ⟨a, ha⟩
  · rw [hsame]
    exact .inl h
  · rcases move_cases ha with ⟨u, -, -, hp⟩ | ⟨j, c, u, s, u', new, -, hj, hexec, hp⟩
    · rw [hp]
      exact .inl ((List.getElem?_append_left hlt).trans h)
    · rw [hp]
      have hget : ((ρ n).threads.set j u' ++ new)[i]? = ((ρ n).threads.set j u')[i]? :=
        List.getElem?_append_left (by rwa [List.length_set])
      dsimp only
      rw [hget]
      by_cases hij : j = i
      · -- It is this thread that makes the step.
        subst hij
        obtain rfl := Option.some.inj (hj.symm.trans h)
        exact .inr ⟨c, u', new, hexec, by rw [List.getElem?_set_self hlt]⟩
      · exact .inl ((List.getElem?_set_ne hij).trans h)

/-- **The rule.** Suppose that from some time on the state and the position of a thread have the
property `I`. From a position of the kind `P` the thread can go on, and each of its steps leads to
the goal `Q`, nearer to it, or nowhere. Then it gets to the goal. -/
theorem Fair.reaches_of_rank (hfair : Fair prompt ρ) (hρ : Endless entry exec ρ)
    {I Q : σ → τ → Prop} {P : τ → Prop} (rank : τ → Nat) {n i : Nat}
    (hI : ∀ m, n ≤ m → ∀ t, (ρ m).threads[i]? = some t → I (ρ m).shared t)
    (hprompt : ∀ s t, I s t → P t → prompt s t)
    (hstep : ∀ s t c s' t' new, I s t → P t → exec s t c = some (s', t', new) → I s' t' →
      Q s' t' ∨ (P t' ∧ (t' = t ∨ rank t' < rank t)))
    {t : τ} (hi : (ρ n).threads[i]? = some t) (hP : P t) :
    ∃ m, n ≤ m ∧ ∃ t', (ρ m).threads[i]? = some t' ∧ Q (ρ m).shared t' := by
  induction hrank : rank t using Nat.strongRecOn generalizing n t with
  | ind r ih =>
      by_contra hnever
      -- As long as the goal is not reached, the thread does not get nearer to it either.
      have hstays : ∀ m, n ≤ m → (ρ m).threads[i]? = some t := by
        intro m hm
        induction m, hm using Nat.le_induction with
        | base => exact hi
        | succ m hm hi =>
            rcases hρ.thread_cases hi with hsame | ⟨c, t', new, hexec, hnext⟩
            · exact hsame
            · have hm' : n ≤ m + 1 := Nat.le_succ_of_le hm
              rcases hstep _ _ c _ t' new (hI m hm t hi) hP hexec (hI (m + 1) hm' t' hnext) with
                hgoal | ⟨hP', rfl | hless⟩
              · exact absurd ⟨m + 1, hm', t', hnext, hgoal⟩ hnever
              · exact hnext
              · obtain ⟨k, hk, hgoal⟩ := ih (rank t') (hrank ▸ hless)
                  (fun k hk => hI k (hm'.trans hk)) hnext hP' rfl
                exact absurd ⟨k, hm'.trans hk, hgoal⟩ hnever
      obtain ⟨m, hm, hleft⟩ := hfair n i t hi fun m hm => hprompt _ _ (hI m hm t (hstays m hm)) hP
      exact hleft (hstays m hm)

/-! ### Schedules -/

section
variable (entry : τ → Bool) (exec : σ → τ → γ → Option (σ × τ × List τ))

/-- The pool at each time, when `choose` gives the next move. Where it gives none, or one that is
not possible, nothing happens. -/
def scheduled (choose : Nat → Pool σ τ → Option (Move τ γ)) (p : Pool σ τ) : Nat → Pool σ τ
  | 0 => p
  | n + 1 =>
      let q := scheduled choose p n
      ((choose n q).bind (q.move entry exec)).getD q
end

variable {choose : Nat → Pool σ τ → Option (Move τ γ)} {p p' : Pool σ τ}

theorem endless_scheduled : Endless entry exec (scheduled entry exec choose p) := by
  intro n
  rw [scheduled]
  cases hchoose : choose n (scheduled entry exec choose p n) with
  | none => exact .inl rfl
  | some m =>
      rw [Option.bind_some]
      cases hmove : (scheduled entry exec choose p n).move entry exec m with
      | none => exact .inl rfl
      | some q => exact .inr ⟨m, hmove⟩

/-- A schedule that begins with the moves of a run gets to the last state of the run. -/
theorem scheduled_of_run {ms : List (Move τ γ)} (h : Run.run (move entry exec) p ms = some p')
    (hchoose : ∀ n q, n < ms.length → choose n q = ms[n]?) :
    scheduled entry exec choose p ms.length = p' := by
  -- From the last move on, for `scheduled` adds moves at the end.
  induction ms using List.reverseRecOn generalizing p' with
  | nil => exact Option.some.inj h
  | append_singleton ms m ih =>
      rw [Run.run_append, Option.bind_eq_some_iff] at h
      obtain ⟨q, hq, hlast⟩ := h
      rw [Run.run, Option.bind_eq_some_iff] at hlast
      obtain ⟨q', hmove, hend⟩ := hlast
      obtain rfl := Option.some.inj hend
      have hbefore := ih hq fun n q hn => by
        rw [hchoose n q (by rw [List.length_append]; omega), List.getElem?_append_left hn]
      have hm : choose ms.length q = some m := by
        rw [hchoose ms.length q (by rw [List.length_append, List.length_singleton]; omega)]
        exact List.getElem?_concat_length
      rw [List.length_append, List.length_singleton, scheduled]
      rw [hbefore, hm, Option.bind_some, hmove, Option.getD_some]

/-- The schedule of the moves of a run ends in the last state of the run. -/
theorem scheduled_moves {ms : List (Move τ γ)} (h : Run.run (move entry exec) p ms = some p')
    {n : Nat} (hn : ms.length ≤ n) :
    scheduled entry exec (fun n _ => ms[n]?) p n = p' := by
  induction n, hn using Nat.le_induction with
  | base => exact scheduled_of_run h fun _ _ _ => rfl
  | succ n hn ih =>
      rw [scheduled, List.getElem?_eq_none hn]
      exact ih

/-- A schedule that ends where no thread can go on is fair. -/
theorem fair_of_stuck {n : Nat} (hlast : ∀ m, n ≤ m → ρ m = p)
    (hend : ∀ t ∈ p.threads, ¬ prompt p.shared t) : Fair prompt ρ := by
  intro k i t _ hprompt
  refine ⟨max k n, Nat.le_max_left .., fun hi => ?_⟩
  have hnow := hprompt _ (Nat.le_max_left k n)
  rw [hlast _ (Nat.le_max_right k n)] at hi hnow
  exact hend t (mem_of_get hi) hnow

end SmartFactory.Pool
