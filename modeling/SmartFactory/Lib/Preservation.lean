import Mathlib.Tactic.Common

/-!
# `SmartFactory.Lib.Preservation`: invariants of programs with a state

`Preserves I x` says that the program `x` keeps the invariant `I`: when it starts in a state with
`I` and returns, it returns in a state with `I`. Nothing is said about a run that fails. There is a
rule for each way to put a program together, so an invariant is proved along the text of a program,
and what is left are the places where the state is changed.
-/

set_option autoImplicit false

namespace SmartFactory.Preservation

variable {σ ε α β : Type} {I : σ → Prop} {x : StateT σ (Except ε) α}

/-- The program keeps the invariant. -/
def Preserves (I : σ → Prop) (x : StateT σ (Except ε) α) : Prop :=
  ∀ s a s', I s → x.run s = .ok (a, s') → I s'

theorem preserves_pure (a : α) : Preserves I (pure a : StateT σ (Except ε) α) := by
  intro s b s' hs h
  cases h
  exact hs

theorem preserves_throw (e : ε) : Preserves I (throw e : StateT σ (Except ε) α) := by
  intro s b s' hs h
  cases h

/-- A change of the state. -/
theorem preserves_modify {g : σ → σ} (hg : ∀ s, I s → I (g s)) :
    Preserves I (modify g : StateT σ (Except ε) PUnit) := by
  intro s a s' hs h
  cases h
  exact hg s hs

/-- A change of the state that has a result. -/
theorem preserves_modifyGet {g : σ → α × σ} (hg : ∀ s, I s → I (g s).2) :
    Preserves I (modifyGet g : StateT σ (Except ε) α) := by
  intro s a s' hs h
  have hresult : g s = (a, s') := Except.ok.inj h
  have hkept := hg s hs
  rwa [hresult] at hkept

/-- A program without the state. -/
theorem preserves_lift (r : Except ε α) : Preserves I (liftM r : StateT σ (Except ε) α) := by
  intro s a s' hs h
  cases r with
  | error e => cases h
  | ok b =>
      cases h
      exact hs

/-- One program after the other. -/
theorem Preserves.bind {f : α → StateT σ (Except ε) β} (hx : Preserves I x)
    (hf : ∀ a, Preserves I (f a)) : Preserves I (x >>= f) := by
  intro s b s' hs h
  rw [StateT.run_bind] at h
  cases hrun : x.run s with
  | error e =>
      rw [hrun] at h
      cases h
  | ok r =>
      obtain ⟨a, s₁⟩ := r
      rw [hrun] at h
      exact hf a s₁ b s' (hx s a s₁ hs hrun) h

/-- The state is read. What follows keeps the invariant of the state that has been read. -/
theorem preserves_get_bind {f : σ → StateT σ (Except ε) β}
    (hf : ∀ s, I s → Preserves I (f s)) : Preserves I (get >>= f) :=
  fun s b s' hs h => hf s hs s b s' hs h

/-- A result that is not looked at. -/
theorem Preserves.discard (hx : Preserves I x) : Preserves I (discard x) :=
  hx.bind fun _ => preserves_pure _

end SmartFactory.Preservation
