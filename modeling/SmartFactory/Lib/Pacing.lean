import SmartFactory.Lib.Run
import Mathlib.Algebra.Order.Group.Nat
import Mathlib.Data.Nat.Init

/-!
# `SmartFactory.Lib.Pacing`: actions that keep their distance in time

A system reads a clock with some of its actions, and it remembers in a register when it last did a
certain thing. It does the thing again only when the clock shows enough later than the register.

The clock readings at which a run does the thing are its firings. `isChain_firings` is that each of
them is later than the one before it by the interval `d`, as long as the clock does not go back
(`Forward`), and `gap_le` is what follows for any two of them. The clock may be a counter that wraps
around: the rule asks for the interval only when the reading is not before the register.
-/

set_option autoImplicit false

namespace SmartFactory.Pacing

open Run (outputs)

variable {S A : Type*} {step : S → A → Option S} {fires : S → A → Option Nat}

/-- The readings of the actions are in order, and none is before `t`. -/
def Forward (clock : A → Option Nat) : Nat → List A → Prop
  | _, [] => True
  | t, a :: as => t ≤ (clock a).getD t ∧ Forward clock ((clock a).getD t) as

variable {clock : A → Option Nat} {I : S → Prop} {d : Nat}

/-- **The rule.** Suppose that the invariant `I` is kept, that a firing waits for the interval `d`
and writes its reading to the register, and that nothing else writes to it. Then the firings of a
run keep the distance `d`, the first one from the register. -/
theorem isChain_firings (last : S → Nat) (keep : ∀ s a s', I s → step s a = some s' → I s')
    (hclock : ∀ s a t, fires s a = some t → clock a = some t)
    (hfire : ∀ s a s' t, I s → step s a = some s' → fires s a = some t → last s ≤ t →
      last s + d ≤ t ∧ last s' = t)
    (hrest : ∀ s a s', step s a = some s' → fires s a = none → last s' = last s)
    {s : S} {as : List A} {t : Nat} (hI : I s) (hlast : last s ≤ t)
    (hforward : Forward clock t as) :
    (last s :: outputs step fires s as).IsChain (fun a b => a + d ≤ b) := by
  induction as generalizing s t with
  | nil => exact .singleton _
  | cons a as ih =>
      obtain ⟨hle, hforward⟩ := hforward
      rw [outputs]
      cases hs : step s a with
      | none => exact .singleton _
      | some s' =>
          have hI' := keep s a s' hI hs
          cases hf : fires s a with
          | none =>
              -- No firing: the register stays, and the clock only goes on.
              have hsame := hrest s a s' hs hf
              have hrun := ih hI' (hsame.trans_le (hlast.trans hle)) hforward
              rw [hsame] at hrun
              exact hrun
          | some now =>
              rw [hclock s a now hf, Option.getD_some] at hle hforward
              -- A firing is due at the earliest `d` after the register, and the register then holds
              -- its reading. The rest of the run starts from there.
              obtain ⟨hwait, hregister⟩ := hfire s a s' now hI hs hf (hlast.trans hle)
              have hrun := ih hI' hregister.le hforward
              rw [hregister] at hrun
              exact .cons_cons hwait hrun

/-- In such a list the distance adds up. -/
theorem gap_le {ts : List Nat} (h : ts.IsChain (fun a b => a + d ≤ b)) {i j : Nat} (hij : i ≤ j)
    (hj : j < ts.length) : ts[i] + d * (j - i) ≤ ts[j] := by
  induction j, hij using Nat.le_induction with
  | base => simp
  | succ j hij ih =>
      have hstep : ts[j] + d ≤ ts[j + 1] := List.isChain_iff_getElem.mp h j hj
      have hbefore := ih (Nat.lt_of_succ_lt hj)
      have hcount : d * (j + 1 - i) = d * (j - i) + d := by
        rw [Nat.succ_sub hij, Nat.mul_succ]
      omega

end SmartFactory.Pacing
