import SmartFactory.Lib.Run
import Mathlib.Data.List.Infix

/-!
# `SmartFactory.Lib.Subscription`: what a subscriber gets of a broadcast

Items are sent one after the other, each to those who are subscribed at that time. A subscriber
comes at some time and leaves at another one. `outputsSince` are the items that are sent from the
step on with which it comes, and `Block` says what it has got of them so far: all of them as long as
it is subscribed, and the first ones once it has left. There is one lemma for each thing that can
happen: nothing is sent (`Block.idle`), the subscriber gets an item (`Block.sent`) or it does not
(`Block.missed`).

`numbered_of_run` is about a counter that numbers the items of a run.
-/

set_option autoImplicit false

namespace SmartFactory.Subscription

open Run (run outputs outputs_concat run_induction last_of_step)

/-! ### Since one has come -/

section
variable {S A B : Type*} (step : S → A → Option S) (out : S → A → Option B) (came : S → Prop)
  [DecidablePred came]

/-- What a run puts out from the first action on that leads to `came`. -/
def outputsSince : S → List A → List B
  | _, [] => []
  | s, a :: as => (step s a).elim [] fun s' =>
      if came s' then (out s a).toList ++ outputs step out s' as else outputsSince s' as

variable {step out came}

/-- It is the end of what the run puts out. -/
theorem outputsSince_suffix (s : S) (as : List A) :
    outputsSince step out came s as <:+ outputs step out s as := by
  induction as generalizing s with
  | nil => exact List.suffix_refl _
  | cons a as ih =>
      rw [outputsSince, outputs]
      cases step s a with
      | none => exact List.suffix_refl _
      | some s' =>
          rw [Option.elim_some, Option.elim_some]
          split
          · exact List.suffix_refl _
          · exact (ih s').trans (List.suffix_append _ _)

/-- Nobody who has come goes back, so the last action of a run adds what it puts out if one has come
by then. `I` is an invariant. -/
theorem outputsSince_concat {I : S → Prop} (keep : ∀ s a s', I s → step s a = some s' → I s')
    (mono : ∀ s a s', I s → came s → step s a = some s' → came s')
    {s s' s'' : S} {as : List A} {a : A} (hI : I s) (hr : run step s as = some s')
    (hs : step s' a = some s'') : outputsSince step out came s (as ++ [a]) =
      outputsSince step out came s as ++ if came s'' then (out s' a).toList else [] := by
  induction as generalizing s with
  | nil =>
      rw [run, Option.some.injEq] at hr
      subst hr
      simp [outputsSince, outputs, hs]
  | cons b bs ih =>
      rw [run, Option.bind_eq_some_iff] at hr
      obtain ⟨s₁, hb, hr⟩ := hr
      have hI₁ : I s₁ := keep s b s₁ hI hb
      rw [List.cons_append, outputsSince, outputsSince, hb, Option.elim_some, Option.elim_some]
      split
      · -- Who has come by now still counts at the end.
        rename_i hcame
        have hboth : I s' ∧ came s' := last_of_step (I := fun s => I s ∧ came s)
          (fun s a s' h hs => ⟨keep s a s' h.1 hs, mono s a s' h.1 h.2 hs⟩) ⟨hI₁, hcame⟩ hr
        have hlast : came s'' := mono s' a s'' hboth.1 hboth.2 hs
        rw [outputs_concat hr hs, if_pos hlast, List.append_assoc]
      · exact ih hI₁ hr

/-- A function of the items. -/
theorem outputsSince_map {C : Type*} {out' : S → A → Option C} {f : B → C}
    (h : ∀ s a, (out s a).map f = out' s a) (s : S) (as : List A) :
    (outputsSince step out came s as).map f = outputsSince step out' came s as := by
  induction as generalizing s with
  | nil => rfl
  | cons a as ih =>
      rw [outputsSince, outputsSince]
      cases step s a with
      | none => rfl
      | some s' =>
          rw [Option.elim_some, Option.elim_some]
          split
          · rw [List.map_append, Run.outputs_map h, ← h s a, Option.toList_map]
          · exact ih s'

end

/-! ### Blocks -/

section
variable {α : Type*} {came live came' live' : Prop} {got since : List α}

/-- What one has got of the items that have been sent `since` it came. `live` means that it is
subscribed. -/
structure Block (came live : Prop) (got since : List α) : Prop where
  inner : got <+: since
  whole : live → got = since
  early : ¬ came → since = []

/-- The start. -/
theorem Block.start : Block came live ([] : List α) [] :=
  ⟨List.prefix_refl _, fun _ => rfl, fun _ => rfl⟩

/-- Nothing is sent. For one that comes nothing has been sent so far. -/
theorem Block.idle (h : Block came live got since) (hlive : live' → live ∨ ¬ came)
    (hcame : came → came') : Block came' live' got since where
  inner := h.inner
  whole hl := by
    rcases hlive hl with hold | hnew
    · exact h.whole hold
    · have hnone := h.early hnew
      subst hnone
      exact List.prefix_nil.mp h.inner
  early hc := h.early fun hold => hc (hcame hold)

/-- A subscriber gets an item. -/
theorem Block.sent (h : Block came live got since) (hl : live) (hcame : came') (a : α) :
    Block came' live' (got ++ [a]) (since ++ [a]) := by
  have hall : got = since := h.whole hl
  subst hall
  exact ⟨List.prefix_refl _, fun _ => rfl, fun hc => absurd hcame hc⟩

/-- One that has left does not get the item. -/
theorem Block.missed (h : Block came live got since) (hlive : ¬ live') (hcame : came') (a : α) :
    Block came' live' got (since ++ [a]) :=
  ⟨h.inner.trans (List.prefix_append _ _), fun hl => absurd hl hlive, fun hc => absurd hcame hc⟩

end

/-! ### Numbering -/

section
variable {S A B : Type*} {step : S → A → Option S} {out : S → A → Option B} {I : S → Prop}

/-- **Numbering.** A counter that goes up with each item, and only then, numbers the items from 1
on. `I` is an invariant. -/
theorem numbered_of_run (count : S → UInt64) {number : B → UInt64}
    (keep : ∀ s a s', I s → step s a = some s' → I s')
    (hstep : ∀ s a s', I s → step s a = some s' →
      (out s a = none ∧ count s' = count s) ∨
      ∃ b, out s a = some b ∧ number b = count s + 1 ∧ count s' = count s + 1)
    {s s' : S} {as : List A} (hI : I s) (hs : count s = 0) (hr : run step s as = some s') :
    (outputs step out s as).map number =
      (List.range (outputs step out s as).length).map fun i => UInt64.ofNat (i + 1) := by
  -- The counter is the number of the items so far. Both are proved together, since the number of
  -- the next item is read off the counter.
  have hboth : count s' = UInt64.ofNat (outputs step out s as).length ∧
      (outputs step out s as).map number =
        (List.range (outputs step out s as).length).map fun i => UInt64.ofNat (i + 1) := by
    refine run_induction (C := fun as s' =>
      count s' = UInt64.ofNat (outputs step out s as).length ∧
      (outputs step out s as).map number =
        (List.range (outputs step out s as).length).map fun i => UInt64.ofNat (i + 1))
      ⟨hs, rfl⟩ ?_ hr
    rintro as s' a s'' hrun ⟨hcount, hnumbers⟩ hnext
    rw [outputs_concat hrun hnext]
    rcases hstep s' a s'' (last_of_step keep hI hrun) hnext with
      ⟨hnone, hsame⟩ | ⟨b, hsome, hnumber, hup⟩
    · rw [hnone, Option.toList_none, List.append_nil]
      exact ⟨hsame.trans hcount, hnumbers⟩
    · have hsucc : count s' + 1 = UInt64.ofNat ((outputs step out s as).length + 1) := by
        rw [hcount, UInt64.ofNat_add]
        rfl
      rw [hsome, Option.toList_some, List.length_append, List.length_singleton, List.map_append,
        List.map_singleton, hnumbers, hnumber, hsucc, List.range_succ, List.map_append,
        List.map_singleton]
      exact ⟨hup.trans hsucc, rfl⟩
  exact hboth.2

end

end SmartFactory.Subscription
