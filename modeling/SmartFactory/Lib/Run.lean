import Mathlib.Data.List.Basic
import Mathlib.Data.List.Induction

/-!
# `SmartFactory.Lib.Run`: runs of a guarded step function

A step function `step : S → A → Option S` answers `none` when the action is not enabled.
`run` replays a list of actions. The rest of the module is about properties of whole
runs.

* `Always step P s as`: `P` holds in every state that the run of `as` from `s` reaches,
  the first one included.
* `Each step G s as`: every action of the run that is enabled is taken in a state that
  meets the guard `G`.
* `outputs step out s as`: what the actions of the run put out, in their order.

`always_of_step` is the induction that carries an invariant along any run, and
`always_of_each` the one along a guarded run.
`always_iff_each` is its exact form: when a step outside the guard breaks the property,
the property holds along a run precisely when every step meets the guard. In
`always_iff_head_and_each` the first state counts as well.
-/

set_option autoImplicit false

namespace SmartFactory.Run

variable {S A : Type*} (step : S → A → Option S)

/-- Replay the actions `as` from `s`. The result is `none` when an action is not enabled. -/
def run : S → List A → Option S
  | s, [] => some s
  | s, a :: as => (step s a).bind (fun s' => run s' as)

/-- `P` holds in every state that the run of `as` from `s` reaches. -/
def Always (P : S → Prop) : S → List A → Prop
  | s, [] => P s
  | s, a :: as => P s ∧ ∀ s', step s a = some s' → Always P s' as

/-- Every enabled action of the run of `as` from `s` is taken in a state that meets `G`. -/
def Each (G : S → A → Prop) : S → List A → Prop
  | _, [] => True
  | s, a :: as => ∀ s', step s a = some s' → G s a ∧ Each G s' as

/-- What the run of `as` from `s` puts out. -/
def outputs {B : Type*} (out : S → A → Option B) : S → List A → List B
  | _, [] => []
  | s, a :: as => (step s a).elim [] fun s' => (out s a).toList ++ outputs out s' as

variable {step}
variable {P I : S → Prop} {G H : S → A → Prop}

/-- A run may be cut in two. -/
theorem run_append (s : S) (as bs : List A) :
    run step s (as ++ bs) = (run step s as).bind fun s' => run step s' bs := by
  induction as generalizing s with
  | nil => rfl
  | cons a as ih => simp only [List.cons_append, run, ih, Option.bind_assoc]

/-- The last action of a run adds what it puts out. -/
theorem outputs_concat {B : Type*} {out : S → A → Option B} {s s' s'' : S} {as : List A} {a : A}
    (hr : run step s as = some s') (hs : step s' a = some s'') :
    outputs step out s (as ++ [a]) = outputs step out s as ++ (out s' a).toList := by
  induction as generalizing s with
  | nil =>
      rw [run, Option.some.injEq] at hr
      subst hr
      simp [outputs, hs]
  | cons b bs ih =>
      rw [run, Option.bind_eq_some_iff] at hr
      obtain ⟨s₁, hb, hr⟩ := hr
      rw [List.cons_append, outputs, outputs, hb, Option.elim_some, Option.elim_some, ih hr,
        List.append_assoc]

/-- A function of what is put out. -/
theorem outputs_map {B C : Type*} {out : S → A → Option B} {out' : S → A → Option C} {f : B → C}
    (h : ∀ s a, (out s a).map f = out' s a) (s : S) (as : List A) :
    (outputs step out s as).map f = outputs step out' s as := by
  induction as generalizing s with
  | nil => rfl
  | cons a as ih =>
      rw [outputs, outputs]
      cases step s a with
      | none => rfl
      | some s' =>
          rw [Option.elim_some, Option.elim_some, List.map_append, ih s', ← h s a,
            Option.toList_map]

/-- **Induction from the end**, for a property of the run and of the state that it leads to. -/
theorem run_induction {C : List A → S → Prop} {s : S} (start : C [] s)
    (next : ∀ as s' a s'', run step s as = some s' → C as s' → step s' a = some s'' →
      C (as ++ [a]) s'') {as : List A} {s' : S} (hr : run step s as = some s') : C as s' := by
  induction as using List.reverseRecOn generalizing s' with
  | nil =>
      rw [run, Option.some.injEq] at hr
      exact hr ▸ start
  | append_singleton as a ih =>
      rw [run_append, Option.bind_eq_some_iff] at hr
      obtain ⟨s₁, hrun, hlast⟩ := hr
      rw [run, Option.bind_eq_some_iff] at hlast
      obtain ⟨s₂, hs, hlast⟩ := hlast
      rw [run, Option.some.injEq] at hlast
      exact hlast ▸ next as s₁ a s₂ hrun (ih hrun) hs

/-- The property holds in the first state of the run. -/
theorem Always.head {s : S} {as : List A} (h : Always step P s as) : P s := by
  cases as with
  | nil => exact h
  | cons a as => exact h.1

/-- The property holds in the last state of the run. -/
theorem Always.last {s s' : S} {as : List A} (h : Always step P s as)
    (hr : run step s as = some s') : P s' := by
  induction as generalizing s with
  | nil =>
      rw [run, Option.some.injEq] at hr
      exact hr ▸ h
  | cons a as ih =>
      rw [run, Option.bind_eq_some_iff] at hr
      obtain ⟨s₁, hs, hr⟩ := hr
      exact ih (h.2 s₁ hs) hr

/-- **Induction.** An invariant that every step keeps, and that implies `P`, gives `P` along
every run. `ok` is a property of all the actions of the run. -/
theorem always_of_step (ok : A → Prop) (keep : ∀ s a s', ok a → I s → step s a = some s' → I s')
    (imp : ∀ s, I s → P s) {s : S} {as : List A} (hok : ∀ a ∈ as, ok a) (hI : I s) :
    Always step P s as := by
  induction as generalizing s with
  | nil => exact imp s hI
  | cons a as ih =>
      refine ⟨imp s hI, fun s' hs => ih (fun b hb => hok b (List.mem_cons_of_mem a hb)) ?_⟩
      exact keep s a s' (hok a (List.mem_cons_self ..)) hI hs

/-- An invariant holds in the last state of a run. -/
theorem last_of_step (keep : ∀ s a s', I s → step s a = some s' → I s') {s s' : S} {as : List A}
    (hI : I s) (hr : run step s as = some s') : I s' :=
  (always_of_step (fun _ => True) (fun s a s' _ => keep s a s') (fun _ h => h)
    (fun _ _ => trivial) hI).last hr

/-- **Where a property comes from.** Suppose that a step leads to `P` only from a state of `P`, by
an action that is not one of `clears`, or because it `sets` the property. If `P` holds at the end of
a run and not at its start, then some action has set it and none has cleared it since. -/
theorem exists_set_of_run (sets : S → A → Prop) (clears : A → Prop)
    (keep : ∀ s a s', I s → step s a = some s' → I s')
    (origin : ∀ s a s', I s → step s a = some s' → P s' → (P s ∧ ¬ clears a) ∨ sets s a)
    {s s' : S} {as : List A} (hI : I s) (hstart : ¬ P s) (hr : run step s as = some s')
    (h : P s') : ∃ before a since s₁, as = before ++ a :: since ∧
      run step s before = some s₁ ∧ sets s₁ a ∧ ∀ b ∈ since, ¬ clears b := by
  refine run_induction (C := fun as s' => P s' → ∃ before a since s₁, as = before ++ a :: since ∧
    run step s before = some s₁ ∧ sets s₁ a ∧ ∀ b ∈ since, ¬ clears b)
    (fun h => absurd h hstart) ?_ hr h
  intro as s₁ a s₂ hrun ih hs hP
  -- Either the action that set it came earlier and this one has not cleared it, or it is this one.
  rcases origin s₁ a s₂ (last_of_step keep hI hrun) hs hP with ⟨hold, hkept⟩ | hset
  · obtain ⟨before, b, since, s₀, rfl, hbefore, hset, hsince⟩ := ih hold
    refine ⟨before, b, since ++ [a], s₀, by simp, hbefore, hset, fun c hc => ?_⟩
    rcases List.mem_append.mp hc with hc | hc
    · exact hsince c hc
    · rw [List.mem_singleton.mp hc]
      exact hkept
  · exact ⟨as, a, [], s₁, rfl, hrun, hset, nofun⟩

/-- A property of the last state that every step can be traced back through holds in the first
state. -/
theorem of_run_back {L : S → Prop} (keep : ∀ s a s', I s → step s a = some s' → I s')
    (back : ∀ s a s', I s → step s a = some s' → L s' → L s) {s s' : S} {as : List A} (hI : I s)
    (hr : run step s as = some s') (hL : L s') : L s := by
  induction as generalizing s with
  | nil =>
      rw [run, Option.some.injEq] at hr
      exact hr ▸ hL
  | cons a as ih =>
      rw [run, Option.bind_eq_some_iff] at hr
      obtain ⟨s₁, hs, hr⟩ := hr
      exact back s a s₁ hI hs (ih (keep s a s₁ hI hs) hr)

/-- **The last state.** Suppose that a step that ends in `L` leads to `P` exactly when `P` holds
already or the action is one of `hits`. Then `P` holds at the end of a run that ends in `L`
exactly when it held at the start or one of the actions was such a one. -/
theorem last_iff_exists {L : S → Prop} {hits : A → Prop}
    (keep : ∀ s a s', I s → step s a = some s' → I s')
    (back : ∀ s a s', I s → step s a = some s' → L s' → L s)
    (effect : ∀ s a s', I s → L s' → step s a = some s' → (P s' ↔ P s ∨ hits a))
    {s s' : S} {as : List A} (hI : I s) (hr : run step s as = some s') (hL : L s') :
    P s' ↔ P s ∨ ∃ a ∈ as, hits a := by
  induction as generalizing s with
  | nil =>
      rw [run, Option.some.injEq] at hr
      simp [hr]
  | cons a as ih =>
      rw [run, Option.bind_eq_some_iff] at hr
      obtain ⟨s₁, hs, hr⟩ := hr
      have hI₁ := keep s a s₁ hI hs
      -- `L` holds at the end only, but goes back step by step.
      have hL₁ := of_run_back keep back hI₁ hr hL
      rw [ih hI₁ hr, effect s a s₁ hI hL₁ hs, or_assoc]
      simp

/-- Two properties that agree wherever `P` holds hold along the same runs. -/
theorem always_congr {Q R : S → Prop} {s : S} {as : List A} (hP : Always step P s as)
    (hiff : ∀ s, P s → (Q s ↔ R s)) : Always step Q s as ↔ Always step R s as := by
  induction as generalizing s with
  | nil => exact hiff s hP
  | cons a as ih =>
      refine and_congr (hiff s hP.1) (forall₂_congr fun s' hs => ?_)
      exact ih (hP.2 s' hs)

/-- **Guarded induction.** An invariant that every guarded step keeps, and that implies
`P`, gives `P` along every run whose steps all meet the guard. `ok` is a property of all
the actions of the run. -/
theorem always_of_each (ok : A → Prop)
    (keep : ∀ s a s', ok a → I s → G s a → step s a = some s' → I s')
    (imp : ∀ s, I s → P s) {s : S} {as : List A} (hok : ∀ a ∈ as, ok a) (hI : I s)
    (hG : Each step G s as) : Always step P s as := by
  induction as generalizing s with
  | nil => exact imp s hI
  | cons a as ih =>
      refine ⟨imp s hI, fun s' hs => ?_⟩
      obtain ⟨hg, hrest⟩ := hG s' hs
      exact ih (fun b hb => hok b (List.mem_cons_of_mem a hb))
        (keep s a s' (hok a (List.mem_cons_self ..)) hI hg hs) hrest

/-- Along a guarded run with an invariant, every step has the property `H` that the
invariant and the guard give. -/
theorem each_of_each (ok : A → Prop)
    (keep : ∀ s a s', ok a → I s → G s a → step s a = some s' → I s')
    (imp : ∀ s a s', ok a → I s → G s a → step s a = some s' → H s a) {s : S} {as : List A}
    (hok : ∀ a ∈ as, ok a) (hI : I s) (hG : Each step G s as) : Each step H s as := by
  induction as generalizing s with
  | nil => trivial
  | cons a as ih =>
      intro s' hs
      obtain ⟨hg, hrest⟩ := hG s' hs
      have ha := hok a (List.mem_cons_self ..)
      exact ⟨imp s a s' ha hI hg hs,
        ih (fun b hb => hok b (List.mem_cons_of_mem a hb)) (keep s a s' ha hI hg hs) hrest⟩

/-- **The exact guard.** Suppose that a guarded step keeps the invariant together with
`P`, and that a step outside the guard leads from such a state to a state without `P`.
Then `P` holds along a run exactly when every step of the run meets the guard. -/
theorem always_iff_each (ok : A → Prop)
    (keep : ∀ s a s', ok a → I s → P s → G s a → step s a = some s' → I s' ∧ P s')
    (only : ∀ s a s', ok a → I s → P s → ¬ G s a → step s a = some s' → ¬ P s')
    {s : S} {as : List A} (hok : ∀ a ∈ as, ok a) (hI : I s) (hP : P s) :
    Always step P s as ↔ Each step G s as := by
  constructor
  · intro h
    induction as generalizing s with
    | nil => trivial
    | cons a as ih =>
        intro s' hs
        have ha := hok a (List.mem_cons_self ..)
        have hP' : P s' := (h.2 s' hs).head
        have hg : G s a := by
          -- A step outside the guard would lead out of `P`.
          by_contra hg
          exact only s a s' ha hI hP hg hs hP'
        have hI' : I s' := (keep s a s' ha hI hP hg hs).1
        exact ⟨hg, ih (fun b hb => hok b (List.mem_cons_of_mem a hb)) hI' hP' (h.2 s' hs)⟩
  · intro h
    exact always_of_each (I := fun s => I s ∧ P s) ok
      (fun s a s' ha hs hg hstep => keep s a s' ha hs.1 hs.2 hg hstep) (fun _ hs => hs.2) hok
      ⟨hI, hP⟩ h

/-- The exact guard, when the property need not hold in the first state. -/
theorem always_iff_head_and_each (ok : A → Prop)
    (keep : ∀ s a s', ok a → I s → P s → G s a → step s a = some s' → I s' ∧ P s')
    (only : ∀ s a s', ok a → I s → P s → ¬ G s a → step s a = some s' → ¬ P s')
    {s : S} {as : List A} (hok : ∀ a ∈ as, ok a) (hI : I s) :
    Always step P s as ↔ P s ∧ Each step G s as := by
  constructor
  · exact fun h => ⟨h.head, (always_iff_each ok keep only hok hI h.head).mp h⟩
  · rintro ⟨hP, hG⟩
    exact (always_iff_each ok keep only hok hI hP).mpr hG

/-- The guard holds for the last action of a guarded run. -/
theorem Each.last {s s' s'' : S} {as : List A} {a : A} (h : Each step G s (as ++ [a]))
    (hr : run step s as = some s') (hs : step s' a = some s'') : G s' a := by
  induction as generalizing s with
  | nil =>
      rw [run, Option.some.injEq] at hr
      subst hr
      exact (h s'' hs).1
  | cons b bs ih =>
      rw [run, Option.bind_eq_some_iff] at hr
      obtain ⟨s₁, hb, hr⟩ := hr
      exact ih (h s₁ hb).2 hr

/-- Two properties that hold along a run hold together. -/
theorem Always.and {Q : S → Prop} {s : S} {as : List A} (hP : Always step P s as)
    (hQ : Always step Q s as) : Always step (fun s => P s ∧ Q s) s as := by
  induction as generalizing s with
  | nil => exact ⟨hP, hQ⟩
  | cons a as ih => exact ⟨⟨hP.1, hQ.1⟩, fun s' hs => ih (hP.2 s' hs) (hQ.2 s' hs)⟩

/-- Two guards that agree at every step between states of `P` hold along the same runs. -/
theorem each_congr (ok : A → Prop)
    (hiff : ∀ s a s', ok a → P s → P s' → step s a = some s' → (G s a ↔ H s a)) {s : S}
    {as : List A} (hok : ∀ a ∈ as, ok a) (hP : Always step P s as) :
    Each step G s as ↔ Each step H s as := by
  induction as generalizing s with
  | nil => exact Iff.rfl
  | cons a as ih =>
      refine forall₂_congr fun s' hs => and_congr ?_ ?_
      · exact hiff s a s' (hok a (List.mem_cons_self ..)) hP.1 (hP.2 s' hs).head hs
      · exact ih (fun b hb => hok b (List.mem_cons_of_mem a hb)) (hP.2 s' hs)

/-- Each step meets both guards exactly when each meets the one and each meets the other. -/
theorem each_and {s : S} {as : List A} : Each step (fun s a => G s a ∧ H s a) s as ↔
    Each step G s as ∧ Each step H s as := by
  induction as generalizing s with
  | nil => exact ⟨fun _ => ⟨trivial, trivial⟩, fun _ => trivial⟩
  | cons a as ih =>
      constructor
      · intro h
        exact ⟨fun s' hs => ⟨(h s' hs).1.1, (ih.mp (h s' hs).2).1⟩,
          fun s' hs => ⟨(h s' hs).1.2, (ih.mp (h s' hs).2).2⟩⟩
      · rintro ⟨hG, hH⟩ s' hs
        exact ⟨⟨(hG s' hs).1, (hH s' hs).1⟩, ih.mpr ⟨(hG s' hs).2, (hH s' hs).2⟩⟩

/-- `Each` for a guard that can be computed. -/
def eachb (step : S → A → Option S) (check : S → A → Bool) : S → List A → Bool
  | _, [] => true
  | s, a :: as => check s a && (step s a).all (fun s' => eachb step check s' as)

/-- A run whose check computes to true is guarded. -/
theorem each_of_eachb {check : S → A → Bool} (hcheck : ∀ s a, check s a = true → G s a) {s : S}
    {as : List A} (h : eachb step check s as = true) : Each step G s as := by
  induction as generalizing s with
  | nil => trivial
  | cons a as ih =>
      intro s' hs
      rw [eachb, Bool.and_eq_true, hs, Option.all_some] at h
      exact ⟨hcheck s a h.1, ih h.2⟩

/-- `Always` for a property that can be computed. -/
def alwaysb (step : S → A → Option S) (check : S → Bool) : S → List A → Bool
  | s, [] => check s
  | s, a :: as => check s && (step s a).all (fun s' => alwaysb step check s' as)

/-- A run whose states all compute to true has the property. -/
theorem always_of_alwaysb {check : S → Bool} (hcheck : ∀ s, check s = true → P s) {s : S}
    {as : List A} (h : alwaysb step check s as = true) : Always step P s as := by
  induction as generalizing s with
  | nil => exact hcheck s h
  | cons a as ih =>
      rw [alwaysb, Bool.and_eq_true] at h
      refine ⟨hcheck s h.1, fun s' hs => ih ?_⟩
      rw [hs, Option.all_some] at h
      exact h.2

end SmartFactory.Run
