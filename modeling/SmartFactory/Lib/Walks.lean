import Mathlib.Data.Fintype.Card
import Mathlib.Data.List.Nodup
import Mathlib.Data.Set.Finite.Basic
import Mathlib.Logic.ExistsUnique
import Mathlib.Logic.Relation

/-!
# `SmartFactory.Lib.Walks`: all walks through a graph

A graph is given by the list of the successors of each node, and `enter` says which nodes a walk
goes through. The others end it. A walk is the list of the positions of the successors that it
takes, so two edges to the same node are two walks.

`walks` follows all of them, depth first and without a memory of where it has been. The number of
levels is its fuel.

* `exists_walks_iff`: there is enough fuel exactly when no cycle can be reached, if the graph is
  finite.
* `mem_walks_iff` and `nodup_walks`: it finds every walk, and each of them once.
* `countP_walks_eq_one_iff`: so it finds a node once exactly when there is one walk to it.
-/

set_option autoImplicit false

namespace SmartFactory.Walks

open Relation

variable {α : Type*} (next : α → List α) (enter : α → Bool)

/-- The walk leads from one node to another. -/
inductive Leads : α → List Nat → α → Prop where
  | last {a b : α} {i : Nat} : (next a)[i]? = some b → Leads a [i] b
  | more {a b c : α} {i : Nat} {w : List Nat} :
      (next a)[i]? = some b → enter b = true → Leads b w c → Leads a (i :: w) c

/-- The walk goes through this edge. -/
def Edge (a b : α) : Prop := b ∈ next a ∧ enter b = true

/-- The walks that begin with this successor, at position `i`. `onward` gives the walks from a
node. -/
def walksVia (onward : α → Option (List (List Nat × α))) (i : Nat) (b : α) :
    Option (List (List Nat × α)) :=
  if enter b then (onward b).map (List.map fun p => (i :: p.1, p.2)) else some [([i], b)]

/-- The walks that begin with one of these successors. The first one is at position `i`. -/
def walksFrom (onward : α → Option (List (List Nat × α))) :
    Nat → List α → Option (List (List Nat × α))
  | _, [] => some []
  | i, b :: bs => do
      let first ← walksVia enter onward i b
      let others ← walksFrom onward (i + 1) bs
      some (first ++ others)

/-- The walks from a node, each with the node where it ends. -/
def walks : Nat → α → Option (List (List Nat × α))
  | 0, _ => none
  | fuel + 1, a => walksFrom enter (walks fuel) 0 (next a)

/-! ### Enough fuel -/

section
variable {next enter} {onward : α → Option (List (List Nat × α))}

/-- The walks from a list of nodes end when those from each of them do. -/
theorem walksFrom_isSome_iff {i : Nat} {bs : List α} : (walksFrom enter onward i bs).isSome ↔
    ∀ b ∈ bs, enter b = true → (onward b).isSome := by
  induction bs generalizing i with
  | nil => simp [walksFrom]
  | cons b bs ih =>
      have hrest := ih (i := i + 1)
      simp only [Option.isSome_iff_exists] at hrest ⊢
      rw [List.forall_mem_cons, ← hrest, walksFrom, walksVia]
      cases hb : enter b <;> cases onward b <;> cases walksFrom enter onward (i + 1) bs <;> simp

/-- One level more than the successors take. -/
theorem walks_succ_isSome_iff {fuel : Nat} {a : α} : (walks next enter (fuel + 1) a).isSome ↔
    ∀ b, Edge next enter a b → (walks next enter fuel b).isSome := by
  rw [walks, walksFrom_isSome_iff]
  exact forall_congr' fun b => and_imp.symm

/-- More fuel does no harm. -/
theorem walks_isSome_mono {fuel fuel' : Nat} {a : α} (hle : fuel ≤ fuel')
    (h : (walks next enter fuel a).isSome) : (walks next enter fuel' a).isSome := by
  induction fuel generalizing fuel' a with
  | zero => cases h
  | succ fuel ih =>
      obtain ⟨fuel', rfl⟩ : ∃ n, fuel' = n + 1 := ⟨fuel' - 1, by omega⟩
      rw [walks_succ_isSome_iff] at h ⊢
      exact fun b hb => ih (by omega) (h b hb)

/-- Fuel for all nodes of a list. -/
theorem exists_fuel_forall {p : α → Prop} {as : List α}
    (h : ∀ a ∈ as, p a → ∃ fuel, (walks next enter fuel a).isSome) :
    ∃ fuel, ∀ a ∈ as, p a → (walks next enter fuel a).isSome := by
  induction as with
  | nil => exact ⟨0, fun a ha => absurd ha List.not_mem_nil⟩
  | cons a as ih =>
      rw [List.forall_mem_cons] at h
      obtain ⟨n, hn⟩ := ih h.2
      by_cases ha : p a
      · obtain ⟨m, hm⟩ := h.1 ha
        refine ⟨max m n, List.forall_mem_cons.mpr ⟨fun _ => ?_, fun b hb hp => ?_⟩⟩
        · exact walks_isSome_mono (Nat.le_max_left ..) hm
        · exact walks_isSome_mono (Nat.le_max_right ..) (hn b hb hp)
      · exact ⟨n, List.forall_mem_cons.mpr ⟨fun hp => absurd hp ha, hn⟩⟩

/-- **Some fuel is enough** exactly when the edges are well-founded below the node. -/
theorem exists_walks_iff_acc {a : α} : (∃ fuel, (walks next enter fuel a).isSome) ↔
    Acc (fun y x => Edge next enter x y) a := by
  constructor
  · rintro ⟨fuel, h⟩
    induction fuel generalizing a with
    | zero => cases h
    | succ fuel ih => exact ⟨a, fun b hb => ih (walks_succ_isSome_iff.mp h b hb)⟩
  · intro h
    induction h with
    | intro a _ ih =>
        obtain ⟨fuel, hfuel⟩ := exists_fuel_forall fun b hb he => ih b ⟨hb, he⟩
        exact ⟨fuel + 1, walks_succ_isSome_iff.mpr fun b hb => hfuel b hb.1 hb.2⟩

end

/-- In a finite graph nothing else than a cycle is in the way. -/
theorem acc_iff_no_cycle {r : α → α → Prop} {a : α} (hfin : {x | ReflTransGen r a x}.Finite) :
    Acc (fun y x => r x y) a ↔ ∀ x, ReflTransGen r a x → ¬ TransGen r x x := by
  constructor
  · intro h x hx
    -- A node that is reached from an accessible one is accessible, also for the transitive closure,
    -- and no such node is on a cycle.
    have hacc : Acc (fun y x => r x y) x := by
      induction hx with
      | refl => exact h
      | tail _ hxy ih => exact ih.inv hxy
    have hswap := hacc.transGen
    clear hx hacc
    induction hswap with
    | intro x _ ih => exact fun hcycle => ih x (transGen_swap.mpr hcycle) hcycle
  · intro h
    -- On the finitely many nodes in reach the transitive closure is a strict order when there is no
    -- cycle, and such an order is well founded.
    let Reached := {x | ReflTransGen r a x}
    have : Finite Reached := hfin
    let R : Reached → Reached → Prop := fun y x => TransGen r x y
    have : IsTrans Reached R := ⟨fun _ _ _ hxy hyz => hyz.trans hxy⟩
    have : Std.Irrefl R := ⟨fun x => h x x.2⟩
    have hwf : WellFounded R := Finite.wellFounded_of_trans_of_irrefl R
    have hacc : ∀ x : Reached, Acc (fun y x => r x y) x.1 := by
      intro x
      induction x using hwf.induction with
      | h x ih => exact ⟨x.1, fun y hy => ih ⟨y, x.2.tail hy⟩ (.single hy)⟩
    exact hacc ⟨a, .refl⟩

variable {next enter} in
/-- **Termination.** -/
theorem exists_walks_iff {a : α} (hfin : {x | ReflTransGen (Edge next enter) a x}.Finite) :
    (∃ fuel, (walks next enter fuel a).isSome) ↔
      ∀ x, ReflTransGen (Edge next enter) a x → ¬ TransGen (Edge next enter) x x := by
  rw [exists_walks_iff_acc, acc_iff_no_cycle hfin]

/-! ### What is found -/

section
variable {next enter} {onward : α → Option (List (List Nat × α))}

/-- The walks that begin with an edge. -/
theorem mem_walksVia_iff {i : Nat} {b : α} {ws : List (List Nat × α)}
    (h : walksVia enter onward i b = some ws) {w : List Nat} {c : α} :
    (w, c) ∈ ws ↔ (enter b = false ∧ w = [i] ∧ c = b) ∨
      (enter b = true ∧ ∃ ws' w', onward b = some ws' ∧ (w', c) ∈ ws' ∧ w = i :: w') := by
  rw [walksVia] at h
  cases hb : enter b with
  | false =>
      rw [hb, if_neg Bool.false_ne_true, Option.some.injEq] at h
      simp [← h]
  | true =>
      rw [hb, if_pos rfl, Option.map_eq_some_iff] at h
      obtain ⟨ws', hws', rfl⟩ := h
      simp only [List.mem_map, Prod.exists, Prod.mk.injEq, hws', Option.some.injEq]
      constructor
      · rintro ⟨w', _, hmem, rfl, rfl⟩
        exact .inr ⟨trivial, ws', w', rfl, hmem, rfl⟩
      · rintro (⟨hfalse, -⟩ | ⟨-, _, w', rfl, hmem, rfl⟩)
        · cases hfalse
        · exact ⟨w', c, hmem, rfl, rfl⟩

/-- The walks from a list are those from its head and those from its tail. -/
theorem walksFrom_cons {i : Nat} {b : α} {bs : List α} {ws : List (List Nat × α)}
    (h : walksFrom enter onward i (b :: bs) = some ws) :
    ∃ first others, walksVia enter onward i b = some first ∧
      walksFrom enter onward (i + 1) bs = some others ∧ ws = first ++ others := by
  simp only [walksFrom, Option.bind_eq_bind, Option.bind_eq_some_iff] at h
  obtain ⟨first, hfirst, others, hothers, h⟩ := h
  exact ⟨first, others, hfirst, hothers, (Option.some.inj h).symm⟩

/-- The walks from a list are those from its elements. -/
theorem mem_walksFrom_iff {i : Nat} {bs : List α} {ws : List (List Nat × α)}
    (h : walksFrom enter onward i bs = some ws) {w : List Nat} {c : α} :
    (w, c) ∈ ws ↔ ∃ j b ws', bs[j]? = some b ∧ walksVia enter onward (i + j) b = some ws' ∧
      (w, c) ∈ ws' := by
  induction bs generalizing i ws with
  | nil =>
      rw [walksFrom, Option.some.injEq] at h
      simp [← h]
  | cons b bs ih =>
      -- The first element has position `i`; those of the tail are shifted by one.
      obtain ⟨first, others, hfirst, hothers, rfl⟩ := walksFrom_cons h
      rw [List.mem_append, ih hothers]
      constructor
      · rintro (hmem | ⟨j, b', ws', hb', hws', hmem⟩)
        · exact ⟨0, b, first, rfl, hfirst, hmem⟩
        · rw [Nat.add_right_comm] at hws'
          exact ⟨j + 1, b', ws', hb', hws', hmem⟩
      · rintro ⟨j, b', ws', hb', hws', hmem⟩
        cases j with
        | zero =>
            obtain rfl := Option.some.inj hb'
            obtain rfl := Option.some.inj (hfirst.symm.trans hws')
            exact .inl hmem
        | succ j =>
            rw [← Nat.add_assoc, Nat.add_right_comm] at hws'
            exact .inr ⟨j, b', ws', hb', hws', hmem⟩

/-- **What is found.** The walks to the nodes that end a walk. -/
theorem mem_walks_iff {fuel : Nat} {a : α} {ws : List (List Nat × α)}
    (h : walks next enter fuel a = some ws) {w : List Nat} {c : α} :
    (w, c) ∈ ws ↔ Leads next enter a w c ∧ enter c = false := by
  induction fuel generalizing a ws w with
  | zero => cases h
  | succ fuel ih =>
      rw [walks] at h
      rw [mem_walksFrom_iff h]
      constructor
      · rintro ⟨j, b, ws', hb, hws', hvia⟩
        rw [Nat.zero_add] at hws'
        rcases (mem_walksVia_iff hws').mp hvia with
          ⟨hend, rfl, rfl⟩ | ⟨henter, ws₁, w', hws₁, hmem, rfl⟩
        · exact ⟨.last hb, hend⟩
        · obtain ⟨hleads, hend⟩ := (ih hws₁).mp hmem
          exact ⟨.more hb henter hleads, hend⟩
      · rintro ⟨hleads, hend⟩
        -- The whole walk had enough fuel, and so had the walk from each node that is entered.
        have hsome := fun b hb => (walksFrom_isSome_iff.mp (h ▸ rfl : (walksFrom enter
          (walks next enter fuel) 0 (next a)).isSome)) b hb
        cases hleads with
        | @last b _ i hb =>
            refine ⟨i, c, [([i], c)], hb, ?_, List.mem_singleton.mpr rfl⟩
            rw [walksVia, hend, Nat.zero_add]
            rfl
        | @more _ b _ i w hb henter hleads =>
            obtain ⟨ws₁, hws₁⟩ := Option.isSome_iff_exists.mp
              (hsome b (List.mem_of_getElem? hb) henter)
            refine ⟨i, b, ws₁.map fun p => (i :: p.1, p.2), hb, ?_, ?_⟩
            · rw [walksVia, henter, Nat.zero_add, if_pos rfl, hws₁, Option.map_some]
            · exact List.mem_map.mpr ⟨(w, c), (ih hws₁).mpr ⟨hleads, hend⟩, rfl⟩

/-! ### Once -/

/-- No walk through an edge occurs twice. -/
theorem nodup_walksVia (hnodup : ∀ b ws, onward b = some ws → ws.Nodup) {i : Nat} {b : α}
    {ws : List (List Nat × α)} (h : walksVia enter onward i b = some ws) : ws.Nodup := by
  rw [walksVia] at h
  split at h
  · obtain ⟨ws', hws', rfl⟩ := Option.map_eq_some_iff.mp h
    refine (hnodup b ws' hws').map ?_
    rintro ⟨w, c⟩ ⟨w', c'⟩ heq
    simpa using heq
  · obtain rfl := Option.some.inj h
    exact List.nodup_singleton _

/-- A walk begins with the position of its first successor. -/
theorem head_of_mem_walksVia {i : Nat} {b : α} {ws : List (List Nat × α)}
    (h : walksVia enter onward i b = some ws) {w : List Nat} {c : α} (hmem : (w, c) ∈ ws) :
    w.head? = some i := by
  rcases (mem_walksVia_iff h).mp hmem with ⟨-, rfl, -⟩ | ⟨-, ws', w', -, -, rfl⟩
  · rfl
  · rfl

/-- No walk from a list occurs twice, because the first steps differ. -/
theorem nodup_walksFrom (hnodup : ∀ b ws, onward b = some ws → ws.Nodup) {i : Nat} {bs : List α}
    {ws : List (List Nat × α)} (h : walksFrom enter onward i bs = some ws) : ws.Nodup := by
  induction bs generalizing i ws with
  | nil =>
      rw [walksFrom, Option.some.injEq] at h
      exact h ▸ List.nodup_nil
  | cons b bs ih =>
      obtain ⟨first, others, hfirst, hothers, rfl⟩ := walksFrom_cons h
      refine (nodup_walksVia hnodup hfirst).append (ih hothers) ?_
      rintro ⟨w, c⟩ hmem hmem'
      obtain ⟨j, b', ws', -, hws', hmem'⟩ := (mem_walksFrom_iff hothers).mp hmem'
      have hhead := head_of_mem_walksVia hfirst hmem
      rw [head_of_mem_walksVia hws' hmem', Option.some.injEq] at hhead
      omega

/-- **No walk occurs twice.** -/
theorem nodup_walks {fuel : Nat} {a : α} {ws : List (List Nat × α)}
    (h : walks next enter fuel a = some ws) : ws.Nodup := by
  induction fuel generalizing a ws with
  | zero => cases h
  | succ fuel ih => exact nodup_walksFrom (fun _ _ => ih) h

/-- In a list without duplicates, one element counts when there is exactly one. -/
theorem countP_eq_one_iff {β : Type*} {p : β → Bool} {l : List β} (h : l.Nodup) :
    l.countP p = 1 ↔ ∃! x, x ∈ l ∧ p x = true := by
  rw [List.countP_eq_length_filter, List.length_eq_one_iff]
  simp only [← List.mem_filter]
  constructor
  · rintro ⟨x, hx⟩
    exact ⟨x, by simp [hx], fun y hy => by simpa [hx] using hy⟩
  · rintro ⟨x, hx, honly⟩
    refine ⟨x, List.perm_singleton.mp ((List.perm_ext_iff_of_nodup (h.filter p)
      (List.nodup_singleton x)).mpr fun y => ?_)⟩
    rw [List.mem_singleton]
    exact ⟨honly y, fun hy => hy ▸ hx⟩

/-- **Once.** A node that ends walks is found once exactly when there is one walk to it. -/
theorem countP_walks_eq_one_iff [DecidableEq α] {fuel : Nat} {a : α} {ws : List (List Nat × α)}
    (h : walks next enter fuel a = some ws) {c : α} (hc : enter c = false) :
    (ws.countP fun p => p.2 = c) = 1 ↔ ∃! w, Leads next enter a w c := by
  rw [countP_eq_one_iff (nodup_walks h)]
  constructor
  · rintro ⟨⟨w, _⟩, ⟨hmem, hend⟩, honly⟩
    obtain rfl := of_decide_eq_true hend
    refine ⟨w, ((mem_walks_iff h).mp hmem).1, fun w' hw' => ?_⟩
    exact congrArg Prod.fst (honly (w', _) ⟨(mem_walks_iff h).mpr ⟨hw', hc⟩, hend⟩)
  · rintro ⟨w, hw, honly⟩
    refine ⟨(w, c), ⟨(mem_walks_iff h).mpr ⟨hw, hc⟩, decide_eq_true rfl⟩, ?_⟩
    rintro ⟨w', _⟩ ⟨hmem, hend⟩
    obtain rfl := of_decide_eq_true hend
    rw [honly w' ((mem_walks_iff h).mp hmem).1]

end

end SmartFactory.Walks
