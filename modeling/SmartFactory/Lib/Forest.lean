import Mathlib.Data.List.Nodup
import Mathlib.Order.WellFoundedSet

/-!
# `SmartFactory.Lib.Forest`: a list of records that name their parents

A tree is often kept as a flat table: each record has a key of its own and, unless it is a
root, the key of its parent. `IsForest` says when such a table is a forest. The keys are
distinct, the parents are records of the table that may have children, and nobody is its own
ancestor.

* `isForest_append_iff`: a record with a new key may be appended exactly when its parent is
  already there.
* `IsForest.eraseP`: a record without children may be removed.
* `isForest_of_parentsFirst`: a table that lists parents first is a forest.
* `leaf_induction`: whatever is no ancestor of a record that stays can be removed, leaves
  first.
-/

set_option autoImplicit false

namespace SmartFactory.Forest

open Relation

variable {α κ : Type*} (key : α → κ) (parent : α → Option κ) (inner : α → Prop)

/-- In the table, `a` names `p` as its parent. -/
structure Below (l : List α) (p a : α) : Prop where
  parent_mem : p ∈ l
  mem : a ∈ l
  parent_eq : parent a = some (key p)

/-- Nobody in the table names `a` as its parent. -/
def Leaf (l : List α) (a : α) : Prop := ∀ b ∈ l, parent b ≠ some (key a)

/-- The table is a forest; only records with `inner` have children. -/
structure IsForest (l : List α) : Prop where
  nodup : (l.map key).Nodup
  parents : ∀ a ∈ l, ∀ k, parent a = some k → ∃ p ∈ l, inner p ∧ key p = k
  acyclic : ∀ a, ¬ TransGen (Below key parent l) a a

variable {key parent inner} {l l' : List α} {a b : α}

/-- The table without records is a forest. -/
theorem isForest_nil : IsForest key parent inner [] where
  nodup := List.nodup_nil
  parents := nofun
  acyclic := fun a h => by
    obtain ⟨b, hb, -⟩ := TransGen.head'_iff.mp h
    cases hb.parent_mem

/-- Records name the same parents in a larger table. -/
theorem Below.mono (hsub : l ⊆ l') (h : Below key parent l a b) : Below key parent l' a b :=
  ⟨hsub h.parent_mem, hsub h.mem, h.parent_eq⟩

/-- A part of a forest that keeps the parent of each of its records is a forest. -/
theorem IsForest.sublist (h : IsForest key parent inner l) (hsub : l'.Sublist l)
    (hclosed : ∀ p a, Below key parent l p a → a ∈ l' → p ∈ l') :
    IsForest key parent inner l' where
  nodup := (hsub.map key).nodup h.nodup
  parents := by
    intro a ha k hk
    obtain ⟨p, hp, hinner, hkey⟩ := h.parents a (hsub.subset ha) k hk
    refine ⟨p, ?_, hinner, hkey⟩
    exact hclosed p a ⟨hp, hsub.subset ha, hk.trans (congrArg some hkey.symm)⟩ ha
  acyclic := fun a ha => h.acyclic a (ha.lift id fun _ _ hab => hab.mono hsub.subset)

/-- Removing a leaf leaves a forest. -/
theorem IsForest.eraseP [BEq κ] [LawfulBEq κ] {k : κ} (h : IsForest key parent inner l)
    (hleaf : ∀ b ∈ l, parent b ≠ some k) :
    IsForest key parent inner (l.eraseP (fun x => key x == k)) := by
  refine h.sublist List.eraseP_sublist fun p a hbelow _ => ?_
  -- The parent of a record is not the leaf.
  have hne : key p ≠ k := fun he => hleaf a hbelow.mem (he ▸ hbelow.parent_eq)
  exact (List.mem_eraseP_of_neg (by simpa using hne)).mpr hbelow.parent_mem

/-! ### Appending a record -/

/-- In a forest nobody names a key that is not there. -/
theorem IsForest.leaf_of_new (h : IsForest key parent inner l) (hnew : key a ∉ l.map key) :
    Leaf key parent l a := by
  intro b hb hparent
  obtain ⟨p, hp, -, hkey⟩ := h.parents b hb _ hparent
  exact hnew (List.mem_map.mpr ⟨p, hp, hkey⟩)

/-- The paths of the longer table: the new record is at their end, if at all. -/
theorem transGen_append (hleaf : Leaf key parent (l ++ [a]) a) {x y : α}
    (h : TransGen (Below key parent (l ++ [a])) x y) :
    x ∈ l ∧ (y = a ∨ TransGen (Below key parent l) x y) := by
  -- One step starts in the old table and ends there or in the new record.
  have hstep : ∀ {x y : α}, Below key parent (l ++ [a]) x y →
      x ∈ l ∧ (y = a ∨ Below key parent l x y) := by
    intro x y hxy
    have hx : x ∈ l := by
      rcases List.mem_append.mp hxy.parent_mem with hx | hx
      · exact hx
      · rw [List.mem_singleton] at hx
        exact absurd (hx ▸ hxy.parent_eq) (hleaf y hxy.mem)
    rcases List.mem_append.mp hxy.mem with hy | hy
    · exact ⟨hx, Or.inr ⟨hx, hy, hxy.parent_eq⟩⟩
    · exact ⟨hx, Or.inl (List.mem_singleton.mp hy)⟩
  induction h with
  | single hxy =>
      obtain ⟨hx, hy⟩ := hstep hxy
      exact ⟨hx, hy.imp_right TransGen.single⟩
  | tail hxy hyz ih =>
      obtain ⟨hx, hpath⟩ := ih
      refine ⟨hx, (hstep hyz).2.imp_right fun hyz' => ?_⟩
      rcases hpath with rfl | hpath
      · exact absurd hyz.parent_eq (hleaf _ hyz.mem)
      · exact hpath.tail hyz'

/-- **Appending.** A record with a new key keeps the forest exactly when it is a root or its
parent is there already. A record that names itself would be a cycle. -/
theorem isForest_append_iff (h : IsForest key parent inner l) (hnew : key a ∉ l.map key) :
    IsForest key parent inner (l ++ [a]) ↔
      ∀ k, parent a = some k → ∃ p ∈ l, inner p ∧ key p = k := by
  have ha : a ∈ l ++ [a] := List.mem_append_right _ (List.mem_singleton_self a)
  constructor
  · intro happ k hk
    obtain ⟨p, hp, hinner, hkey⟩ := happ.parents a ha k hk
    rcases List.mem_append.mp hp with hp | hp
    · exact ⟨p, hp, hinner, hkey⟩
    · rw [List.mem_singleton] at hp
      subst hp
      -- The new record is its own parent, which is a cycle of length one.
      exact absurd (TransGen.single ⟨ha, ha, hk.trans (congrArg some hkey.symm)⟩)
        (happ.acyclic p)
  · intro hparent
    have hold : ∀ {k}, (∃ p ∈ l, inner p ∧ key p = k) → ∃ p ∈ l ++ [a], inner p ∧ key p = k :=
      fun ⟨p, hp, hrest⟩ => ⟨p, List.mem_append_left _ hp, hrest⟩
    -- Nobody names the new key yet, so that a cycle cannot go through the new record.
    have hleaf : Leaf key parent (l ++ [a]) a := by
      intro b hb hbelow
      rcases List.mem_append.mp hb with hb | hb
      · exact h.leaf_of_new hnew b hb hbelow
      · rw [List.mem_singleton] at hb
        obtain ⟨p, hp, -, hkey⟩ := hparent _ (hb ▸ hbelow)
        exact hnew (List.mem_map.mpr ⟨p, hp, hkey⟩)
    refine ⟨?_, fun b hb k hk => ?_, fun x hx => ?_⟩
    · rw [List.map_append, List.map_singleton]
      exact List.nodup_append_comm.mp (List.nodup_cons.mpr ⟨hnew, h.nodup⟩)
    · rcases List.mem_append.mp hb with hb | hb
      · exact hold (h.parents b hb k hk)
      · rw [List.mem_singleton] at hb
        exact hold (hparent k (hb ▸ hk))
    · obtain ⟨hmem, hpath⟩ := transGen_append hleaf hx
      rcases hpath with rfl | hpath
      · exact hnew (List.mem_map_of_mem hmem)
      · exact h.acyclic x hpath

/-- A table that lists each parent before its children, with the records `seen` in front. -/
def parentsFirst [DecidableEq κ] (key : α → κ) (parent : α → Option κ) (inner : α → Bool) :
    List α → List α → Bool
  | _, [] => true
  | seen, a :: rest =>
      decide (key a ∉ seen.map key) &&
      (parent a).all (fun k => seen.any (fun p => inner p && key p == k)) &&
      parentsFirst key parent inner (seen ++ [a]) rest

/-- Such a table is a forest. -/
theorem isForest_of_parentsFirst [DecidableEq κ] {isInner : α → Bool} {seen : List α}
    (rest : List α)
    (hseen : IsForest key parent (isInner · = true) seen)
    (h : parentsFirst key parent isInner seen rest = true) :
    IsForest key parent (isInner · = true) (seen ++ rest) := by
  induction rest generalizing seen with
  | nil => simpa using hseen
  | cons a rest ih =>
      simp only [parentsFirst, Bool.and_eq_true, decide_eq_true_eq] at h
      obtain ⟨⟨hnew, hparent⟩, hrest⟩ := h
      rw [List.append_cons]
      refine ih ((isForest_append_iff hseen hnew).mpr fun k hk => ?_) hrest
      rw [hk, Option.all_some, List.any_eq_true] at hparent
      simpa using hparent

/-! ### Removing leaves first -/

/-- Among some records of a forest there is one without children among them. -/
theorem IsForest.exists_last (h : IsForest key parent inner l) {S : α → Prop}
    (hS : ∃ a ∈ l, S a) : ∃ a ∈ l, S a ∧ ∀ b, Below key parent l a b → ¬ S b := by
  let descends : α → α → Prop := fun b a => TransGen (Below key parent l) a b
  have htrans : IsTrans α descends := ⟨fun _ _ _ hba hcb => hcb.trans hba⟩
  have hirrefl : Std.Irrefl descends := ⟨h.acyclic⟩
  have horder : IsStrictOrder α descends := { }
  -- A finite strict order has a minimal element in every part of it.
  have hwf : { a | a ∈ l }.WellFoundedOn descends := l.finite_toSet.wellFoundedOn
  obtain ⟨a, ha, hSa⟩ := hS
  obtain ⟨⟨m, hm⟩, hSm, hmin⟩ :=
    WellFounded.has_min hwf { x : { a | a ∈ l } | S x } ⟨⟨a, ha⟩, hSa⟩
  exact ⟨m, hm, hSm, fun b hb hSb => hmin ⟨b, hb.mem⟩ hSb (TransGen.single hb)⟩

/-- **Leaves first.** The records outside `Keep` can be removed one by one, each of them at a
moment when it has no children, as long as `Keep` holds the parents of its records. -/
theorem leaf_induction [BEq κ] [LawfulBEq κ] (Keep : α → Prop) {motive : List α → Prop}
    (done : ∀ l, (∀ a ∈ l, Keep a) → motive l)
    (step : ∀ l a, IsForest key parent inner l → a ∈ l → ¬ Keep a → Leaf key parent l a →
      motive (l.eraseP (fun x => key x == key a)) → motive l)
    (h : IsForest key parent inner l)
    (hup : ∀ p a, Below key parent l p a → Keep a → Keep p) : motive l := by
  induction hn : l.length generalizing l with
  | zero =>
      rw [List.length_eq_zero_iff] at hn
      exact done l (by rw [hn]; nofun)
  | succ n ih =>
      by_cases hall : ∀ a ∈ l, Keep a
      · exact done l hall
      · push Not at hall
        obtain ⟨a, ha, hout, hlast⟩ := h.exists_last hall
        -- A child of it would stay, and then it would stay itself.
        have hleaf : Leaf key parent l a := by
          intro b hb hbelow
          have hab : Below key parent l a b := ⟨ha, hb, hbelow⟩
          exact hout (hup a b hab (not_not.mp (hlast b hab)))
        refine step l a h ha hout hleaf (ih (h.eraseP hleaf) (fun p b hpb => ?_) ?_)
        · exact hup p b (hpb.mono List.eraseP_sublist.subset)
        · rw [List.length_eraseP_of_mem ha (by simp), hn]
          rfl

end SmartFactory.Forest
