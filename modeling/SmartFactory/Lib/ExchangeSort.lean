import Mathlib.Data.List.Perm.Basic
import Mathlib.Data.List.Pairwise
import Mathlib.Data.List.Rotate

/-!
# `SmartFactory.Lib.ExchangeSort`: exchange sort by a key

The two nested loops

    for i: for j > i: if key(a[j]) < key(a[i]) then swap a[i] and a[j]

written over lists. `sweep` is one run of the inner loop: it carries the element that
stands at position `i` and walks the rest of the array. `exchangeSort` is the outer loop.
The sort is not stable.

`exchangeSort_perm` and `exchangeSort_sorted` are the two halves of its specification.
`exchangeSort_before` is the form a caller uses: an element with a smaller key stands
before one with a larger key, wherever the list is cut (`Before`).

`exchangeInPlace` is the same sort as it is written in C, with indices into one array.
`exchangeInPlace_eq` is that both give the same list.

What the sort does to elements with equal keys is told for the largest key:
`exchangeSort_filter_top`. While the outer loop runs, these elements stand in front of the
part that it has not reached as in a queue. An element of a smaller key takes the place of
the first one, which goes to the end of the queue (`queueScan`).
-/

set_option autoImplicit false

namespace SmartFactory

variable {α : Type*} (key : α → Nat)

/-- One run of the inner loop. `x` stands at position `i`; the list is the rest of the
array. The result is the element that ends at position `i` and the rest. -/
def sweep : α → List α → α × List α
  | x, [] => (x, [])
  | x, y :: ys =>
      if key y < key x then
        let (m, rest) := sweep y ys
        (m, x :: rest)
      else
        let (m, rest) := sweep x ys
        (m, y :: rest)

/-- The outer loop, for an array of `n` elements. -/
def exchangeSortN : Nat → List α → List α
  | _, [] => []
  | 0, xs => xs
  | n + 1, x :: xs =>
      let (m, rest) := sweep key x xs
      m :: exchangeSortN n rest

/-- Exchange sort by the key. -/
def exchangeSort (xs : List α) : List α := exchangeSortN key xs.length xs

/-- The inner loop permutes the array. -/
theorem sweep_perm (x : α) (xs : List α) :
    ((sweep key x xs).1 :: (sweep key x xs).2).Perm (x :: xs) := by
  induction xs generalizing x with
  | nil => exact List.Perm.refl _
  | cons y ys ih =>
      simp only [sweep]
      split
      · -- The swap: `x` goes to the place of `y`, and `y` is carried on.
        have h := (ih y).cons x
        exact (List.Perm.swap _ _ _).trans h
      · have h := (ih x).cons y
        exact ((List.Perm.swap _ _ _).trans h).trans (List.Perm.swap _ _ _)

/-- The inner loop keeps the length of the rest. -/
theorem length_sweep (x : α) (xs : List α) : (sweep key x xs).2.length = xs.length := by
  have h := (sweep_perm key x xs).length_eq
  simpa using h

/-- The carried key only falls. -/
theorem key_sweep_le (x : α) (xs : List α) : key (sweep key x xs).1 ≤ key x := by
  induction xs generalizing x with
  | nil => exact Nat.le_refl _
  | cons y ys ih =>
      simp only [sweep]
      split
      · rename_i hlt
        exact Nat.le_trans (ih y) (Nat.le_of_lt hlt)
      · exact ih x

/-- The element that ends at position `i` has the smallest key. -/
theorem key_sweep_le_of_mem (x : α) (xs : List α) :
    ∀ y ∈ (sweep key x xs).2, key (sweep key x xs).1 ≤ key y := by
  induction xs generalizing x with
  | nil => simp [sweep]
  | cons z zs ih =>
      intro y hy
      simp only [sweep] at hy ⊢
      split at hy
      · -- `x` was put off for `z`, which has a smaller key.
        rename_i hlt
        rw [if_pos hlt]
        rcases List.mem_cons.mp hy with rfl | hy
        · exact Nat.le_trans (key_sweep_le key z zs) (Nat.le_of_lt hlt)
        · exact ih z y hy
      · rename_i hge
        rw [if_neg hge]
        rcases List.mem_cons.mp hy with rfl | hy
        · exact Nat.le_trans (key_sweep_le key x zs) (Nat.le_of_not_lt hge)
        · exact ih x y hy

/-- The outer loop permutes the array. -/
theorem exchangeSortN_perm (n : Nat) (xs : List α) : (exchangeSortN key n xs).Perm xs := by
  induction n generalizing xs with
  | zero => cases xs <;> exact List.Perm.refl _
  | succ n ih =>
      cases xs with
      | nil => exact List.Perm.refl _
      | cons x xs =>
          exact ((ih _).cons _).trans (sweep_perm key x xs)

/-- The sort permutes its input. -/
theorem exchangeSort_perm (xs : List α) : (exchangeSort key xs).Perm xs :=
  exchangeSortN_perm key xs.length xs

/-- The outer loop sorts an array that is not longer than its counter. -/
theorem exchangeSortN_sorted (n : Nat) (xs : List α) (h : xs.length ≤ n) :
    (exchangeSortN key n xs).Pairwise (fun a b => key a ≤ key b) := by
  induction n generalizing xs with
  | zero =>
      have hnil : xs = [] := List.eq_nil_of_length_eq_zero (Nat.le_zero.mp h)
      subst hnil
      exact List.Pairwise.nil
  | succ n ih =>
      cases xs with
      | nil => exact List.Pairwise.nil
      | cons x xs =>
          -- The sweep puts the least key first and passes on what is left, in some order.
          have hlen : (sweep key x xs).2.length ≤ n := by
            rw [length_sweep]
            exact Nat.le_of_succ_le_succ h
          refine List.Pairwise.cons ?_ (ih _ hlen)
          intro y hy
          exact key_sweep_le_of_mem key x xs y ((exchangeSortN_perm key n _).mem_iff.mp hy)

/-- The keys of the sorted list do not fall. -/
theorem exchangeSort_sorted (xs : List α) :
    (exchangeSort key xs).Pairwise (fun a b => key a ≤ key b) :=
  exchangeSortN_sorted key xs.length xs (Nat.le_refl _)

/-! ### In place -/

/-- `if key(a[j]) < key(a[i]) then swap a[i] and a[j]`. -/
def exchange (a : List α) (i j : Nat) : List α :=
  match a[i]?, a[j]? with
  | some x, some y => if key y < key x then (a.set i y).set j x else a
  | _, _ => a

/-- The inner loop, for so many rounds from `j` on. -/
def exchangeRow (i : Nat) : (rounds j : Nat) → List α → List α
  | 0, _, a => a
  | rounds + 1, j, a => exchangeRow i rounds (j + 1) (exchange key a i j)

/-- The outer loop, for so many rounds from `i` on. -/
def exchangeRows : (rounds i : Nat) → List α → List α
  | 0, _, a => a
  | rounds + 1, i, a =>
      exchangeRows rounds (i + 1) (exchangeRow key i (a.length - (i + 1)) (i + 1) a)

/-- The loops `for i = 0; i + 1 < n` and `for j = i + 1; j < n` over an array of length `n`. -/
def exchangeInPlace (a : List α) : List α := exchangeRows key (a.length - 1) 0 a

/-- One comparison of two elements, with what stands before, between and after them. -/
theorem exchange_split (pre mid post : List α) (x y : α) :
    exchange key (pre ++ x :: (mid ++ y :: post)) pre.length (pre.length + 1 + mid.length)
      = if key y < key x then pre ++ y :: (mid ++ x :: post)
        else pre ++ x :: (mid ++ y :: post) := by
  have hi : (pre ++ x :: (mid ++ y :: post))[pre.length]? = some x := by simp
  have hj : (pre ++ x :: (mid ++ y :: post))[pre.length + 1 + mid.length]? = some y := by
    rw [List.getElem?_append_right (by omega)]
    have hpos : pre.length + 1 + mid.length - pre.length = mid.length + 1 := by omega
    rw [hpos, List.getElem?_cons_succ]
    simp
  have hset : ((pre ++ x :: (mid ++ y :: post)).set pre.length y).set
      (pre.length + 1 + mid.length) x = pre ++ y :: (mid ++ x :: post) := by
    have hpos : pre.length + 1 + mid.length - pre.length = mid.length + 1 := by omega
    rw [List.set_append_right _ _ (Nat.le_refl _), Nat.sub_self, List.set_cons_zero,
      List.set_append_right _ _ (by omega), hpos, List.set_cons_succ,
      List.set_append_right _ _ (Nat.le_refl _), Nat.sub_self, List.set_cons_zero]
  rw [exchange, hi, hj]
  simp only [hset]

/-- The inner loop in place is a sweep over what stands from `j` on. -/
theorem exchangeRow_split (pre mid rest : List α) (x : α) :
    exchangeRow key pre.length rest.length (pre.length + 1 + mid.length)
        (pre ++ x :: (mid ++ rest))
      = pre ++ (sweep key x rest).1 :: (mid ++ (sweep key x rest).2) := by
  induction rest generalizing mid x with
  | nil => rfl
  | cons y ys ih =>
      have hnext : ∀ z : α, pre.length + 1 + mid.length + 1
          = pre.length + 1 + (mid ++ [z]).length := by
        intro z
        rw [List.length_append, List.length_singleton]
        omega
      rw [List.length_cons, exchangeRow, exchange_split, sweep]
      split
      · -- `x` stays behind at the place of `y`.
        have hmid := ih (mid ++ [x]) y
        rw [← hnext x, List.append_assoc, List.singleton_append] at hmid
        rw [hmid, List.append_assoc, List.singleton_append]
      · have hmid := ih (mid ++ [y]) x
        rw [← hnext y, List.append_assoc, List.singleton_append] at hmid
        rw [hmid, List.append_assoc, List.singleton_append]

/-- The outer loop in place sorts what stands from `i` on. -/
theorem exchangeRows_split (pre xs : List α) :
    exchangeRows key (xs.length - 1) pre.length (pre ++ xs) = pre ++ exchangeSort key xs := by
  induction hn : xs.length generalizing pre xs with
  | zero =>
      have hnil : xs = [] := List.eq_nil_of_length_eq_zero hn
      subst hnil
      rfl
  -- One row sweeps the least key to the front; the other rows are the same loop one place on.
  | succ n ih =>
      cases xs with
      | nil => cases hn
      | cons x ys =>
          have hys : ys.length = n := Nat.succ.inj hn
          have hsort : exchangeSort key (x :: ys)
              = (sweep key x ys).1 :: exchangeSort key (sweep key x ys).2 := by
            rw [exchangeSort, List.length_cons, exchangeSortN, exchangeSort, length_sweep]
          -- A single element is left alone: the loop has no row for it.
          cases n with
          | zero =>
              have hnil : ys = [] := List.eq_nil_of_length_eq_zero hys
              subst hnil
              rfl
          | succ n =>
              have hrounds : (pre ++ x :: ys).length - (pre.length + 1) = ys.length := by
                rw [List.length_append, List.length_cons]
                omega
              have hrow := exchangeRow_split key pre [] ys x
              have hrest : (sweep key x ys).2.length = n + 1 := (length_sweep key x ys).trans hys
              have hrows := ih (pre ++ [(sweep key x ys).1]) (sweep key x ys).2 hrest
              rw [List.length_append, List.length_singleton, List.append_assoc,
                List.singleton_append] at hrows
              rw [List.length_nil, Nat.add_zero, List.nil_append, List.nil_append] at hrow
              show exchangeRows key (n + 1) pre.length (pre ++ x :: ys) = _
              rw [exchangeRows, hrounds, hrow, hsort]
              rw [List.append_assoc, List.singleton_append] at hrows
              exact hrows

/-- The sort in place and the one over lists give the same. -/
theorem exchangeInPlace_eq (xs : List α) : exchangeInPlace key xs = exchangeSort key xs :=
  exchangeRows_split key [] xs

/-! ### Standing before -/

/-- Wherever the list is cut at `b`, the element `a` stands before the cut. -/
def Before (l : List α) (a b : α) : Prop := ∀ pre post, l = pre ++ b :: post → a ∈ pre

@[simp] theorem before_nil (a b : α) : Before [] a b := by
  intro pre post hcut
  simp at hcut

@[simp] theorem before_cons {x a b : α} {l : List α} :
    Before (x :: l) a b ↔ x ≠ b ∧ (x = a ∨ Before l a b) := by
  constructor
  · intro h
    refine ⟨?_, ?_⟩
    · rintro rfl
      exact List.not_mem_nil (h [] l rfl)
    · by_cases hx : x = a
      · exact Or.inl hx
      · refine Or.inr fun pre post hcut => ?_
        have hmem := h (x :: pre) post (by rw [hcut, List.cons_append])
        exact (List.mem_cons.mp hmem).resolve_left (Ne.symm hx)
  · rintro ⟨hne, hfirst⟩ pre post hcut
    -- A cut at the front would make `x` the element `b`.
    cases pre with
    | nil =>
        rw [List.nil_append, List.cons.injEq] at hcut
        exact absurd hcut.1 hne
    | cons y pre =>
        rw [List.cons_append, List.cons.injEq] at hcut
        obtain ⟨rfl, hcut⟩ := hcut
        rcases hfirst with rfl | hrest
        · exact List.mem_cons_self ..
        · exact List.mem_cons_of_mem _ (hrest pre post hcut)

/-- Without duplicates, one cut shows the order. -/
theorem before_of_nodup {pre post : List α} {a b : α} (h : (pre ++ b :: post).Nodup)
    (ha : a ∈ pre) : Before (pre ++ b :: post) a b := by
  induction pre with
  | nil => cases ha
  | cons x pre ih =>
      rw [List.cons_append, List.nodup_cons] at h
      rw [List.cons_append, before_cons]
      refine ⟨?_, ?_⟩
      · rintro rfl
        exact h.1 (List.mem_append_right _ (List.mem_cons_self ..))
      · rcases List.mem_cons.mp ha with rfl | ha
        · exact Or.inl rfl
        · exact Or.inr (ih h.2 ha)

/-- The order of two elements can be computed. -/
def decidableBefore [DecidableEq α] (a b : α) : (l : List α) → Decidable (Before l a b)
  | [] => isTrue (before_nil a b)
  | _ :: l =>
      have : Decidable (Before l a b) := decidableBefore a b l
      decidable_of_iff _ before_cons.symm

instance [DecidableEq α] (l : List α) (a b : α) : Decidable (Before l a b) :=
  decidableBefore a b l

/-- A map that confuses neither element with another keeps the order of the two. -/
theorem before_map_iff {β : Type*} {f : α → β} {l : List α} {a b : α}
    (ha : ∀ x ∈ l, f x = f a → x = a) (hb : ∀ x ∈ l, f x = f b → x = b) :
    Before (l.map f) (f a) (f b) ↔ Before l a b := by
  constructor
  · intro h pre post hcut
    have hmap : l.map f = pre.map f ++ f b :: post.map f := by
      rw [hcut, List.map_append, List.map_cons]
    obtain ⟨x, hx, hfx⟩ := List.mem_map.mp (h _ _ hmap)
    have hxl : x ∈ l := hcut ▸ List.mem_append_left _ hx
    exact ha x hxl hfx ▸ hx
  · intro h pre post hcut
    obtain ⟨l₁, l₂, rfl, rfl, hrest⟩ := List.map_eq_append_iff.mp hcut
    obtain ⟨x, l₃, rfl, hfx, -⟩ := List.map_eq_cons_iff.mp hrest
    have hxb : x = b := hb x (List.mem_append_right _ (List.mem_cons_self ..)) hfx
    subst hxb
    exact List.mem_map_of_mem (h l₁ l₃ rfl)

/-- Leaving out others keeps the order of two elements. -/
theorem before_filter_iff {p : α → Bool} {l : List α} {a b : α} (ha : p a = true)
    (hb : p b = true) : Before (l.filter p) a b ↔ Before l a b := by
  constructor
  · intro h pre post hcut
    have hfilter : l.filter p = pre.filter p ++ b :: post.filter p := by
      rw [hcut, List.filter_append, List.filter_cons_of_pos hb]
    exact List.mem_of_mem_filter (h _ _ hfilter)
  · intro h pre post hcut
    obtain ⟨l₁, l₂, rfl, rfl, hrest⟩ := List.filter_eq_append_iff.mp hcut
    obtain ⟨l₃, l₄, rfl, hnone, -, -⟩ := List.filter_eq_cons_iff.mp hrest
    -- What stands between the cut of the part and `b` was left out.
    rcases List.mem_append.mp (h (l₁ ++ l₃) l₄ (List.append_assoc ..).symm) with ha₁ | ha₃
    · exact List.mem_filter.mpr ⟨ha₁, ha⟩
    · exact absurd ha (hnone a ha₃)

/-- In the sorted list, an element with a smaller key stands before one with a larger. -/
theorem exchangeSort_before {xs : List α} {a b : α} (ha : a ∈ xs) (hlt : key a < key b) :
    Before (exchangeSort key xs) a b := by
  intro pre post hcut
  have hmem : a ∈ pre ++ b :: post := hcut ▸ (exchangeSort_perm key xs).mem_iff.mpr ha
  have hsorted : (b :: post).Pairwise (fun a b => key a ≤ key b) := by
    have h := exchangeSort_sorted key xs
    rw [hcut] at h
    exact (List.pairwise_append.mp h).2.1
  rcases List.mem_append.mp hmem with hpre | hpost
  · exact hpre
  · exfalso
    rcases List.mem_cons.mp hpost with rfl | hpost
    · exact Nat.lt_irrefl _ hlt
    · exact Nat.not_le.mpr hlt ((List.pairwise_cons.mp hsorted).1 a hpost)

/-! ### The elements with the largest key -/

/-- Walk over a list with a queue. An element of the kind joins the queue; any other element
moves the first of the queue to its end. -/
def queueScan (top : α → Bool) : List α → List α → List α
  | q, [] => q
  | q, x :: xs => if top x then queueScan top (q ++ [x]) xs else queueScan top (q.rotate 1) xs

/-- The walk sees which elements are of the kind, and of the others only that they are there. -/
theorem queueScan_congr {top : α → Bool} {xs ys : List α} (q : List α)
    (h : xs.map (Option.guard top) = ys.map (Option.guard top)) :
    queueScan top q xs = queueScan top q ys := by
  induction xs generalizing ys q with
  | nil =>
      rw [List.map_nil, eq_comm, List.map_eq_nil_iff] at h
      rw [h]
  | cons x xs ih =>
      cases ys with
      | nil => cases h
      | cons y ys =>
          rw [List.map_cons, List.map_cons, List.cons.injEq] at h
          obtain ⟨hhead, htail⟩ := h
          rw [queueScan, queueScan]
          -- Both are of the kind, and then the same, or neither is.
          cases hx : top x <;> cases hy : top y <;> simp [Option.guard, hx, hy] at hhead
          · exact ih _ htail
          · subst hhead
            exact ih _ htail

/-- The inner loop leaves a list alone that has no smaller key. -/
theorem sweep_of_le {x : α} {xs : List α} (h : ∀ y ∈ xs, key x ≤ key y) :
    sweep key x xs = (x, xs) := by
  induction xs with
  | nil => rfl
  | cons y ys ih =>
      rw [List.forall_mem_cons] at h
      rw [sweep, if_neg (Nat.not_lt.mpr h.1), ih h.2]

/-- The inner loop passes a front that has no smaller key. -/
theorem sweep_append {x : α} {front : List α} (rest : List α)
    (h : ∀ y ∈ front, key x ≤ key y) :
    sweep key x (front ++ rest) = ((sweep key x rest).1, front ++ (sweep key x rest).2) := by
  induction front with
  | nil => rfl
  | cons y ys ih =>
      rw [List.forall_mem_cons] at h
      rw [List.cons_append, sweep, if_neg (Nat.not_lt.mpr h.1), ih h.2]
      rfl

/-- The outer loop leaves a list of equal keys alone. -/
theorem exchangeSortN_of_eq {k : Nat} (n : Nat) {xs : List α} (h : ∀ x ∈ xs, key x = k) :
    exchangeSortN key n xs = xs := by
  induction n generalizing xs with
  | zero => cases xs <;> rfl
  | succ n ih =>
      cases xs with
      | nil => rfl
      | cons x xs =>
          rw [List.forall_mem_cons] at h
          have hle : ∀ y ∈ xs, key x ≤ key y := fun y hy => by rw [h.1, h.2 y hy]
          rw [exchangeSortN, sweep_of_le key hle]
          show x :: exchangeSortN key n xs = x :: xs
          rw [ih h.2]

variable {k : Nat}

/-- Below the key `k`, the inner loop moves elements of smaller keys only. -/
theorem sweep_guard {x : α} (xs : List α) (hx : key x < k) :
    (sweep key x xs).2.map (Option.guard (fun y => key y == k))
      = xs.map (Option.guard (fun y => key y == k)) := by
  induction xs generalizing x with
  | nil => rfl
  | cons y ys ih =>
      simp only [sweep]
      split
      · -- The swap: both elements have a smaller key than `k`.
        rename_i hlt
        have hy : key y < k := Nat.lt_trans hlt hx
        simp only [List.map_cons, ih hy, Option.guard, beq_eq_false_iff_ne.mpr hx.ne,
          beq_eq_false_iff_ne.mpr hy.ne, Bool.false_eq_true, if_false]
      · simp only [List.map_cons, ih hx]

/-- One round of the outer loop: the first element after a queue of the largest key has a
smaller one. It is carried on, and the queue moves on by one. -/
theorem exchangeSortN_round (n : Nat) {q : List α} {y : α} (ys : List α)
    (hq : ∀ x ∈ q, key x = k) (hy : key y < k) :
    exchangeSortN key (n + 1) (q ++ y :: ys)
      = (sweep key y ys).1 :: exchangeSortN key n (q.rotate 1 ++ (sweep key y ys).2) := by
  cases q with
  | nil => rfl
  | cons a q =>
      rw [List.forall_mem_cons] at hq
      have hle : ∀ x ∈ q, key a ≤ key x := fun x hx => by rw [hq.1, hq.2 x hx]
      have hlt : key y < key a := hq.1.symm ▸ hy
      rw [List.cons_append, exchangeSortN, sweep_append key _ hle, sweep, if_pos hlt,
        List.rotate_cons_succ, List.rotate_zero]
      show _ :: exchangeSortN key n (q ++ a :: (sweep key y ys).2) = _
      rw [List.append_assoc, List.singleton_append]

/-- The outer loop, from a state with a queue of the largest key in front of the rest. -/
theorem exchangeSortN_filter_top (n : Nat) {q xs : List α} (hq : ∀ x ∈ q, key x = k)
    (hxs : ∀ x ∈ xs, key x ≤ k) (hn : (q ++ xs).length ≤ n) :
    (exchangeSortN key n (q ++ xs)).filter (fun x => key x == k)
      = queueScan (fun x => key x == k) q xs := by
  -- Each round shortens the rest, but the inner loop mixes it: the induction is on its length.
  induction hlen : xs.length generalizing n q xs with
  | zero =>
      rw [List.length_eq_zero_iff] at hlen
      subst hlen
      rw [List.append_nil, exchangeSortN_of_eq key n hq, queueScan, List.filter_eq_self]
      intro x hx
      simpa using hq x hx
  | succ len ih =>
      cases xs with
      | nil => cases hlen
      | cons y ys =>
          rw [List.forall_mem_cons] at hxs
          rw [List.length_cons, Nat.succ.injEq] at hlen
          rw [queueScan]
          by_cases hy : key y = k
          · have hq' : ∀ x ∈ q ++ [y], key x = k := by
              intro x hx
              rcases List.mem_append.mp hx with hx | hx
              · exact hq x hx
              · rw [List.mem_singleton.mp hx]
                exact hy
            rw [if_pos (by simpa using hy), List.append_cons]
            exact ih n hq' hxs.2 (by simpa using hn) hlen
          · have hlt : key y < k := Nat.lt_of_le_of_ne hxs.1 hy
            have hm : key (sweep key y ys).1 ≠ k :=
              (Nat.lt_of_le_of_lt (key_sweep_le key y ys) hlt).ne
            have hrest : ∀ x ∈ (sweep key y ys).2, key x ≤ k := by
              intro x hx
              have hmem := (sweep_perm key y ys).mem_iff.mp (List.mem_cons_of_mem _ hx)
              rcases List.mem_cons.mp hmem with rfl | hmem
              · exact hxs.1
              · exact hxs.2 x hmem
            have hrot : ∀ x ∈ q.rotate 1, key x = k := fun x hx => hq x (List.mem_rotate.mp hx)
            cases n with
            | zero => simp at hn
            | succ n =>
                have hn' : (q.rotate 1 ++ (sweep key y ys).2).length ≤ n := by
                  simp only [List.length_append, List.length_cons, List.length_rotate,
                    length_sweep] at hn ⊢
                  omega
                rw [if_neg (by simpa using hy), exchangeSortN_round key n ys hq hlt,
                  List.filter_cons_of_neg (by simpa using hm),
                  ih n hrot hrest hn' ((length_sweep key y ys).trans hlen)]
                exact queueScan_congr _ (sweep_guard key ys hlt)

/-- **Equal keys.** The elements of the largest key leave the sort in the order of the queue. -/
theorem exchangeSort_filter_top {xs : List α} (h : ∀ x ∈ xs, key x ≤ k) :
    (exchangeSort key xs).filter (fun x => key x == k)
      = queueScan (fun x => key x == k) [] xs := by
  have hnil : ∀ x ∈ ([] : List α), key x = k := fun x hx => nomatch hx
  exact exchangeSortN_filter_top key xs.length hnil h (Nat.le_refl _)

end SmartFactory
