import Mathlib.Data.List.Nodup

/-!
# `SmartFactory.Lib.Keyed`: lists whose elements have distinct keys

A C array of records is often used as a table: each record carries a key, and no key
occurs twice. Three habits of such code need the distinct keys to be right.

* Removing the first record with a key removes the key (`mem_eraseP_key`).
* Looking a key up gives the record of that key, whatever else is removed (`find?_eq_some`,
  `find?_eraseP_of_ne`).
* Changing the record at an index is the same as changing the record of its key
  (`modify_eq_map`), so the order of the table does not matter.
-/

set_option autoImplicit false

namespace SmartFactory.Keyed

variable {α β : Type*} (key : α → β)

/-- When no key occurs twice, dropping the first element with a key drops all of them. -/
theorem mem_eraseP_key [BEq β] [LawfulBEq β] {l : List α} {a : α}
    {k : β} (hnd : (l.map key).Nodup) :
    a ∈ l.eraseP (fun x => key x == k) ↔ a ∈ l ∧ key a ≠ k := by
  induction l with
  | nil => simp
  | cons x rest ih =>
      rw [List.map_cons, List.nodup_cons] at hnd
      by_cases hx : key x = k
      · rw [List.eraseP_cons_of_pos (by simpa using hx)]
        -- `x` has the key, and no other element does. What is left is the tail as it is.
        have hrest : ∀ y ∈ rest, key y ≠ k := fun y hy he =>
          hnd.1 (List.mem_map.mpr ⟨y, hy, he.trans hx.symm⟩)
        constructor
        · exact fun ha => ⟨List.mem_cons_of_mem _ ha, hrest a ha⟩
        · rintro ⟨ha, hne⟩
          rcases List.mem_cons.mp ha with rfl | ha
          · exact absurd hx hne
          · exact ha
      · rw [List.eraseP_cons_of_neg (by simpa using hx), List.mem_cons, List.mem_cons,
          ih hnd.2]
        constructor
        · rintro (rfl | ⟨ha, hne⟩)
          · exact ⟨Or.inl rfl, hx⟩
          · exact ⟨Or.inr ha, hne⟩
        · rintro ⟨rfl | ha, hne⟩
          · exact Or.inl rfl
          · exact Or.inr ⟨ha, hne⟩

/-- When no key occurs twice, the element at an index is the only one with its key. -/
theorem eq_of_key_eq {l : List α} (hnd : (l.map key).Nodup) {a b : α} (ha : a ∈ l)
    (hb : b ∈ l) (h : key a = key b) : a = b :=
  List.inj_on_of_nodup_map hnd ha hb h

/-- When no key occurs twice, an element is found by its key. -/
theorem find?_eq_some [BEq β] [LawfulBEq β] {l : List α} (hnd : (l.map key).Nodup) {a : α}
    (ha : a ∈ l) : l.find? (fun x => key x == key a) = some a := by
  cases hfind : l.find? (fun x => key x == key a) with
  | none => simpa using List.find?_eq_none.mp hfind a ha
  | some b =>
      have hkey : key b = key a := by simpa using List.find?_some hfind
      rw [eq_of_key_eq key hnd (List.mem_of_find?_eq_some hfind) ha hkey]

/-- Dropping an element does not change what is found under another key. -/
theorem find?_eraseP_of_ne [BEq β] [LawfulBEq β] {l : List α} {k k' : β} (hne : k' ≠ k) :
    (l.eraseP (fun x => key x == k)).find? (fun x => key x == k')
      = l.find? (fun x => key x == k') := by
  induction l with
  | nil => rfl
  | cons x rest ih =>
      by_cases hx : key x = k
      · have hother : (key x == k') = false := by simpa using fun he => hne (he.symm.trans hx)
        rw [List.eraseP_cons_of_pos (by simpa using hx), List.find?_cons, hother]
      · rw [List.eraseP_cons_of_neg (by simpa using hx), List.find?_cons, List.find?_cons, ih]

/-- When no key occurs twice, changing the element at an index changes exactly the element
with its key. -/
theorem modify_eq_map [DecidableEq β] {l : List α} {i : Nat} {a : α} (f : α → α)
    (hnd : (l.map key).Nodup) (h : l[i]? = some a) :
    l.modify i f = l.map (fun x => if key x = key a then f x else x) := by
  induction l generalizing i with
  | nil => simp at h
  | cons x rest ih =>
      rw [List.map_cons, List.nodup_cons] at hnd
      cases i with
      | zero =>
          have hx : x = a := by simpa using h
          subst hx
          -- No other element has the key, so that `map` leaves the rest as it is.
          have hrest : rest.map (fun y => if key y = key x then f y else y) = rest := by
            refine (List.map_congr_left fun y hy => ?_).trans (List.map_id rest)
            exact if_neg fun he => hnd.1 (List.mem_map.mpr ⟨y, hy, he⟩)
          rw [List.modify_zero_cons, List.map_cons, if_pos rfl, hrest]
      | succ i =>
          have hi : rest[i]? = some a := by simpa using h
          have hne : key x ≠ key a := fun he =>
            hnd.1 (List.mem_map.mpr ⟨a, List.mem_of_getElem? hi, he.symm⟩)
          rw [List.modify_succ_cons, List.map_cons, if_neg hne, ih hnd.2 hi]

end SmartFactory.Keyed
