import Mathlib.Data.List.Perm.Basic
import Mathlib.Data.List.ReduceOption

/-!
# `SmartFactory.Lib.SlotTable`: a table with a fixed number of slots

A slot table is the C idiom of a static array whose entries carry a `used` flag. An
insertion takes the first free slot and is lost without notice when there is none. A
removal clears the first used slot that matches.

`entries` lists the used slots in slot order. Every lemma is stated about `entries`:

* `insert_perm`: with a free slot, an insertion adds exactly the new entry;
* `insert_of_full`: without one, it changes nothing;
* `entries_erase`: a removal drops the first matching entry;
* `find?_eq`: a lookup is a lookup in `entries`.
-/

set_option autoImplicit false

namespace SmartFactory

/-- A table of `size` slots. A free slot is `none`. -/
structure SlotTable (α : Type*) (size : Nat) where
  slots : List (Option α)
  length_slots : slots.length = size
  deriving DecidableEq

namespace SlotTable

variable {α : Type*} {size : Nat}

/-- The table with all its slots free. -/
def empty (α : Type*) (size : Nat) : SlotTable α size :=
  ⟨List.replicate size none, List.length_replicate⟩

/-- Put `a` in the first free slot. A list without a free slot stays as it is. -/
def insertSlots (a : α) : List (Option α) → List (Option α)
  | [] => []
  | none :: rest => some a :: rest
  | some b :: rest => some b :: insertSlots a rest

/-- Free the first used slot that matches. -/
def eraseSlots (p : α → Bool) : List (Option α) → List (Option α)
  | [] => []
  | none :: rest => none :: eraseSlots p rest
  | some b :: rest => if p b then none :: rest else some b :: eraseSlots p rest

/-- The first used slot that matches. -/
def findSlots (p : α → Bool) : List (Option α) → Option α
  | [] => none
  | none :: rest => findSlots p rest
  | some b :: rest => if p b then some b else findSlots p rest

/-- An insertion keeps the number of slots. -/
theorem length_insertSlots (a : α) (l : List (Option α)) :
    (insertSlots a l).length = l.length := by
  induction l with
  | nil => rfl
  | cons x xs ih => cases x <;> simp [insertSlots, ih]

/-- A removal keeps the number of slots. -/
theorem length_eraseSlots (p : α → Bool) (l : List (Option α)) :
    (eraseSlots p l).length = l.length := by
  induction l with
  | nil => rfl
  | cons x xs ih =>
      cases x with
      | none => simp [eraseSlots, ih]
      | some b =>
          simp only [eraseSlots]
          split <;> simp [ih]

/-- Put `a` in the first free slot, if there is one. -/
def insert (a : α) (t : SlotTable α size) : SlotTable α size :=
  ⟨insertSlots a t.slots, (length_insertSlots a t.slots).trans t.length_slots⟩

/-- Free the first used slot that matches. -/
def erase (p : α → Bool) (t : SlotTable α size) : SlotTable α size :=
  ⟨eraseSlots p t.slots, (length_eraseSlots p t.slots).trans t.length_slots⟩

/-- The first used slot that matches. -/
def find? (p : α → Bool) (t : SlotTable α size) : Option α := findSlots p t.slots

/-- The used slots, in slot order. -/
def entries (t : SlotTable α size) : List α := t.slots.reduceOption

/-- A new table has no entries. -/
@[simp] theorem entries_empty : (empty α size).entries = [] := by
  simp [entries, empty, List.reduceOption]

/-- A lookup in the table is a lookup in the used slots. -/
theorem find?_eq (p : α → Bool) (t : SlotTable α size) : t.find? p = t.entries.find? p := by
  obtain ⟨l, hl⟩ := t
  show findSlots p l = (l.reduceOption).find? p
  clear hl
  induction l with
  | nil => rfl
  | cons x xs ih =>
      cases x with
      | none => simpa [findSlots] using ih
      | some b =>
          simp only [findSlots, List.reduceOption_cons_of_some, List.find?_cons]
          cases h : p b with
          | true => rfl
          | false => simpa using ih

/-- A removal drops the first matching entry and nothing else. -/
theorem entries_erase (p : α → Bool) (t : SlotTable α size) :
    (t.erase p).entries = t.entries.eraseP p := by
  obtain ⟨l, hl⟩ := t
  show (eraseSlots p l).reduceOption = (l.reduceOption).eraseP p
  clear hl
  induction l with
  | nil => rfl
  | cons x xs ih =>
      cases x with
      | none => simpa [eraseSlots] using ih
      | some b =>
          simp only [eraseSlots]
          cases h : p b with
          | true => simp [h]
          | false => simpa [h] using ih

/-- With a free slot, an insertion adds exactly the new entry. -/
theorem insert_perm (a : α) (t : SlotTable α size) (h : t.entries.length < size) :
    (t.insert a).entries.Perm (a :: t.entries) := by
  obtain ⟨l, hl⟩ := t
  show ((insertSlots a l).reduceOption).Perm (a :: l.reduceOption)
  have hfree : (l.reduceOption).length < l.length := by
    rw [hl]
    exact h
  clear h hl
  induction l with
  | nil => simp at hfree
  | cons x xs ih =>
      cases x with
      | none => simp [insertSlots]
      | some b =>
          have hlt : (xs.reduceOption).length < xs.length := by simpa using hfree
          have hstep := (ih hlt).cons b
          simp only [insertSlots, List.reduceOption_cons_of_some]
          exact hstep.trans (List.Perm.swap a b _)

/-- Without a free slot, an insertion is lost. -/
theorem insert_of_full (a : α) (t : SlotTable α size) (h : size ≤ t.entries.length) :
    (t.insert a).entries = t.entries := by
  obtain ⟨l, hl⟩ := t
  show (insertSlots a l).reduceOption = l.reduceOption
  have hfull : l.length ≤ (l.reduceOption).length := by
    rw [hl]
    exact h
  clear h hl
  induction l with
  | nil => rfl
  | cons x xs ih =>
      have hle := List.reduceOption_length_le xs
      cases x with
      | none =>
          simp only [List.reduceOption_cons_of_none, List.length_cons] at hfull
          omega
      | some b =>
          have hrest : xs.length ≤ (xs.reduceOption).length := by simpa using hfull
          simp [insertSlots, ih hrest]

/-- Membership after an insertion that finds a free slot. -/
theorem mem_insert {a b : α} {t : SlotTable α size} (h : t.entries.length < size) :
    b ∈ (t.insert a).entries ↔ b = a ∨ b ∈ t.entries := by
  rw [(insert_perm a t h).mem_iff, List.mem_cons]

/-- An insertion never removes an entry, and adds at most the new one. -/
theorem mem_of_mem_insert {a b : α} {t : SlotTable α size} (h : b ∈ (t.insert a).entries) :
    b = a ∨ b ∈ t.entries := by
  rcases Nat.lt_or_ge t.entries.length size with hlt | hge
  · exact (mem_insert hlt).mp h
  · exact Or.inr (insert_of_full a t hge ▸ h)

end SlotTable

end SmartFactory
