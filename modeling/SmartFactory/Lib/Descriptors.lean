import Mathlib.Logic.Function.Basic
import Mathlib.Logic.ExistsUnique

/-!
# `SmartFactory.Lib.Descriptors`: connections and their descriptors

A program knows its connections by descriptors. The system hands a descriptor out again once its
connection is closed, so a descriptor alone does not say which connection it is. Here connections
are numbered in the order in which they are accepted, and `owner` is the one that a descriptor was
last handed out for. A `close` or a `write` acts on that one, open or not: what is closed twice is
counted twice.

`Custody` is the invariant of a program that keeps its open connections in slots. It has one rule
for each thing that such a program does, and `Custody.accounted` is what it is for.
-/

set_option autoImplicit false

namespace SmartFactory

/-- The connections of a program. `log` is what has been written to each. -/
structure Descriptors (β : Type*) where
  accepted : Nat
  owner : Int → Option Nat
  closes : Nat → Nat
  log : Nat → List β

namespace Descriptors

variable {β ι : Type*}

/-- Before the first connection. -/
def none : Descriptors β := ⟨0, fun _ => .none, fun _ => 0, fun _ => []⟩

/-- The descriptor is one of an open connection. -/
def isOpen (d : Descriptors β) (fd : Int) : Bool := (d.owner fd).any fun k => d.closes k == 0

/-- A new connection. -/
def accept (d : Descriptors β) (fd : Int) : Descriptors β :=
  { d with
    accepted := d.accepted + 1
    owner := Function.update d.owner fd (some d.accepted) }

/-- `close`. -/
def close (d : Descriptors β) (fd : Int) : Descriptors β :=
  match d.owner fd with
  | .none => d
  | some k => { d with closes := Function.update d.closes k (d.closes k + 1) }

/-- `write` or `send`. -/
def write (d : Descriptors β) (fd : Int) (b : β) : Descriptors β :=
  match d.owner fd with
  | .none => d
  | some k => { d with log := Function.update d.log k (d.log k ++ [b]) }

section
variable (d : Descriptors β) (fd : Int) (b : β)

/-- Accepting a connection closes none. -/
@[simp] theorem accept_closes : (d.accept fd).closes = d.closes := rfl
@[simp] theorem accept_log : (d.accept fd).log = d.log := rfl
@[simp] theorem accept_accepted : (d.accept fd).accepted = d.accepted + 1 := rfl
@[simp] theorem accept_owner : (d.accept fd).owner fd = some d.accepted :=
  Function.update_self ..

/-- Closing a descriptor accepts nothing. -/
@[simp] theorem close_accepted : (d.close fd).accepted = d.accepted := by
  rw [close]
  split <;> rfl

/-- The connection remains the last owner. -/
@[simp] theorem close_owner : (d.close fd).owner = d.owner := by
  rw [close]
  split <;> rfl

/-- It writes nothing. -/
@[simp] theorem close_log : (d.close fd).log = d.log := by
  rw [close]
  split <;> rfl

/-- Writing accepts nothing. -/
@[simp] theorem write_accepted : (d.write fd b).accepted = d.accepted := by
  rw [write]
  split <;> rfl

/-- It changes no owner. -/
@[simp] theorem write_owner : (d.write fd b).owner = d.owner := by
  rw [write]
  split <;> rfl

/-- It closes nothing. -/
@[simp] theorem write_closes : (d.write fd b).closes = d.closes := by
  rw [write]
  split <;> rfl

end

section
variable {d : Descriptors β} {fd : Int} {k : Nat}

/-- The other descriptors keep their owners. -/
theorem accept_owner_of_ne {fd' : Int} (h : fd' ≠ fd) : (d.accept fd).owner fd' = d.owner fd' :=
  Function.update_of_ne h ..

/-- The owner is closed once more. -/
theorem close_closes (h : d.owner fd = some k) :
    (d.close fd).closes = Function.update d.closes k (d.closes k + 1) := by
  rw [close, h]

/-- Nothing is opened again. -/
theorem closes_le_close (d : Descriptors β) (fd : Int) (k : Nat) :
    d.closes k ≤ (d.close fd).closes k := by
  rw [close]
  split
  · exact Nat.le_refl _
  · rename_i n _
    by_cases hk : k = n
    · simp [hk]
    · simp [Function.update_of_ne hk]

/-- A connection gets what is written to a descriptor of its own. -/
theorem write_log_apply (d : Descriptors β) (fd : Int) (b : β) (k : Nat) :
    (d.write fd b).log k = d.log k ++ if d.owner fd = some k then [b] else [] := by
  rw [write]
  split
  · rename_i h
    simp [h]
  · rename_i n h
    rw [h]
    by_cases hk : k = n
    · simp [hk]
    · simp [Function.update_of_ne hk, Ne.symm hk]

/-- A descriptor is open when its owner has not been closed. -/
theorem isOpen_eq_true : d.isOpen fd = true ↔ ∃ k, d.owner fd = some k ∧ d.closes k = 0 := by
  rw [isOpen, Option.any_eq_true]
  simp

end

/-- The connections after some calls: more may have been made, and no closing is undone. -/
structure Grows (d d' : Descriptors β) : Prop where
  accepted : d.accepted ≤ d'.accepted
  closes : ∀ k, d.closes k ≤ d'.closes k

namespace Grows

variable {d d' d'' : Descriptors β}

/-- Nothing has happened. -/
theorem refl (d : Descriptors β) : Grows d d := ⟨Nat.le_refl _, fun _ => Nat.le_refl _⟩

/-- One after the other. -/
theorem trans (h : Grows d d') (h' : Grows d' d'') : Grows d d'' :=
  ⟨Nat.le_trans h.accepted h'.accepted, fun k => Nat.le_trans (h.closes k) (h'.closes k)⟩

/-- A connection more. -/
theorem accept (d : Descriptors β) (fd : Int) : Grows d (d.accept fd) :=
  ⟨Nat.le_succ _, fun _ => Nat.le_refl _⟩

/-- A connection is closed once more. -/
theorem close (d : Descriptors β) (fd : Int) : Grows d (d.close fd) :=
  ⟨Nat.le_of_eq (close_accepted d fd).symm, closes_le_close d fd⟩

/-- Nothing is accepted or closed. -/
theorem write (d : Descriptors β) (fd : Int) (b : β) : Grows d (d.write fd b) :=
  ⟨Nat.le_of_eq (write_accepted d fd b).symm,
    fun k => Nat.le_of_eq (congrFun (write_closes d fd b) k).symm⟩

end Grows

/-- The open connections of the program are those in its slots. -/
structure Custody (d : Descriptors β) (held : ι → Option Int) : Prop where
  /-- What is in a slot is open. -/
  opened : ∀ i fd, held i = some fd → d.isOpen fd = true
  /-- No descriptor is in two slots. -/
  distinct : ∀ i j fd, held i = some fd → held j = some fd → i = j
  /-- What is open is in a slot. -/
  placed : ∀ k < d.accepted, d.closes k = 0 → ∃ i fd, held i = some fd ∧ d.owner fd = some k
  /-- Nothing is closed twice. -/
  once : ∀ k, d.closes k ≤ 1
  known : ∀ fd k, d.owner fd = some k → k < d.accepted
  single : ∀ fd fd' k, d.owner fd = some k → d.owner fd' = some k → fd = fd'
  unmade : ∀ k, d.accepted ≤ k → d.closes k = 0

/-- The connection is in the slot. -/
def Holds (d : Descriptors β) (held : ι → Option Int) (i : ι) (k : Nat) : Prop :=
  ∃ fd, held i = some fd ∧ d.owner fd = some k

/-- At the start nothing is held. -/
theorem custody_none : Custody (none : Descriptors β) (fun _ : ι => .none) where
  opened _ _ h := by cases h
  distinct _ _ _ h := by cases h
  placed _ hk := absurd hk (Nat.not_lt_zero _)
  once _ := Nat.zero_le 1
  known _ _ h := by cases h
  single _ _ _ h := by cases h
  unmade _ _ := rfl

namespace Custody

variable {d : Descriptors β} {held : ι → Option Int} {fd : Int} {i : ι}

/-- A new connection has another descriptor than those in the slots. -/
theorem ne_of_fresh (h : Custody d held) (hfresh : d.isOpen fd = false) {j : ι} {fd' : Int}
    (hj : held j = some fd') : fd' ≠ fd := by
  rintro rfl
  cases hfresh.symm.trans (h.opened j fd' hj)

/-- What a new connection leaves as it is. -/
theorem isOpen_accept (h : Custody d held) (hfresh : d.isOpen fd = false) {j : ι} {fd' : Int}
    (hj : held j = some fd') : (d.accept fd).isOpen fd' = true := by
  obtain ⟨k, hk, hopen⟩ := isOpen_eq_true.mp (h.opened j fd' hj)
  refine isOpen_eq_true.mpr ⟨k, ?_, hopen⟩
  rw [accept_owner_of_ne (h.ne_of_fresh hfresh hj), hk]

/-- A new connection owns its descriptor, and the others keep theirs. -/
theorem owner_accept (h : Custody d held) {fd' : Int} {k : Nat}
    (hk : (d.accept fd).owner fd' = some k) :
    (fd' = fd ∧ k = d.accepted) ∨ (fd' ≠ fd ∧ d.owner fd' = some k ∧ k < d.accepted) := by
  by_cases hfd : fd' = fd
  · subst hfd
    rw [accept_owner, Option.some.injEq] at hk
    exact Or.inl ⟨rfl, hk.symm⟩
  · rw [accept_owner_of_ne hfd] at hk
    exact Or.inr ⟨hfd, hk, h.known fd' k hk⟩

/-- After an accept, a connection still has one descriptor. -/
theorem single_accept (h : Custody d held) {fd₁ fd₂ : Int} {k : Nat}
    (h₁ : (d.accept fd).owner fd₁ = some k) (h₂ : (d.accept fd).owner fd₂ = some k) :
    fd₁ = fd₂ := by
  rcases h.owner_accept h₁ with ⟨rfl, rfl⟩ | ⟨-, h₁, hlt⟩
  · rcases h.owner_accept h₂ with ⟨rfl, -⟩ | ⟨-, -, hlt⟩
    · rfl
    · exact absurd hlt (Nat.lt_irrefl _)
  · rcases h.owner_accept h₂ with ⟨-, rfl⟩ | ⟨-, h₂, -⟩
    · exact absurd hlt (Nat.lt_irrefl _)
    · exact h.single fd₁ fd₂ k h₁ h₂

/-- And every owner has been accepted. -/
theorem known_accept (h : Custody d held) {fd' : Int} {k : Nat}
    (hk : (d.accept fd).owner fd' = some k) : k < d.accepted + 1 := by
  rcases h.owner_accept hk with ⟨-, rfl⟩ | ⟨-, -, hlt⟩
  · exact Nat.lt_succ_self _
  · exact Nat.lt_succ_of_lt hlt

/-- A connection that is in a slot stays there when another one is accepted. -/
theorem holds_accept (h : Custody d held) (hfresh : d.isOpen fd = false) {j : ι} {fd' : Int}
    {k : Nat} (hj : held j = some fd') (hk : d.owner fd' = some k) :
    (d.accept fd).owner fd' = some k := by
  rw [accept_owner_of_ne (h.ne_of_fresh hfresh hj), hk]

/-- **Accept.** A new connection goes to a free slot. -/
theorem accept [DecidableEq ι] (h : Custody d held) (hfresh : d.isOpen fd = false)
    (hfree : held i = .none) : Custody (d.accept fd) (Function.update held i (some fd)) where
  opened j fd' hj := by
    by_cases hij : j = i
    · subst hij
      rw [Function.update_self, Option.some.injEq] at hj
      subst hj
      exact isOpen_eq_true.mpr ⟨d.accepted, accept_owner .., h.unmade _ (Nat.le_refl _)⟩
    · rw [Function.update_of_ne hij] at hj
      exact h.isOpen_accept hfresh hj
  distinct j j' fd' hj hj' := by
    by_cases hij : j = i
    · by_cases hij' : j' = i
      · rw [hij, hij']
      · subst hij
        rw [Function.update_self, Option.some.injEq] at hj
        rw [Function.update_of_ne hij'] at hj'
        -- The number was closed, so that no other slot has it.
        exact absurd hj.symm (h.ne_of_fresh hfresh hj')
    · rw [Function.update_of_ne hij] at hj
      by_cases hij' : j' = i
      · subst hij'
        rw [Function.update_self, Option.some.injEq] at hj'
        exact absurd hj'.symm (h.ne_of_fresh hfresh hj)
      · rw [Function.update_of_ne hij'] at hj'
        exact h.distinct j j' fd' hj hj'
  placed k hk hopen := by
    -- An older connection keeps its slot, which is not the free one; the new one is in slot `i`.
    rcases Nat.lt_succ_iff_lt_or_eq.mp hk with hlt | rfl
    · obtain ⟨j, fd', hj, howner⟩ := h.placed k hlt hopen
      have hij : j ≠ i := by
        rintro rfl
        cases hfree.symm.trans hj
      exact ⟨j, fd', by rw [Function.update_of_ne hij, hj], h.holds_accept hfresh hj howner⟩
    · exact ⟨i, fd, Function.update_self .., accept_owner ..⟩
  once := h.once
  known _ _ hk := h.known_accept hk
  single _ _ _ h₁ h₂ := h.single_accept h₁ h₂
  unmade k hk := h.unmade k (Nat.le_of_succ_le hk)

/-- **Reject.** A new connection is closed at once. -/
theorem reject (h : Custody d held) (hfresh : d.isOpen fd = false) :
    Custody ((d.accept fd).close fd) held := by
  have hcloses : ((d.accept fd).close fd).closes
      = Function.update d.closes d.accepted (d.closes d.accepted + 1) :=
    close_closes (accept_owner d fd)
  have hnew := h.unmade d.accepted (Nat.le_refl _)
  exact
  { opened := by
      intro j fd' hj
      obtain ⟨k, hk, hopen⟩ := isOpen_eq_true.mp (h.opened j fd' hj)
      refine isOpen_eq_true.mpr ⟨k, ?_, ?_⟩
      · -- The slots keep what they have, for the number that is closed is in none of them.
        rw [close_owner, h.holds_accept hfresh hj hk]
      · rw [hcloses, Function.update_of_ne (Nat.ne_of_lt (h.known fd' k hk)), hopen]
    distinct := h.distinct
    placed := by
      intro k hk hopen
      rw [close_accepted, accept_accepted] at hk
      rw [hcloses] at hopen
      rcases Nat.lt_succ_iff_lt_or_eq.mp hk with hlt | rfl
      · rw [Function.update_of_ne (Nat.ne_of_lt hlt)] at hopen
        obtain ⟨j, fd', hj, howner⟩ := h.placed k hlt hopen
        exact ⟨j, fd', hj, by rw [close_owner, h.holds_accept hfresh hj howner]⟩
      · -- The new connection is closed already, and needs no slot.
        rw [Function.update_self] at hopen
        omega
    once := by
      intro k
      rw [hcloses]
      by_cases hk : k = d.accepted
      · subst hk
        rw [Function.update_self]
        omega
      · rw [Function.update_of_ne hk]
        exact h.once k
    known := by
      intro fd' k hk
      rw [close_owner] at hk
      rw [close_accepted, accept_accepted]
      exact h.known_accept hk
    single := by
      intro fd₁ fd₂ k h₁ h₂
      rw [close_owner] at h₁ h₂
      exact h.single_accept h₁ h₂
    unmade := by
      intro k hk
      rw [close_accepted, accept_accepted] at hk
      rw [hcloses, Function.update_of_ne (by omega)]
      exact h.unmade k (by omega) }

/-- **Release.** The connection in a slot is closed and the slot becomes free. -/
theorem release [DecidableEq ι] (h : Custody d held) (hi : held i = some fd) :
    Custody (d.close fd) (Function.update held i .none) := by
  obtain ⟨n, hn, hopen⟩ := isOpen_eq_true.mp (h.opened i fd hi)
  have hcloses := close_closes hn
  exact
  { opened := by
      intro j fd' hj
      by_cases hij : j = i
      · subst hij
        rw [Function.update_self] at hj
        cases hj
      · rw [Function.update_of_ne hij] at hj
        obtain ⟨k, hk, hkopen⟩ := isOpen_eq_true.mp (h.opened j fd' hj)
        -- Two slots never hold the same connection, so that this one is not the closed one.
        have hkn : k ≠ n := by
          rintro rfl
          exact hij (h.distinct j i fd' hj (h.single fd fd' k hn hk ▸ hi))
        refine isOpen_eq_true.mpr ⟨k, by rw [close_owner, hk], ?_⟩
        rw [hcloses, Function.update_of_ne hkn, hkopen]
    distinct := by
      intro j j' fd' hj hj'
      by_cases hij : j = i
      · subst hij
        rw [Function.update_self] at hj
        cases hj
      · by_cases hij' : j' = i
        · subst hij'
          rw [Function.update_self] at hj'
          cases hj'
        · rw [Function.update_of_ne hij] at hj
          rw [Function.update_of_ne hij'] at hj'
          exact h.distinct j j' fd' hj hj'
    placed := by
      intro k hk hkopen
      rw [close_accepted] at hk
      rw [hcloses] at hkopen
      by_cases hkn : k = n
      · subst hkn
        -- The only connection that loses its slot is the closed one.
        rw [Function.update_self] at hkopen
        omega
      · rw [Function.update_of_ne hkn] at hkopen
        obtain ⟨j, fd', hj, howner⟩ := h.placed k hk hkopen
        have hij : j ≠ i := by
          rintro rfl
          rw [hi, Option.some.injEq] at hj
          subst hj
          exact hkn (Option.some.inj (howner.symm.trans hn))
        exact ⟨j, fd', by rw [Function.update_of_ne hij, hj], by rw [close_owner, howner]⟩
    once := by
      intro k
      rw [hcloses]
      by_cases hkn : k = n
      · subst hkn
        rw [Function.update_self]
        omega
      · rw [Function.update_of_ne hkn]
        exact h.once k
    known := by
      intro fd' k hk
      rw [close_owner] at hk
      rw [close_accepted]
      exact h.known fd' k hk
    single := by
      intro fd₁ fd₂ k h₁ h₂
      rw [close_owner] at h₁ h₂
      exact h.single fd₁ fd₂ k h₁ h₂
    unmade := by
      intro k hk
      rw [close_accepted] at hk
      -- The closed connection has been accepted, so that it is not one that is still to come.
      have hlt := h.known fd n hn
      rw [hcloses, Function.update_of_ne (by omega)]
      exact h.unmade k hk }

/-- **Write.** -/
theorem write (h : Custody d held) (b : β) : Custody (d.write fd b) held where
  opened j fd' hj := by
    -- A write changes the log only. Owners, closes and numbers are what they were.
    rw [isOpen, write_owner, write_closes]
    exact h.opened j fd' hj
  distinct := h.distinct
  placed k hk hopen := by
    rw [write_accepted] at hk
    rw [write_closes] at hopen
    rw [write_owner]
    exact h.placed k hk hopen
  once k := by
    rw [write_closes]
    exact h.once k
  known fd' k hk := by
    rw [write_owner] at hk
    rw [write_accepted]
    exact h.known fd' k hk
  single fd₁ fd₂ k h₁ h₂ := by
    rw [write_owner] at h₁ h₂
    exact h.single fd₁ fd₂ k h₁ h₂
  unmade k hk := by
    rw [write_accepted] at hk
    rw [write_closes]
    exact h.unmade k hk

/-- A connection is in one slot at most. -/
theorem holds_unique (h : Custody d held) {i j : ι} {k : Nat} (hi : Holds d held i k)
    (hj : Holds d held j k) : i = j := by
  obtain ⟨fd, hi, hk⟩ := hi
  obtain ⟨fd', hj, hk'⟩ := hj
  rw [h.single fd' fd k hk' hk] at hj
  exact h.distinct i j fd hi hj

/-- What is in a slot has not been closed. -/
theorem closes_of_holds (h : Custody d held) {k : Nat} (hi : Holds d held i k) :
    d.closes k = 0 := by
  obtain ⟨fd, hi, hk⟩ := hi
  obtain ⟨k', hk', hopen⟩ := isOpen_eq_true.mp (h.opened i fd hi)
  obtain rfl := Option.some.inj (hk.symm.trans hk')
  exact hopen

/-- **The account.** Every connection that was accepted is either in exactly one slot and has not
been closed, or it is in none and has been closed exactly once. -/
theorem accounted (h : Custody d held) {k : Nat} (hk : k < d.accepted) :
    (d.closes k = 0 ∧ ∃! i, Holds d held i k) ∨ (d.closes k = 1 ∧ ∀ i, ¬ Holds d held i k) := by
  by_cases hopen : d.closes k = 0
  · obtain ⟨i, fd, hi, howner⟩ := h.placed k hk hopen
    exact Or.inl ⟨hopen, i, ⟨fd, hi, howner⟩, fun j hj => h.holds_unique hj ⟨fd, hi, howner⟩⟩
  · have hle := h.once k
    refine Or.inr ⟨by omega, fun i hi => hopen (h.closes_of_holds hi)⟩

end Custody

end Descriptors

end SmartFactory
