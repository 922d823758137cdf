import SmartFactory.Lib.MessagePackWriting

/-!
# `SmartFactory.Lib.MessagePackTally`: sums over the tokens of an object

`Object.tally f` adds up `f` over all tokens that an object is written with. It does not depend
on the order of the entries (`tally_eq_of_unordered`), so two objects with different sums are not
the same object without an order.

The sums of this module are `intSum`, which adds up the integers, and `overlong`, which counts
what the format cannot write: strings of 2^32 bytes or more, and arrays and maps of as many
elements. A reader never gets anything overlong (`overlong_of_readUnordered`).
-/

set_option autoImplicit false

namespace SmartFactory.MessagePack

mutual

/-- The sum over the tokens of an object. -/
def Object.tally (f : Token → Int) : Object → Int
  | .nil => f (.atom .nil)
  | .bool b => f (.atom (.bool b))
  | .int i => f (.atom (.int i))
  | .float32 bits => f (.atom (.float32 bits))
  | .float64 bits => f (.atom (.float64 bits))
  | .str s => f (.atom (.str s))
  | .bin s => f (.atom (.bin s))
  | .ext type s => f (.atom (.ext type s))
  | .array os => f (.array os.length) + tallyAll f os
  | .map es => f (.map es.length) + tallyEntries f es

/-- The sum over the elements of an array. -/
def tallyAll (f : Token → Int) : List Object → Int
  | [] => 0
  | o :: os => o.tally f + tallyAll f os

/-- The sum over the entries of a map. -/
def tallyEntries (f : Token → Int) : List (Object × Object) → Int
  | [] => 0
  | (k, v) :: es => k.tally f + v.tally f + tallyEntries f es

end

/-- The sum over a token and the object that it may be. -/
def Token.tally (f : Token → Int) : Token → Int
  | .atom o => o.tally f
  | t => f t

variable (f : Token → Int)

/-- The tally of a list of objects, as a sum. -/
theorem tallyAll_eq_sum (os : List Object) :
    tallyAll f os = (os.map fun o => o.tally f).sum := by
  induction os with
  | nil => rfl
  | cons o os ih => simp [tallyAll, ih]

/-- The tally of entries, as a sum. -/
theorem tallyEntries_eq_sum (es : List (Object × Object)) :
    tallyEntries f es = (es.map fun e => e.1.tally f + e.2.tally f).sum := by
  induction es with
  | nil => rfl
  | cons e es ih => simp [tallyEntries, ih]

/-- Another order of the entries leaves the tally. -/
theorem Swap.tally_eq {o o' : Object} (h : Swap o o') : o.tally f = o'.tally f := by
  induction h with
  | entries hp =>
      simp only [Object.tally, hp.length_eq, tallyEntries_eq_sum, (hp.map _).sum_eq]
  | element _ ih => simp [Object.tally, tallyAll_eq_sum, ih]
  | key _ ih => simp [Object.tally, tallyEntries_eq_sum, ih]
  | value _ ih => simp [Object.tally, tallyEntries_eq_sum, ih]

/-- The order does not matter for the sum. -/
theorem tally_eq_of_unordered {o o' : Object} (h : o.unordered = o'.unordered) :
    o.tally f = o'.tally f :=
  congrArg (Quot.lift (Object.tally f) fun _ _ => Swap.tally_eq f) h

section Order

variable {f}

mutual

/-- A tally of what is not negative is not negative. -/
theorem tally_nonneg (hf : ∀ t, 0 ≤ f t) : ∀ o : Object, 0 ≤ o.tally f
  | .nil => hf _
  | .bool _ => hf _
  | .int _ => hf _
  | .float32 _ => hf _
  | .float64 _ => hf _
  | .str _ => hf _
  | .bin _ => hf _
  | .ext _ _ => hf _
  | .array os => Int.add_nonneg (hf _) (tallyAll_nonneg hf os)
  | .map es => Int.add_nonneg (hf _) (tallyEntries_nonneg hf es)

/-- Nor is that of a list. -/
theorem tallyAll_nonneg (hf : ∀ t, 0 ≤ f t) : ∀ os : List Object, 0 ≤ tallyAll f os
  | [] => Int.le_refl 0
  | o :: os => Int.add_nonneg (tally_nonneg hf o) (tallyAll_nonneg hf os)

/-- Nor that of entries. -/
theorem tallyEntries_nonneg (hf : ∀ t, 0 ≤ f t) :
    ∀ es : List (Object × Object), 0 ≤ tallyEntries f es
  | [] => Int.le_refl 0
  | (k, v) :: es =>
      Int.add_nonneg (Int.add_nonneg (tally_nonneg hf k) (tally_nonneg hf v))
        (tallyEntries_nonneg hf es)

end

/-- An element counts no more than the array that it is in. -/
theorem tally_le_array (hf : ∀ t, 0 ≤ f t) {os : List Object} {o : Object} (ho : o ∈ os) :
    o.tally f ≤ (Object.array os).tally f := by
  have hhead := hf (.array os.length)
  have hall : o.tally f ≤ tallyAll f os := by
    induction os with
    | nil => cases ho
    | cons o' os ih =>
        have hfirst := tally_nonneg hf o'
        have hrest := tallyAll_nonneg hf os
        simp only [tallyAll]
        rcases List.mem_cons.mp ho with rfl | ho
        · omega
        · have hle := ih ho (hf _)
          omega
  simp only [Object.tally]
  omega

/-- A value counts no more than the map that it is in. -/
theorem tally_le_map (hf : ∀ t, 0 ≤ f t) {es : List (Object × Object)} {e : Object × Object}
    (he : e ∈ es) :
    e.2.tally f ≤ (Object.map es).tally f := by
  have hhead := hf (.map es.length)
  have hall : e.2.tally f ≤ tallyEntries f es := by
    induction es with
    | nil => cases he
    | cons e' es ih =>
        have hkey := tally_nonneg hf e'.1
        have hvalue := tally_nonneg hf e'.2
        have hrest := tallyEntries_nonneg hf es
        simp only [tallyEntries]
        rcases List.mem_cons.mp he with rfl | he
        · omega
        · have hle := ih he (hf _)
          omega
  simp only [Object.tally]
  omega

end Order

/-- Lists whose elements count more and that count the same in all have elements that count the
same. -/
theorem tally_eq_of_tallyAll_eq {α : Type} {a b : α → Object} {xs : List α}
    (hle : ∀ x ∈ xs, (b x).tally f ≤ (a x).tally f)
    (hsum : tallyAll f (xs.map a) = tallyAll f (xs.map b)) :
    ∀ x ∈ xs, (a x).tally f = (b x).tally f := by
  -- The tail cannot make up for a head that counts less.
  have hmono : ∀ ys : List α, (∀ x ∈ ys, (b x).tally f ≤ (a x).tally f) →
      tallyAll f (ys.map b) ≤ tallyAll f (ys.map a) := by
    intro ys hys
    rw [tallyAll_eq_sum, tallyAll_eq_sum, List.map_map, List.map_map]
    exact List.sum_le_sum hys
  induction xs with
  | nil => simp
  | cons x xs ih =>
      rw [List.forall_mem_cons] at hle ⊢
      simp only [List.map_cons, tallyAll] at hsum
      have htail := hmono xs hle.2
      have hhead := hle.1
      exact ⟨by omega, ih hle.2 (by omega)⟩

/-- The keys and values that are read for a map count as its entries. -/
theorem tallyEntries_entries : ∀ (os : List Object) (k : Nat), os.length = 2 * k →
    tallyEntries f (entries os) = tallyAll f os
  | [], _, _ => rfl
  | [_], k, h => by simp only [List.length_cons, List.length_nil] at h; omega
  | o :: o' :: os, k, h => by
    simp only [List.length_cons] at h
    have ih := tallyEntries_entries os (k - 1) (by omega)
    simp only [entries, tallyEntries, tallyAll, ih]
    omega

/-- When the tokens of a reader do not count, neither do the objects. -/
theorem tallyAll_of_readObjects {fuel n : Nat} {bs rest : Bytes} {os : List Object}
    (hf : ∀ bs t rest, readToken bs = some (t, rest) → t.tally f = 0)
    (h : readObjects fuel n bs = some (os, rest)) : tallyAll f os = 0 := by
  induction fuel generalizing n bs rest os with
  | zero =>
      cases n with
      | zero =>
          simp only [readObjects, Option.some.injEq, Prod.mk.injEq] at h
          simp [← h.1, tallyAll]
      | succ n => cases h
  | succ fuel ih =>
      cases n with
      | zero =>
          simp only [readObjects, Option.some.injEq, Prod.mk.injEq] at h
          simp [← h.1, tallyAll]
      | succ n =>
          simp only [readObjects, Option.bind_eq_bind, Option.bind_eq_some_iff] at h
          obtain ⟨⟨t, bs₁⟩, ht, ⟨o, bs₂⟩, ho, ⟨os', bs₃⟩, hos, h⟩ := h
          cases h
          have htoken := hf _ _ _ ht
          have htail := ih hos
          dsimp only at ho
          -- An object counts as its token and its elements, and these are read with less fuel.
          have hobj : o.tally f = 0 := by
            cases t with
            | atom o' =>
                cases ho
                exact htoken
            | array k =>
                obtain ⟨⟨xs, bs'⟩, hxs, ho⟩ := Option.map_eq_some_iff.mp ho
                cases ho
                obtain ⟨rfl, -⟩ := size_le_of_readObjects hxs
                simp only [Token.tally] at htoken
                simp only [Object.tally, htoken, ih hxs, Int.add_zero]
            | map k =>
                obtain ⟨⟨xs, bs'⟩, hxs, ho⟩ := Option.map_eq_some_iff.mp ho
                cases ho
                obtain ⟨hlen, -⟩ := size_le_of_readObjects hxs
                simp only [Token.tally] at htoken
                simp only [Object.tally, entries_length xs k hlen, htoken,
                  tallyEntries_entries f xs k hlen, ih hxs, Int.add_zero]
          simp only [tallyAll, hobj, htail, Int.add_zero]

/-! ### The sum of the integers -/

/-- The integer of a token. -/
def Token.int : Token → Int
  | .atom (.int i) => i
  | _ => 0

/-- The sum of the integers in an object. -/
abbrev Object.intSum (o : Object) : Int := o.tally Token.int

/-! ### What the format cannot write -/

/-- The length of a token that has one. -/
def Token.length : Token → Nat
  | .atom (.str s) => s.length
  | .atom (.bin s) => s.length
  | .atom (.ext _ s) => s.length
  | .atom _ => 0
  | .array n => n
  | .map n => n

/-- One for a token whose length has more than four bytes. -/
def Token.overlong (t : Token) : Int := if t.length < 2 ^ 32 then 0 else 1

/-- The number of tokens whose length has more than four bytes. -/
abbrev Object.overlong (o : Object) : Int := o.tally Token.overlong

/-- The tokens of a format have lengths of four bytes at most. -/
def Format.Short (f : Format) : Prop :=
  ∀ n < 256 ^ f.width, ∀ s : Bytes, s.length = f.body n → (f.token n s).tally Token.overlong = 0

/-- A token whose length fits is not overlong. -/
theorem overlong_eq_zero {t : Token} (h : t.length < 2 ^ 32) : t.overlong = 0 := if_pos h

/-- A token whose length does not depend on what follows. -/
theorem short_single {t : Token} (ht : t.tally Token.overlong = 0) : (Format.single t).Short :=
  fun _ _ _ _ => ht

/-- A format with a number is short when its tokens are. -/
theorem short_number {w : Nat} {t : Nat → Token}
    (ht : ∀ n < 256 ^ w, (t n).tally Token.overlong = 0) : (Format.number w t).Short :=
  fun n hn _ _ => ht n hn

/-- A body whose length has a number of `w` bytes. -/
theorem short_sized {w : Nat} {o : Bytes → Object} (hw : 256 ^ w ≤ 2 ^ 32)
    (ho : ∀ s : Bytes, s.length < 2 ^ 32 → (o s).tally Token.overlong = 0) :
    (Format.sized w o).Short := by
  intro n hn s hs
  simp only [Format.sized] at hn hs
  exact ho s (by omega)

/-- So is an extension with a short body. -/
theorem overlong_extOfBody {s : Bytes} (hs : s.length ≤ 2 ^ 32) :
    (extOfBody s).tally Token.overlong = 0 := by
  cases s with
  | nil => exact overlong_eq_zero (by simp [Token.length])
  | cons t s =>
      simp only [List.length_cons] at hs
      exact overlong_eq_zero (by simp only [Token.length]; omega)

/-- An extension, whose length has a number of `w` bytes. -/
theorem short_ext {w : Nat} (hw : 256 ^ w ≤ 2 ^ 32) :
    (⟨w, fun n => n + 1, fun _ s => .atom (extOfBody s)⟩ : Format).Short := by
  intro n hn s hs
  simp only at hn hs
  exact overlong_extOfBody (by omega)

/-- A body of fixed length. -/
theorem short_fixed {n : Nat} {o : Bytes → Object}
    (ho : ∀ s : Bytes, s.length = n → (o s).tally Token.overlong = 0) :
    (Format.fixed n o).Short :=
  fun _ _ s hs => ho s hs

/-- The lengths of all formats have four bytes at most. -/
theorem format_short {b : Nat} {f : Format} (hb : b < 256) (hf : format b = some f) : f.Short := by
  have hstr : ∀ s : Bytes, s.length < 2 ^ 32 → (Object.str s).tally Token.overlong = 0 :=
    fun s hs => overlong_eq_zero hs
  have hbin : ∀ s : Bytes, s.length < 2 ^ 32 → (Object.bin s).tally Token.overlong = 0 :=
    fun s hs => overlong_eq_zero hs
  unfold format at hf
  split_ifs at hf with h1 h2 h3 h4 h5
  · cases hf
    exact short_single rfl
  · cases hf
    exact short_single (overlong_eq_zero (by simp only [Token.length]; omega))
  · cases hf
    exact short_single (overlong_eq_zero (by simp only [Token.length]; omega))
  · cases hf
    exact short_fixed fun s hs => hstr s (by omega)
  · cases hf
    exact short_single rfl
  unfold fullFormat at hf
  split at hf <;> cases hf
  -- In the order of the table: nil and the Booleans, byte arrays, extensions,
  iterate 3 next => exact short_single rfl
  iterate 3 next => exact short_sized (by decide) hbin
  iterate 3 next => exact short_ext (by decide)
  -- floats and integers,
  iterate 10 next => exact short_number fun _ _ => rfl
  -- extensions of fixed length, strings, arrays and maps.
  iterate 5 next => exact short_fixed fun s hs => overlong_extOfBody (by omega)
  iterate 3 next => exact short_sized (by decide) hstr
  iterate 4
    next => exact short_number fun n hn => overlong_eq_zero (by simp only [Token.length]; omega)

/-- A reader takes no overlong token. -/
theorem overlong_of_readToken (bs : Bytes) (t : Token) (rest : Bytes)
    (h : readToken bs = some (t, rest)) : t.tally Token.overlong = 0 := by
  cases bs with
  | nil => cases h
  | cons b bs =>
      simp only [readToken, Format.read, Option.bind_eq_bind, Option.bind_eq_some_iff] at h
      obtain ⟨f, hf, ⟨d, bs'⟩, hd, ⟨s, bs''⟩, hs, h⟩ := h
      cases h
      obtain ⟨hdlen, rfl⟩ := readBytes_some hd
      obtain ⟨hslen, rfl⟩ := readBytes_some hs
      exact format_short b.toNat_lt hf _ (hdlen ▸ ofBigEndian_lt d) s hslen

/-- A reader gets nothing overlong. -/
theorem overlong_of_readUnordered {o : Object} {bs : Bytes}
    (h : readUnordered bs = some o.unordered) : o.overlong = 0 := by
  unfold readUnordered at h
  split at h
  · rename_i o' hread
    rw [Object.overlong, ← tally_eq_of_unordered Token.overlong (Option.some.inj h)]
    simp only [readObject, Option.bind_eq_bind, Option.bind_eq_some_iff] at hread
    obtain ⟨⟨os, bs'⟩, hos, hread⟩ := hread
    have hzero := tallyAll_of_readObjects Token.overlong overlong_of_readToken hos
    obtain ⟨hlen, -⟩ := size_le_of_readObjects hos
    obtain ⟨o'', rfl⟩ := List.length_eq_one_iff.mp hlen
    cases hread
    simpa [tallyAll] using hzero
  · cases h

end SmartFactory.MessagePack
