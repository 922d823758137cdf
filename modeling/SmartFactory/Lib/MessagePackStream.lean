import SmartFactory.Lib.MessagePack

/-!
# `SmartFactory.Lib.MessagePackStream`: reading objects as they arrive

A reader of a stream has a part of it at any time. `readStream` takes the objects that have
arrived in full and returns the bytes that are left over.

There is nothing between the objects, so what separates them is that more bytes never change what
has been read (`readObject_append`). From this an object that has arrived in part is not read as
another one (`readObject_of_prefix`), and `readStream_flatten` reads back what was written.
-/

set_option autoImplicit false

namespace SmartFactory.MessagePack

/-- Read objects until there is none, or until the fuel is used up. -/
def readAll : Nat → Bytes → List Object × Bytes
  | 0, bs => ([], bs)
  | fuel + 1, bs =>
      match readObject bs with
      | none => ([], bs)
      | some (o, rest) => (o :: (readAll fuel rest).1, (readAll fuel rest).2)

/-- The objects that have arrived, and what is left over. Each object takes one byte at least, so
the number of bytes is fuel enough. -/
def readStream (bs : Bytes) : List Object × Bytes := readAll bs.length bs

/-! ### More bytes -/

/-- More bytes at the end do not change which ones are read. -/
theorem readBytes_append_right {n : Nat} {bs s rest : Bytes} (more : Bytes)
    (h : readBytes n bs = some (s, rest)) : readBytes n (bs ++ more) = some (s, rest ++ more) := by
  obtain ⟨rfl, rfl⟩ := readBytes_some h
  rw [List.append_assoc, readBytes_append]

/-- Nor which token is read. -/
theorem readToken_append {bs rest : Bytes} {t : Token} (more : Bytes)
    (h : readToken bs = some (t, rest)) : readToken (bs ++ more) = some (t, rest ++ more) := by
  cases bs with
  | nil => cases h
  | cons b bs =>
      simp only [readToken, Format.read, Option.bind_eq_bind, Option.bind_eq_some_iff] at h
      obtain ⟨f, hf, ⟨d, bs₁⟩, hd, ⟨s, bs₂⟩, hs, h⟩ := h
      cases h
      dsimp only at hs
      simp [readToken, Format.read, hf, readBytes_append_right more hd,
        readBytes_append_right more hs]

/-- What a token begins is read in the same way when its parts are. -/
theorem readRest_append {objects objects' : Nat → Bytes → Option (List Object × Bytes)}
    {more : Bytes} (hobjects : ∀ n bs os rest, objects n bs = some (os, rest) →
      objects' n (bs ++ more) = some (os, rest ++ more))
    {t : Token} {bs rest : Bytes} {o : Object} (h : readRest objects t bs = some (o, rest)) :
    readRest objects' t (bs ++ more) = some (o, rest ++ more) := by
  cases t with
  | atom o' =>
      cases h
      rfl
  | array k =>
      obtain ⟨⟨xs, bs'⟩, hxs, h⟩ := Option.map_eq_some_iff.mp h
      cases h
      rw [readRest, hobjects k bs xs bs' hxs, Option.map_some]
  | map k =>
      obtain ⟨⟨xs, bs'⟩, hxs, h⟩ := Option.map_eq_some_iff.mp h
      cases h
      rw [readRest, hobjects (2 * k) bs xs bs' hxs, Option.map_some]

/-- Nor which objects are, with at least as much fuel. -/
theorem readObjects_append {fuel fuel' n : Nat} {bs rest : Bytes} {os : List Object}
    (more : Bytes) (hfuel : fuel ≤ fuel') (h : readObjects fuel n bs = some (os, rest)) :
    readObjects fuel' n (bs ++ more) = some (os, rest ++ more) := by
  induction fuel generalizing fuel' n bs rest os with
  | zero =>
      cases n with
      | zero =>
          simp only [readObjects, Option.some.injEq, Prod.mk.injEq] at h
          simp [readObjects, ← h]
      | succ n => cases h
  | succ fuel ih =>
      cases n with
      | zero =>
          simp only [readObjects, Option.some.injEq, Prod.mk.injEq] at h
          simp [readObjects, ← h]
      | succ n =>
          obtain ⟨fuel', rfl⟩ : ∃ m, fuel' = m + 1 := ⟨fuel' - 1, by omega⟩
          have hle : fuel ≤ fuel' := by omega
          simp only [readObjects, Option.bind_eq_bind, Option.bind_eq_some_iff] at h
          obtain ⟨⟨t, bs₁⟩, ht, ⟨o, bs₂⟩, ho, ⟨os', bs₃⟩, hos, h⟩ := h
          cases h
          dsimp only at ho hos
          -- The elements of a container are read with one unit of fuel less, as in the hypothesis.
          have hobjects : ∀ n bs os rest, readObjects fuel n bs = some (os, rest) →
              readObjects fuel' n (bs ++ more) = some (os, rest ++ more) :=
            fun _ _ _ _ h => ih hle h
          simp [readObjects, readToken_append more ht, readRest_append hobjects ho, ih hle hos]

/-- More bytes do not change the object that is read. -/
theorem readObject_append {bs rest : Bytes} {o : Object} (more : Bytes)
    (h : readObject bs = some (o, rest)) : readObject (bs ++ more) = some (o, rest ++ more) := by
  simp only [readObject, Option.bind_eq_bind, Option.bind_eq_some_iff] at h
  obtain ⟨⟨os, bs'⟩, hos, h⟩ := h
  obtain ⟨hlen, -⟩ := size_le_of_readObjects hos
  obtain ⟨o', rfl⟩ := List.length_eq_one_iff.mp hlen
  cases h
  have hle : bs.length ≤ (bs ++ more).length := by simp
  have hread := readObjects_append more hle hos
  rw [readObject, hread]
  rfl

/-! ### Objects one after the other -/

/-- An object has at least one byte. -/
theorem Stream.ne_nil {o : Object} {bs : Bytes} (h : Stream [o] bs) : bs ≠ [] := by
  rintro rfl
  cases h.readObject []

/-- An object that has arrived in part is not read. -/
theorem readObject_of_prefix {o : Object} {bs more : Bytes} (h : Stream [o] (bs ++ more))
    (hmore : more ≠ []) : readObject bs = none := by
  cases hread : readObject bs with
  | none => rfl
  | some r =>
      obtain ⟨o', rest⟩ := r
      have hall := h.readObject []
      rw [List.append_nil, readObject_append more hread, Option.some.injEq, Prod.mk.injEq,
        List.append_eq_nil_iff] at hall
      exact absurd hall.2.2 hmore

/-- Encodings of objects and a rest that holds no whole one are read as these objects and this
rest. -/
theorem readAll_flatten {os : List Object} {bss : List Bytes} {rest : Bytes}
    (h : List.Forall₂ (fun o bs => Stream [o] bs) os bss) (hrest : readObject rest = none) :
    ∀ fuel, bss.flatten.length ≤ fuel → readAll fuel (bss.flatten ++ rest) = (os, rest) := by
  induction h with
  | nil =>
      intro fuel _
      cases fuel with
      | zero => rfl
      | succ fuel =>
          show readAll (fuel + 1) rest = ([], rest)
          -- Nothing whole is left.
          rw [readAll, hrest]
  | @cons o bs os bss ho _ ih =>
      intro fuel hfuel
      have hpos := List.length_pos_of_ne_nil ho.ne_nil
      rw [List.flatten_cons, List.length_append] at hfuel
      obtain ⟨fuel, rfl⟩ : ∃ m, fuel = m + 1 := ⟨fuel - 1, by omega⟩
      rw [List.flatten_cons, List.append_assoc, readAll, ho.readObject]
      dsimp only
      rw [ih fuel (by omega)]

/-- Objects that were written one after the other are read back, and what comes after them is
left over when no object has arrived there. -/
theorem readStream_flatten {os : List Object} {bss : List Bytes} {rest : Bytes}
    (h : List.Forall₂ (fun o bs => Stream [o] bs) os bss) (hrest : readObject rest = none) :
    readStream (bss.flatten ++ rest) = (os, rest) :=
  readAll_flatten h hrest _ (by simp)

end SmartFactory.MessagePack
