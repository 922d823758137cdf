import Mathlib.Data.List.Basic
import Mathlib.Tactic.Ring
import Mathlib.Tactic.Positivity

/-!
# `SmartFactory.Lib.MessagePack`: the MessagePack format

An object is written as a token and, when it is an array or a map, the objects in it. A token
is one byte that selects a `Format`, a number of fixed width and a body of as many bytes as the
format says. `format` is the table of the specification, `readToken` reads one token and
`readObjects` a number of objects.

There are several tokens for most objects. `IsToken` and `Stream` say which bytes a reader
takes for which tokens and objects, so a writer only shows that its bytes are a `Stream` and
`Stream.read` does the rest. `size` is the number of bytes of the shortest way to write an
object: `size_le_of_readObjects` is that a reader never gets an object out of fewer.
-/

set_option autoImplicit false

namespace SmartFactory.MessagePack

abbrev Bytes := List UInt8

/-- An object. The bits of a float stand for it. -/
inductive Object where
  | nil
  | bool (b : Bool)
  | int (i : Int)
  | float32 (bits : UInt32)
  | float64 (bits : UInt64)
  | str (s : Bytes)
  | bin (s : Bytes)
  | ext (type : Int8) (s : Bytes)
  | array (os : List Object)
  | map (es : List (Object × Object))

/-! ### Numbers -/

/-- The number, in so many bytes, the most significant one first. -/
def bigEndian : Nat → Nat → Bytes
  | 0, _ => []
  | w + 1, n => UInt8.ofNat (n / 256 ^ w) :: bigEndian w n

/-- The number that the bytes stand for. -/
def ofBigEndian : Bytes → Nat
  | [] => 0
  | b :: bs => 256 ^ bs.length * b.toNat + ofBigEndian bs

/-- The number that the bytes stand for in two's complement. -/
def signed (w n : Nat) : Int := (n : Int).bmod (256 ^ w)

/-- A number has the width that is asked for. -/
@[simp] theorem bigEndian_length (w n : Nat) : (bigEndian w n).length = w := by
  induction w with
  | zero => rfl
  | succ w ih => simp [bigEndian, ih]

/-- It comes back modulo its width. -/
@[simp] theorem ofBigEndian_bigEndian (w n : Nat) :
    ofBigEndian (bigEndian w n) = n % 256 ^ w := by
  induction w with
  | zero => simp [bigEndian, ofBigEndian, Nat.mod_one]
  | succ w ih =>
      rw [bigEndian, ofBigEndian, ih, bigEndian_length, UInt8.toNat_ofNat', Nat.add_comm]
      exact (Nat.mod_pow_succ (b := 256)).symm

/-- Bytes make a number below their width. -/
theorem ofBigEndian_lt (bs : Bytes) : ofBigEndian bs < 256 ^ bs.length := by
  induction bs with
  | nil => exact Nat.one_pos
  | cons b bs ih =>
      have hb : b.toNat + 1 ≤ 256 := b.toNat_lt
      calc 256 ^ bs.length * b.toNat + ofBigEndian bs
          < 256 ^ bs.length * b.toNat + 256 ^ bs.length := by omega
        _ = 256 ^ bs.length * (b.toNat + 1) := by ring
        _ ≤ 256 ^ bs.length * 256 := Nat.mul_le_mul_left _ hb
        _ = 256 ^ (b :: bs).length := by rw [List.length_cons, pow_succ]

/-- A number that fits is the one that its two's complement stands for. -/
theorem signed_emod (w : Nat) (i : Int) (hlo : -(256 ^ w : Nat) ≤ 2 * i)
    (hhi : 2 * i < (256 ^ w : Nat)) : signed w (i % (256 ^ w : Nat)).toNat = i := by
  have hpos : (0 : Int) < (256 ^ w : Nat) := by positivity
  rw [signed, Int.toNat_of_nonneg (Int.emod_nonneg _ hpos.ne'), Int.emod_bmod,
    Int.bmod_eq_of_le_mul_two] <;> omega

/-! ### Tokens -/

/-- An object that has no other objects in it, or the beginning of an array or a map and the
number of its elements or entries. -/
inductive Token where
  | atom (o : Object)
  | array (n : Nat)
  | map (n : Nat)

/-- What follows the first byte of a token: a number of `width` bytes and a body, whose length
depends on the number. The token depends on both. -/
structure Format where
  width : Nat
  body : Nat → Nat
  token : Nat → Bytes → Token

/-- Nothing follows. -/
def Format.single (t : Token) : Format := ⟨0, fun _ => 0, fun _ _ => t⟩

/-- A number follows. -/
def Format.number (w : Nat) (f : Nat → Token) : Format := ⟨w, fun _ => 0, fun n _ => f n⟩

/-- A body of the given length follows. -/
def Format.fixed (n : Nat) (f : Bytes → Object) : Format :=
  ⟨0, fun _ => n, fun _ s => .atom (f s)⟩

/-- The length of a body follows, and the body. -/
def Format.sized (w : Nat) (f : Bytes → Object) : Format :=
  ⟨w, fun n => n, fun _ s => .atom (f s)⟩

/-- The first byte of an extension is its type. -/
def extOfBody : Bytes → Object
  | [] => .ext 0 []
  | t :: s => .ext t.toInt8 s

/-- The formats whose first byte holds nothing else. -/
def fullFormat : Nat → Option Format
  | 0xc0 => some (.single (.atom .nil))
  -- 0xc1 is never used.
  | 0xc2 => some (.single (.atom (.bool false)))
  | 0xc3 => some (.single (.atom (.bool true)))
  | 0xc4 => some (.sized 1 .bin)
  | 0xc5 => some (.sized 2 .bin)
  | 0xc6 => some (.sized 4 .bin)
  | 0xc7 => some ⟨1, fun n => n + 1, fun _ s => .atom (extOfBody s)⟩
  | 0xc8 => some ⟨2, fun n => n + 1, fun _ s => .atom (extOfBody s)⟩
  | 0xc9 => some ⟨4, fun n => n + 1, fun _ s => .atom (extOfBody s)⟩
  | 0xca => some (.number 4 fun n => .atom (.float32 (UInt32.ofNat n)))
  | 0xcb => some (.number 8 fun n => .atom (.float64 (UInt64.ofNat n)))
  | 0xcc => some (.number 1 fun n => .atom (.int n))
  | 0xcd => some (.number 2 fun n => .atom (.int n))
  | 0xce => some (.number 4 fun n => .atom (.int n))
  | 0xcf => some (.number 8 fun n => .atom (.int n))
  | 0xd0 => some (.number 1 fun n => .atom (.int (signed 1 n)))
  | 0xd1 => some (.number 2 fun n => .atom (.int (signed 2 n)))
  | 0xd2 => some (.number 4 fun n => .atom (.int (signed 4 n)))
  | 0xd3 => some (.number 8 fun n => .atom (.int (signed 8 n)))
  | 0xd4 => some (.fixed 2 extOfBody)
  | 0xd5 => some (.fixed 3 extOfBody)
  | 0xd6 => some (.fixed 5 extOfBody)
  | 0xd7 => some (.fixed 9 extOfBody)
  | 0xd8 => some (.fixed 17 extOfBody)
  | 0xd9 => some (.sized 1 .str)
  | 0xda => some (.sized 2 .str)
  | 0xdb => some (.sized 4 .str)
  | 0xdc => some (.number 2 .array)
  | 0xdd => some (.number 4 .array)
  | 0xde => some (.number 2 .map)
  | 0xdf => some (.number 4 .map)
  | _ => none

/-- The table of formats, by first byte. -/
def format (b : Nat) : Option Format :=
  if b < 0x80 then some (.single (.atom (.int b)))
  else if b < 0x90 then some (.single (.map (b - 0x80)))
  else if b < 0xa0 then some (.single (.array (b - 0x90)))
  else if b < 0xc0 then some (.fixed (b - 0xa0) .str)
  else if 0xe0 ≤ b then some (.single (.atom (.int (b - 256))))
  else fullFormat b

/-- The format of a small number that is not negative. -/
theorem format_posFixint {n : Nat} (h : n < 0x80) :
    format n = some (.single (.atom (.int n))) := if_pos h

/-- The format of a short map. -/
theorem format_fixmap {n : Nat} (h : n < 0x10) : format (0x80 + n) = some (.single (.map n)) := by
  rw [format, if_neg (by omega), if_pos (by omega), Nat.add_sub_cancel_left]

/-- The format of a short array. -/
theorem format_fixarray {n : Nat} (h : n < 0x10) :
    format (0x90 + n) = some (.single (.array n)) := by
  rw [format, if_neg (by omega), if_neg (by omega), if_pos (by omega), Nat.add_sub_cancel_left]

/-- The format of a short string. -/
theorem format_fixstr {n : Nat} (h : n < 0x20) : format (0xa0 + n) = some (.fixed n .str) := by
  rw [format, if_neg (by omega), if_neg (by omega), if_neg (by omega), if_pos (by omega),
    Nat.add_sub_cancel_left]

/-- The format of a small negative number. -/
theorem format_negFixint {b : Nat} (h : 0xe0 ≤ b) :
    format b = some (.single (.atom (.int (b - 256)))) := by
  rw [format, if_neg (by omega), if_neg (by omega), if_neg (by omega), if_neg (by omega), if_pos h]

/-- Take so many bytes. -/
def readBytes (n : Nat) (bs : Bytes) : Option (Bytes × Bytes) :=
  if n ≤ bs.length then some (bs.take n, bs.drop n) else none

/-- Read what follows the first byte of a token. -/
def Format.read (f : Format) (bs : Bytes) : Option (Token × Bytes) := do
  let (d, bs) ← readBytes f.width bs
  let (s, bs) ← readBytes (f.body (ofBigEndian d)) bs
  return (f.token (ofBigEndian d) s, bs)

/-- Read one token. -/
def readToken : Bytes → Option (Token × Bytes)
  | [] => none
  | b :: bs => do
      let f ← format b.toNat
      f.read bs

/-- The bytes of a map are those of its keys and values in turn. -/
def entries : List Object → List (Object × Object)
  | k :: v :: os => (k, v) :: entries os
  | _ => []

/-- Read the object that begins with a token; `objects` reads those that are in it. -/
def readRest (objects : Nat → Bytes → Option (List Object × Bytes)) :
    Token → Bytes → Option (Object × Bytes)
  | .atom o, bs => some (o, bs)
  | .array k, bs => (objects k bs).map fun r => (.array r.1, r.2)
  | .map k, bs => (objects (2 * k) bs).map fun r => (.map (entries r.1), r.2)

/-- Read so many objects. Each takes one byte at least, so the number of bytes is fuel enough
for what is in them. -/
def readObjects : Nat → Nat → Bytes → Option (List Object × Bytes)
  | _, 0, bs => some ([], bs)
  | 0, _ + 1, _ => none
  | fuel + 1, n + 1, bs => do
      let (t, bs) ← readToken bs
      let (o, bs) ← readRest (readObjects fuel) t bs
      let (os, bs) ← readObjects fuel n bs
      return (o :: os, bs)

/-- Read one object from a stream. -/
def readObject (bs : Bytes) : Option (Object × Bytes) := do
  let (os, bs) ← readObjects bs.length 1 bs
  match os with
  | [o] => return (o, bs)
  | _ => none

/-! ### Writing tokens -/

/-- The bytes in front are read, and what follows is left. -/
theorem readBytes_append (s bs : Bytes) : readBytes s.length (s ++ bs) = some (s, bs) := by
  simp [readBytes]

/-- What is read stood in front of what is left. -/
theorem readBytes_some {n : Nat} {bs s rest : Bytes} (h : readBytes n bs = some (s, rest)) :
    s.length = n ∧ bs = s ++ rest := by
  unfold readBytes at h
  split at h
  · cases h
    exact ⟨by simpa using ‹n ≤ bs.length›, (List.take_append_drop n bs).symm⟩
  · cases h

/-- Whatever comes after them, the bytes are read as this token. -/
def IsToken (t : Token) (hd : Bytes) : Prop :=
  ∀ rest, readToken (hd ++ rest) = some (t, rest)

/-- A token is written as its first byte, its number and its body. -/
theorem isToken_format {b : UInt8} {f : Format} (hf : format b.toNat = some f) {n : Nat}
    (hn : n < 256 ^ f.width) {s : Bytes} (hs : s.length = f.body n) :
    IsToken (f.token n s) (b :: (bigEndian f.width n ++ s)) := by
  intro rest
  have hnum : readBytes f.width (bigEndian f.width n ++ (s ++ rest)) =
      some (bigEndian f.width n, s ++ rest) := by
    simpa using readBytes_append (bigEndian f.width n) (s ++ rest)
  have hval : ofBigEndian (bigEndian f.width n) = n := by
    rw [ofBigEndian_bigEndian, Nat.mod_eq_of_lt hn]
  have hbody : readBytes (f.body n) (s ++ rest) = some (s, rest) := by
    rw [← hs]
    exact readBytes_append s rest
  simp [readToken, hf, Format.read, hnum, hval, hbody]

/-- No token is empty. -/
theorem IsToken.length_pos {t : Token} {hd : Bytes} (h : IsToken t hd) : 0 < hd.length := by
  cases hd with
  | nil => cases h []
  | cons b hd => exact Nat.succ_pos _

/-! ### Streams -/

/-- The keys and values of a map in turn. -/
def flat (es : List (Object × Object)) : List Object := es.flatMap fun e => [e.1, e.2]

/-- An entry takes two places. -/
@[simp] theorem flat_length (es : List (Object × Object)) : (flat es).length = 2 * es.length := by
  induction es with
  | nil => rfl
  | cons e es ih =>
      simp only [flat, List.flatMap_cons, List.length_append, List.length_cons, List.length_nil]
        at ih ⊢
      omega

/-- Entries come back from the list of their keys and values. -/
@[simp] theorem entries_flat (es : List (Object × Object)) : entries (flat es) = es := by
  induction es with
  | nil => rfl
  | cons e es ih => simpa [flat, entries] using ih

/-- The bytes are the objects, one after the other. -/
inductive Stream : List Object → Bytes → Prop where
  | nil : Stream [] []
  | atom {o : Object} {hd : Bytes} {os : List Object} {bs : Bytes} :
      IsToken (.atom o) hd → Stream os bs → Stream (o :: os) (hd ++ bs)
  | array {xs os : List Object} {hd body bs : Bytes} :
      IsToken (.array xs.length) hd → Stream xs body → Stream os bs →
        Stream (.array xs :: os) (hd ++ (body ++ bs))
  | map {es : List (Object × Object)} {os : List Object} {hd body bs : Bytes} :
      IsToken (.map es.length) hd → Stream (flat es) body → Stream os bs →
        Stream (.map es :: os) (hd ++ (body ++ bs))

/-- Streams may be put one after the other. -/
theorem Stream.append {xs ys : List Object} {as bs : Bytes} (hx : Stream xs as)
    (hy : Stream ys bs) : Stream (xs ++ ys) (as ++ bs) := by
  induction hx with
  | nil => exact hy
  | atom ht _ ih => simpa using Stream.atom ht ih
  | array ht hbody _ _ ih => simpa using Stream.array ht hbody ih
  | map ht hbody _ _ ih => simpa using Stream.map ht hbody ih

/-- What is written as a stream is read back, whatever comes after it. -/
theorem Stream.read {os : List Object} {bs : Bytes} (h : Stream os bs) :
    ∀ (rest : Bytes) (fuel : Nat), bs.length ≤ fuel →
      readObjects fuel os.length (bs ++ rest) = some (os, rest) := by
  induction h with
  | nil => intro rest fuel _; simp [readObjects]
  | atom ht _ ih =>
      intro rest fuel hfuel
      have hpos := ht.length_pos
      rw [List.length_append] at hfuel
      cases fuel with
      | zero => omega
      | succ fuel => simp [readObjects, readRest, ht _, ih rest fuel (by omega)]
  | array ht hbody _ ihBody ih =>
      intro rest fuel hfuel
      have hpos := ht.length_pos
      rw [List.length_append, List.length_append] at hfuel
      cases fuel with
      | zero => omega
      | succ fuel =>
          simp [readObjects, readRest, ht _, ihBody _ fuel (by omega), ih rest fuel (by omega)]
  | map ht hbody _ ihBody ih =>
      intro rest fuel hfuel
      have hpos := ht.length_pos
      rw [List.length_append, List.length_append] at hfuel
      cases fuel with
      | zero => omega
      | succ fuel =>
          -- A map of `n` entries is read as `2 * n` objects.
          have hread := fun rest => ihBody rest fuel (by omega)
          rw [flat_length] at hread
          simp [readObjects, readRest, ht _, hread, ih rest fuel (by omega)]

/-- An object that is written as a stream is read back. -/
theorem Stream.readObject {o : Object} {bs : Bytes} (h : Stream [o] bs) (rest : Bytes) :
    readObject (bs ++ rest) = some (o, rest) := by
  have hread := h.read rest (bs ++ rest).length (by simp)
  simp only [List.length_cons, List.length_nil, Nat.zero_add] at hread
  simp only [MessagePack.readObject, hread]
  rfl

/-! ### Sizes -/

/-- The size of the shortest integer. -/
def intSize (i : Int) : Nat :=
  if -0x20 ≤ i ∧ i < 0x80 then 1
  else if -0x80 ≤ i ∧ i < 0x100 then 2
  else if -0x8000 ≤ i ∧ i < 0x10000 then 3
  else if -0x80000000 ≤ i ∧ i < 0x100000000 then 5
  else 9

/-- The size of the shortest beginning of a string. -/
def strHeaderSize (n : Nat) : Nat :=
  if n < 0x20 then 1 else if n < 0x100 then 2 else if n < 0x10000 then 3 else 5

/-- The size of the shortest beginning of a byte array. -/
def binHeaderSize (n : Nat) : Nat :=
  if n < 0x100 then 2 else if n < 0x10000 then 3 else 5

/-- The size of the shortest beginning of an extension. -/
def extHeaderSize (n : Nat) : Nat :=
  if n = 1 ∨ n = 2 ∨ n = 4 ∨ n = 8 ∨ n = 16 then 2
  else if n < 0x100 then 3 else if n < 0x10000 then 4 else 6

/-- The size of the shortest beginning of an array or a map. -/
def arrayHeaderSize (n : Nat) : Nat :=
  if n < 0x10 then 1 else if n < 0x10000 then 3 else 5

mutual

/-- The size of the shortest way to write an object. -/
def Object.size : Object → Nat
  | .nil => 1
  | .bool _ => 1
  | .int i => intSize i
  | .float32 _ => 5
  | .float64 _ => 9
  | .str s => strHeaderSize s.length + s.length
  | .bin s => binHeaderSize s.length + s.length
  | .ext _ s => extHeaderSize s.length + s.length
  | .array os => arrayHeaderSize os.length + sizeAll os
  | .map es => arrayHeaderSize es.length + sizeEntries es

/-- The size of the elements of an array. -/
def sizeAll : List Object → Nat
  | [] => 0
  | o :: os => o.size + sizeAll os

/-- The size of the entries of a map. -/
def sizeEntries : List (Object × Object) → Nat
  | [] => 0
  | (k, v) :: es => k.size + v.size + sizeEntries es

end

/-- The size of the shortest way to write a token. -/
def Token.size : Token → Nat
  | .atom o => o.size
  | .array n => arrayHeaderSize n
  | .map n => arrayHeaderSize n

/-- The size of a list of objects, as a sum. -/
theorem sizeAll_eq_sum (os : List Object) : sizeAll os = (os.map Object.size).sum := by
  induction os with
  | nil => rfl
  | cons o os ih => simp [sizeAll, ih]

/-- The size of entries, as a sum. -/
theorem sizeEntries_eq_sum (es : List (Object × Object)) :
    sizeEntries es = (es.map fun e => e.1.size + e.2.size).sum := by
  induction es with
  | nil => rfl
  | cons e es ih => simp [sizeEntries, ih]

/-- Two's complement in so many bytes. -/
theorem signed_bounds (w n : Nat) :
    -(256 ^ w : Nat) ≤ 2 * signed w n ∧ 2 * signed w n ≤ (256 ^ w : Nat) := by
  have hpos : 0 < 256 ^ w := by positivity
  have hlo := Int.le_bmod (x := (n : Int)) hpos
  have hhi := Int.bmod_lt (x := (n : Int)) hpos
  rw [signed]
  omega

/-- The size of an extension, from its body. -/
theorem size_extOfBody {s : Bytes} {n : Nat} (hs : s.length = n + 1) :
    (extOfBody s).size = extHeaderSize n + n := by
  cases s with
  | nil => cases hs
  | cons t s => simp only [extOfBody, Object.size, Nat.succ.inj hs]

/-- The tokens of a format are no shorter than their shortest ones. -/
def Format.Bounded (f : Format) : Prop :=
  ∀ n < 256 ^ f.width, ∀ s : Bytes, s.length = f.body n →
    (f.token n s).size ≤ 1 + f.width + s.length

/-- A format of one byte is bounded by its token. -/
theorem bounded_single {t : Token} (ht : t.size ≤ 1) : (Format.single t).Bounded :=
  fun _ _ _ _ => Nat.le_trans ht (by omega)

/-- A format with a number is bounded when its tokens are. -/
theorem bounded_number {w : Nat} {t : Nat → Token}
    (ht : ∀ n < 256 ^ w, (t n).size ≤ 1 + w) : (Format.number w t).Bounded :=
  fun n hn _ _ => Nat.le_trans (ht n hn) (Nat.le_add_right _ _)

/-- An integer in a number of `w` bytes. -/
theorem bounded_int {w : Nat} {i : Nat → Int} (hi : ∀ n < 256 ^ w, intSize (i n) ≤ 1 + w) :
    (Format.number w fun n => .atom (.int (i n))).Bounded :=
  bounded_number (by simpa only [Token.size, Object.size] using hi)

/-- An integer in two's complement. -/
theorem bounded_signed {w : Nat}
    (hi : ∀ i : Int, -(256 ^ w : Nat) ≤ 2 * i → 2 * i ≤ (256 ^ w : Nat) → intSize i ≤ 1 + w) :
    (Format.number w fun n => .atom (.int (signed w n))).Bounded :=
  bounded_int fun n _ => hi _ (signed_bounds w n).1 (signed_bounds w n).2

/-- A string, whose length has a number of `w` bytes. -/
theorem bounded_str {w : Nat} (hw : ∀ n < 256 ^ w, strHeaderSize n ≤ 1 + w) :
    (Format.sized w .str).Bounded := by
  intro n hn s hs
  have := hw n hn
  simp only [Format.sized] at hs
  simp only [Format.sized, Token.size, Object.size, hs]
  omega

/-- A byte array, whose length has a number of `w` bytes. -/
theorem bounded_bin {w : Nat} (hw : ∀ n < 256 ^ w, binHeaderSize n ≤ 1 + w) :
    (Format.sized w .bin).Bounded := by
  intro n hn s hs
  have := hw n hn
  simp only [Format.sized] at hs
  simp only [Format.sized, Token.size, Object.size, hs]
  omega

/-- An extension, whose length has a number of `w` bytes. -/
theorem bounded_ext {w : Nat} (hw : ∀ n < 256 ^ w, extHeaderSize n ≤ 2 + w) :
    (⟨w, fun n => n + 1, fun _ s => .atom (extOfBody s)⟩ : Format).Bounded := by
  intro n hn s hs
  have := hw n hn
  simp only [Token.size, size_extOfBody hs, hs]
  omega

/-- An extension of fixed length. -/
theorem bounded_fixext {n : Nat} (hn : extHeaderSize n = 2) :
    (Format.fixed (n + 1) extOfBody).Bounded := by
  intro _ _ s hs
  simp only [Format.fixed] at hs
  simp only [Format.fixed, Token.size, size_extOfBody hs, hn, hs]
  omega

/-- No format is shorter than the shortest one. -/
theorem format_bounded {b : Nat} {f : Format} (hb : b < 256) (hf : format b = some f) :
    f.Bounded := by
  unfold format at hf
  split_ifs at hf with h1 h2 h3 h4 h5
  · cases hf
    exact bounded_single (by simp only [Token.size, Object.size, intSize]; split_ifs <;> omega)
  · cases hf
    exact bounded_single (by simp only [Token.size, arrayHeaderSize]; split_ifs <;> omega)
  · cases hf
    exact bounded_single (by simp only [Token.size, arrayHeaderSize]; split_ifs <;> omega)
  · cases hf
    intro n _ s hs
    simp only [Format.fixed] at hs
    simp only [Format.fixed, Token.size, Object.size, strHeaderSize]
    split_ifs <;> omega
  · cases hf
    exact bounded_single (by simp only [Token.size, Object.size, intSize]; split_ifs <;> omega)
  unfold fullFormat at hf
  split at hf <;> cases hf
  -- In the order of the table: nil and the Booleans, byte arrays, extensions, floats,
  iterate 3 next => exact bounded_single (by simp only [Token.size, Object.size, Nat.le_refl])
  iterate 3
    next => exact bounded_bin (by intro n hn; simp only [binHeaderSize]; split_ifs <;> omega)
  iterate 3
    next => exact bounded_ext (by intro n hn; simp only [extHeaderSize]; split_ifs <;> omega)
  iterate 2 next => exact bounded_number (by intro n _; simp only [Token.size, Object.size]; omega)
  -- unsigned and signed integers,
  iterate 4
    next => exact bounded_int (by intro n hn; simp only [intSize]; split_ifs <;> omega)
  iterate 4
    next => exact bounded_signed (by intro i hlo hhi; simp only [intSize]; split_ifs <;> omega)
  -- extensions of fixed length, strings, arrays and maps.
  iterate 5 next => exact bounded_fixext (by simp [extHeaderSize])
  iterate 3
    next => exact bounded_str (by intro n hn; simp only [strHeaderSize]; split_ifs <;> omega)
  iterate 4
    next => exact bounded_number (by
      intro n hn; simp only [Token.size, arrayHeaderSize]; split_ifs <;> omega)

/-- A reader takes no token from fewer bytes than the shortest one has. -/
theorem size_le_of_readToken {bs rest : Bytes} {t : Token} (h : readToken bs = some (t, rest)) :
    t.size + rest.length ≤ bs.length := by
  cases bs with
  | nil => cases h
  | cons b bs =>
      simp only [readToken, Format.read, Option.bind_eq_bind, Option.bind_eq_some_iff] at h
      obtain ⟨f, hf, ⟨d, bs'⟩, hd, ⟨s, bs''⟩, hs, h⟩ := h
      cases h
      obtain ⟨hdlen, rfl⟩ := readBytes_some hd
      obtain ⟨hslen, rfl⟩ := readBytes_some hs
      have hn : ofBigEndian d < 256 ^ f.width := hdlen ▸ ofBigEndian_lt d
      have hle := format_bounded b.toNat_lt hf _ hn s hslen
      simp only [List.length_cons, List.length_append]
      omega

/-- An even number of objects makes half as many entries. -/
theorem entries_length : ∀ (os : List Object) (k : Nat), os.length = 2 * k →
    (entries os).length = k
  | [], k, h => by simp only [List.length_nil] at h; simp only [entries, List.length_nil]; omega
  | [_], k, h => by simp only [List.length_cons, List.length_nil] at h; omega
  | _ :: _ :: os, k, h => by
    simp only [List.length_cons] at h
    have ih := entries_length os (k - 1) (by omega)
    simp only [entries, List.length_cons, ih]
    omega

/-- Entries are not larger than the objects they are made of. -/
theorem sizeEntries_entries_le : ∀ os : List Object, sizeEntries (entries os) ≤ sizeAll os
  | [] => Nat.le_refl 0
  | [o] => Nat.zero_le _
  | k :: v :: os => by
    have ih := sizeEntries_entries_le os
    simp only [entries, sizeEntries, sizeAll]
    omega

/-- A reader takes no objects from fewer bytes than the shortest ones have. -/
theorem size_le_of_readObjects {fuel n : Nat} {bs rest : Bytes} {os : List Object}
    (h : readObjects fuel n bs = some (os, rest)) :
    os.length = n ∧ sizeAll os + rest.length ≤ bs.length := by
  induction fuel generalizing n bs rest os with
  | zero =>
      cases n with
      | zero => simp only [readObjects, Option.some.injEq, Prod.mk.injEq] at h; simp [← h, sizeAll]
      | succ n => cases h
  | succ fuel ih =>
      cases n with
      | zero => simp only [readObjects, Option.some.injEq, Prod.mk.injEq] at h; simp [← h, sizeAll]
      | succ n =>
          simp only [readObjects, Option.bind_eq_bind, Option.bind_eq_some_iff] at h
          obtain ⟨⟨t, bs₁⟩, ht, ⟨o, bs₂⟩, ho, ⟨os', bs₃⟩, hos, h⟩ := h
          cases h
          have hsize := size_le_of_readToken ht
          obtain ⟨rfl, htail⟩ := ih hos
          dsimp only at ho htail
          -- The object is no smaller than what its token and its elements take.
          have hobj : o.size + bs₂.length ≤ t.size + bs₁.length := by
            cases t with
            | atom o' => cases ho; exact Nat.le_refl _
            | array k =>
                obtain ⟨⟨xs, bs'⟩, hxs, ho⟩ := Option.map_eq_some_iff.mp ho
                cases ho
                obtain ⟨rfl, hle⟩ := ih hxs
                simp only [Token.size, Object.size] at hle ⊢
                omega
            | map k =>
                obtain ⟨⟨xs, bs'⟩, hxs, ho⟩ := Option.map_eq_some_iff.mp ho
                cases ho
                obtain ⟨hlen, hle⟩ := ih hxs
                have hentries := sizeEntries_entries_le xs
                simp only [Token.size, Object.size, entries_length xs k hlen] at hle ⊢
                omega
          simp only [List.length_cons, sizeAll, true_and]
          omega

/-- A reader takes no object from fewer bytes than the shortest one has. -/
theorem size_le_of_readObject {bs rest : Bytes} {o : Object}
    (h : readObject bs = some (o, rest)) : o.size + rest.length ≤ bs.length := by
  simp only [readObject, Option.bind_eq_bind, Option.bind_eq_some_iff] at h
  obtain ⟨⟨os, bs'⟩, hos, h⟩ := h
  obtain ⟨hlen, hle⟩ := size_le_of_readObjects hos
  obtain ⟨o', rfl⟩ := List.length_eq_one_iff.mp hlen
  cases h
  simpa [sizeAll] using hle

end SmartFactory.MessagePack
