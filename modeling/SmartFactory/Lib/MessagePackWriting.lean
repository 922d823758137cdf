import SmartFactory.Lib.MessagePack
import Mathlib.Data.List.Perm.Basic

/-!
# `SmartFactory.Lib.MessagePackWriting`: ways to write MessagePack

The entries of a map have no order. `Swap` puts those of one map of an object into another
order, and an `Unordered` object is an object up to such steps. `Encodes` says that bytes
stand for an object in this sense. It has one rule for each kind of object, and
`readUnordered_of_encodes` turns what they give into a statement about the reader.

The second half are the tokens that writers use: the shortest ones, and integers of fixed
width.
-/

set_option autoImplicit false

namespace SmartFactory.MessagePack

/-! ### Objects without an order of entries -/

/-- One map, here or further inside, has its entries in another order. -/
inductive Swap : Object → Object → Prop where
  | entries {es es' : List (Object × Object)} : es.Perm es' → Swap (.map es) (.map es')
  | element {l r : List Object} {o o' : Object} :
      Swap o o' → Swap (.array (l ++ o :: r)) (.array (l ++ o' :: r))
  | key {l r : List (Object × Object)} {k k' o : Object} :
      Swap k k' → Swap (.map (l ++ (k, o) :: r)) (.map (l ++ (k', o) :: r))
  | value {l r : List (Object × Object)} {k o o' : Object} :
      Swap o o' → Swap (.map (l ++ (k, o) :: r)) (.map (l ++ (k, o') :: r))

/-- An object whose maps have no order. -/
abbrev Unordered := Quot Swap

/-- Forget the order of the entries. -/
abbrev Object.unordered (o : Object) : Unordered := Quot.mk Swap o

/-- Another order of the entries leaves the size. -/
theorem Swap.size_eq {o o' : Object} (h : Swap o o') : o.size = o'.size := by
  induction h with
  | entries hp =>
      simp only [Object.size, hp.length_eq, sizeEntries_eq_sum, (hp.map _).sum_nat]
  | element _ ih => simp [Object.size, sizeAll_eq_sum, ih]
  | key _ ih => simp [Object.size, sizeEntries_eq_sum, ih]
  | value _ ih => simp [Object.size, sizeEntries_eq_sum, ih]

/-- The order does not matter for the size. -/
theorem size_eq_of_unordered {o o' : Object} (h : o.unordered = o'.unordered) :
    o.size = o'.size :=
  congrArg (Quot.lift Object.size fun _ _ => Swap.size_eq) h

section Congr

variable {o o' k k' : Object}

/-- An element of an array can be replaced by one that is the same up to the order of maps. -/
theorem unordered_element (l r : List Object) (h : o.unordered = o'.unordered) :
    (Object.array (l ++ o :: r)).unordered = (Object.array (l ++ o' :: r)).unordered :=
  congrArg (Quot.lift (fun x => (Object.array (l ++ x :: r)).unordered)
    fun _ _ hs => Quot.sound (.element hs)) h

/-- So can a key of a map. -/
theorem unordered_key (l r : List (Object × Object)) (h : k.unordered = k'.unordered) :
    (Object.map (l ++ (k, o) :: r)).unordered = (Object.map (l ++ (k', o) :: r)).unordered :=
  congrArg (Quot.lift (fun x => (Object.map (l ++ (x, o) :: r)).unordered)
    fun _ _ hs => Quot.sound (.key hs)) h

/-- And a value of one. -/
theorem unordered_value (l r : List (Object × Object)) (h : o.unordered = o'.unordered) :
    (Object.map (l ++ (k, o) :: r)).unordered = (Object.map (l ++ (k, o') :: r)).unordered :=
  congrArg (Quot.lift (fun x => (Object.map (l ++ (k, x) :: r)).unordered)
    fun _ _ hs => Quot.sound (.value hs)) h

/-- Arrays agree when their elements do. -/
theorem unordered_array {os os' : List Object}
    (h : List.Forall₂ (fun o o' => o.unordered = o'.unordered) os os') (l : List Object) :
    (Object.array (l ++ os)).unordered = (Object.array (l ++ os')).unordered := by
  induction h generalizing l with
  | nil => rfl
  | @cons o o' os os' ho _ ih =>
      calc (Object.array (l ++ o :: os)).unordered
          = (Object.array (l ++ o' :: os)).unordered := unordered_element l os ho
        _ = (Object.array ((l ++ [o']) ++ os)).unordered := by rw [List.append_cons]
        _ = (Object.array ((l ++ [o']) ++ os')).unordered := ih (l ++ [o'])
        _ = (Object.array (l ++ o' :: os')).unordered := by rw [← List.append_cons]

/-- Maps agree when their entries do. -/
theorem unordered_map {es es' : List (Object × Object)}
    (h : List.Forall₂ (fun e e' => e.1.unordered = e'.1.unordered ∧
      e.2.unordered = e'.2.unordered) es es') (l : List (Object × Object)) :
    (Object.map (l ++ es)).unordered = (Object.map (l ++ es')).unordered := by
  induction h generalizing l with
  | nil => rfl
  | @cons e e' es es' he _ ih =>
      calc (Object.map (l ++ (e.1, e.2) :: es)).unordered
          = (Object.map (l ++ (e'.1, e.2) :: es)).unordered := unordered_key l es he.1
        _ = (Object.map (l ++ (e'.1, e'.2) :: es)).unordered := unordered_value l es he.2
        _ = (Object.map ((l ++ [e']) ++ es)).unordered := by rw [List.append_cons]
        _ = (Object.map ((l ++ [e']) ++ es')).unordered := ih (l ++ [e'])
        _ = (Object.map (l ++ e' :: es')).unordered := by rw [← List.append_cons]

end Congr

/-! ### What bytes stand for -/

/-- Read the one object that the bytes are. -/
def readUnordered (bs : Bytes) : Option Unordered :=
  match readObject bs with
  | some (o, []) => some o.unordered
  | _ => none

/-- The bytes stand for this object, with the entries of its maps in some order. -/
def Encodes (o : Object) (bs : Bytes) : Prop :=
  ∃ o' : Object, Stream [o'] bs ∧ o'.unordered = o.unordered

/-- Bytes that encode an object are read as it is, up to the order of its maps. -/
theorem readUnordered_of_encodes {o : Object} {bs : Bytes} (h : Encodes o bs) :
    readUnordered bs = some o.unordered := by
  obtain ⟨o', hs, ho⟩ := h
  have hread := hs.readObject []
  rw [List.append_nil] at hread
  simp only [readUnordered, hread, ho]

/-- Bytes that are read as an object are no fewer than the shortest ones. -/
theorem size_le_of_readUnordered {o : Object} {bs : Bytes}
    (h : readUnordered bs = some o.unordered) : o.size ≤ bs.length := by
  unfold readUnordered at h
  split at h
  · rename_i o' hread
    have hsize := size_le_of_readObject hread
    rw [← size_eq_of_unordered (Option.some.inj h)]
    exact hsize
  · cases h

/-- The token of an atom encodes it. -/
theorem encodes_atom {o : Object} {bs : Bytes} (h : IsToken (.atom o) bs) :
    Encodes o bs :=
  ⟨o, by simpa using Stream.atom h .nil, rfl⟩

/-- Objects that stand one after the other. -/
theorem exists_stream {os : List Object} {bss : List Bytes}
    (h : List.Forall₂ Encodes os bss) :
    ∃ os', Stream os' bss.flatten ∧
      List.Forall₂ (fun o o' => o.unordered = o'.unordered) os' os := by
  induction h with
  | nil => exact ⟨[], .nil, .nil⟩
  | cons ho _ ih =>
      obtain ⟨o', hs, heq⟩ := ho
      obtain ⟨os', hss, heqs⟩ := ih
      exact ⟨o' :: os', by simpa using hs.append hss, .cons heq heqs⟩

/-- A header and the encodings of the elements encode an array. -/
theorem encodes_array {os : List Object} {hd : Bytes} {bss : List Bytes}
    (hhd : IsToken (.array os.length) hd) (h : List.Forall₂ Encodes os bss) :
    Encodes (.array os) (hd ++ bss.flatten) := by
  obtain ⟨os', hs, heq⟩ := exists_stream h
  rw [← heq.length_eq] at hhd
  exact ⟨.array os', by simpa using Stream.array hhd hs .nil, unordered_array heq []⟩

/-- The key and the value of an entry. -/
def EncodesEntry (e : Object × Object) (b : Bytes × Bytes) : Prop :=
  Encodes e.1 b.1 ∧ Encodes e.2 b.2

/-- Encodings of entries, one after the other, are read as entries that differ in the order of maps
only. -/
theorem exists_stream_entries {es : List (Object × Object)} {bss : List (Bytes × Bytes)}
    (h : List.Forall₂ EncodesEntry es bss) :
    ∃ es', Stream (flat es') (bss.flatMap fun b => b.1 ++ b.2) ∧
      List.Forall₂ (fun e e' => e.1.unordered = e'.1.unordered ∧
        e.2.unordered = e'.2.unordered) es' es := by
  induction h with
  | nil => exact ⟨[], .nil, .nil⟩
  | cons he _ ih =>
      obtain ⟨⟨k', hk, hkeq⟩, v', hv, hveq⟩ := he
      obtain ⟨es', hss, heqs⟩ := ih
      exact ⟨(k', v') :: es', by simpa [flat] using hk.append (hv.append hss),
        .cons ⟨hkeq, hveq⟩ heqs⟩

/-- The entries of a map may be written in any order. -/
theorem encodes_map {es : List (Object × Object)} {hd : Bytes} {bss bss' : List (Bytes × Bytes)}
    (hhd : IsToken (.map es.length) hd) (h : List.Forall₂ EncodesEntry es bss)
    (hp : bss'.Perm bss) : Encodes (.map es) (hd ++ bss'.flatMap fun b => b.1 ++ b.2) := by
  obtain ⟨es₁, hes₁, hp₁⟩ := List.perm_comp_forall₂ hp h.flip
  obtain ⟨es₂, hs, heq⟩ := exists_stream_entries hes₁.flip
  rw [← hp₁.length_eq, ← heq.length_eq] at hhd
  exact ⟨.map es₂, by simpa using Stream.map hhd hs .nil,
    (unordered_map heq []).trans (Quot.sound (.entries hp₁))⟩

/-! ### The tokens of writers -/

/-- An integer in two's complement. -/
def twosComplement (w : Nat) (i : Int) : Bytes := bigEndian w (i % (256 ^ w : Nat)).toNat

/-- The shortest token of a natural number. -/
def shortNat (n : Nat) : Bytes :=
  if n < 0x80 then [UInt8.ofNat n]
  else if n < 0x100 then 0xcc :: bigEndian 1 n
  else if n < 0x10000 then 0xcd :: bigEndian 2 n
  else if n < 0x100000000 then 0xce :: bigEndian 4 n
  else 0xcf :: bigEndian 8 n

/-- The shortest token of an integer. -/
def shortInt (i : Int) : Bytes :=
  if 0 ≤ i then shortNat i.toNat
  else if -0x20 ≤ i then [UInt8.ofNat (i + 0x100).toNat]
  else if -0x80 ≤ i then 0xd0 :: twosComplement 1 i
  else if -0x8000 ≤ i then 0xd1 :: twosComplement 2 i
  else if -0x80000000 ≤ i then 0xd2 :: twosComplement 4 i
  else 0xd3 :: twosComplement 8 i

/-- The beginning of a string. A length of more than four bytes is cut. -/
def strHeader (n : Nat) : Bytes :=
  if n < 0x20 then [UInt8.ofNat (0xa0 + n)]
  else if n < 0x100 then 0xd9 :: bigEndian 1 n
  else if n < 0x10000 then 0xda :: bigEndian 2 n
  else 0xdb :: bigEndian 4 n

/-- The beginning of an array. -/
def arrayHeader (n : Nat) : Bytes :=
  if n < 0x10 then [UInt8.ofNat (0x90 + n)]
  else if n < 0x10000 then 0xdc :: bigEndian 2 n
  else 0xdd :: bigEndian 4 n

/-- The beginning of a map. -/
def mapHeader (n : Nat) : Bytes :=
  if n < 0x10 then [UInt8.ofNat (0x80 + n)]
  else if n < 0x10000 then 0xde :: bigEndian 2 n
  else 0xdf :: bigEndian 4 n

/-- A token without a body. -/
theorem isToken_number {b : UInt8} {w : Nat} {t : Nat → Token}
    (hf : format b.toNat = some (.number w t)) {n : Nat} (hn : n < 256 ^ w) :
    IsToken (t n) (b :: bigEndian w n) := by
  simpa [Format.number] using isToken_format hf hn (s := []) rfl

/-- A token of one byte. -/
theorem isToken_single {b : UInt8} {t : Token} (hf : format b.toNat = some (.single t)) :
    IsToken t [b] := by
  simpa [Format.single, bigEndian] using
    isToken_format hf (n := 0) (by simp [Format.single]) (s := []) rfl

/-- Booleans have a byte each. -/
theorem isToken_bool (b : Bool) : IsToken (.atom (.bool b)) [if b then 0xc3 else 0xc2] := by
  cases b
  · exact isToken_single rfl
  · exact isToken_single rfl

/-- The shortest form of a natural number is a token of it. -/
theorem isToken_shortNat {n : Nat} (hn : n < 2 ^ 64) :
    IsToken (.atom (.int n)) (shortNat n) := by
  unfold shortNat
  split_ifs with h1 h2 h3 h4
  · refine isToken_single ?_
    rw [UInt8.toNat_ofNat', Nat.mod_eq_of_lt (by omega), format_posFixint h1]
  · exact isToken_number (t := fun n => .atom (.int n)) rfl h2
  · exact isToken_number (t := fun n => .atom (.int n)) rfl h3
  · exact isToken_number (t := fun n => .atom (.int n)) rfl h4
  · exact isToken_number (t := fun n => .atom (.int n)) rfl hn

/-- An integer of fixed width. -/
theorem isToken_twosComplement {b : UInt8} {w : Nat}
    (hf : format b.toNat = some (.number w fun n => .atom (.int (signed w n)))) {i : Int}
    (hlo : -(256 ^ w : Nat) ≤ 2 * i) (hhi : 2 * i < (256 ^ w : Nat)) :
    IsToken (.atom (.int i)) (b :: twosComplement w i) := by
  have hpos : (0 : Int) < (256 ^ w : Nat) := by positivity
  have hlt := Int.emod_lt_of_pos i hpos
  have hnn := Int.emod_nonneg i hpos.ne'
  have htoken := isToken_number hf (n := (i % (256 ^ w : Nat)).toNat) (by omega)
  rwa [signed_emod w i hlo hhi] at htoken

/-- So is that of an integer. -/
theorem isToken_shortInt {i : Int} (hlo : -2 ^ 63 ≤ i) (hhi : i < 2 ^ 64) :
    IsToken (.atom (.int i)) (shortInt i) := by
  unfold shortInt
  split_ifs with h1 h2 h3 h4 h5
  · have htoken := isToken_shortNat (n := i.toNat) (by omega)
    rwa [Int.toNat_of_nonneg h1] at htoken
  · refine isToken_single ?_
    rw [UInt8.toNat_ofNat', Nat.mod_eq_of_lt (by omega), format_negFixint (by omega),
      Int.toNat_of_nonneg (by omega), Int.add_sub_cancel]
  · exact isToken_twosComplement rfl (by omega) (by omega)
  · exact isToken_twosComplement rfl (by omega) (by omega)
  · exact isToken_twosComplement rfl (by omega) (by omega)
  · exact isToken_twosComplement rfl (by omega) (by omega)

/-- A float is its bits behind a byte. -/
theorem isToken_float32 (bits : UInt32) :
    IsToken (.atom (.float32 bits)) (0xca :: bigEndian 4 bits.toNat) := by
  simpa using isToken_number (b := 0xca) rfl bits.toNat_lt

/-- And so is a double. -/
theorem isToken_float64 (bits : UInt64) :
    IsToken (.atom (.float64 bits)) (0xcb :: bigEndian 8 bits.toNat) := by
  simpa using isToken_number (b := 0xcb) rfl bits.toNat_lt

/-- A string is its bytes behind a header. -/
theorem isToken_str {s : Bytes} (hs : s.length < 2 ^ 32) :
    IsToken (.atom (.str s)) (strHeader s.length ++ s) := by
  unfold strHeader
  split_ifs with h1 h2 h3
  · have hb : format (UInt8.ofNat (0xa0 + s.length)).toNat = some (.fixed s.length .str) := by
      rw [UInt8.toNat_ofNat', Nat.mod_eq_of_lt (by omega), format_fixstr h1]
    simpa [Format.fixed, bigEndian] using
      isToken_format hb (n := 0) (by simp [Format.fixed]) (s := s) rfl
  · exact isToken_format (f := .sized 1 .str) rfl h2 rfl
  · exact isToken_format (f := .sized 2 .str) rfl h3 rfl
  · exact isToken_format (f := .sized 4 .str) rfl hs rfl

/-- The header of an array is a token. -/
theorem isToken_arrayHeader {n : Nat} (hn : n < 2 ^ 32) : IsToken (.array n) (arrayHeader n) := by
  unfold arrayHeader
  split_ifs with h1 h2
  · refine isToken_single ?_
    rw [UInt8.toNat_ofNat', Nat.mod_eq_of_lt (by omega), format_fixarray h1]
  · exact isToken_number rfl h2
  · exact isToken_number rfl hn

/-- And so is that of a map. -/
theorem isToken_mapHeader {n : Nat} (hn : n < 2 ^ 32) : IsToken (.map n) (mapHeader n) := by
  unfold mapHeader
  split_ifs with h1 h2
  · refine isToken_single ?_
    rw [UInt8.toNat_ofNat', Nat.mod_eq_of_lt (by omega), format_fixmap h1]
  · exact isToken_number rfl h2
  · exact isToken_number rfl hn

/-! ### Their sizes -/

/-- The shortest form has the size of the number. -/
theorem shortNat_length {n : Nat} : (shortNat n).length = intSize n := by
  simp only [shortNat, intSize]
  split_ifs <;> simp <;> omega

/-- For negative numbers as well. -/
theorem shortInt_length (i : Int) : (shortInt i).length = intSize i := by
  simp only [shortInt, shortNat, intSize, twosComplement]
  split_ifs <;> simp <;> omega

/-- A header of a string has one byte to five. -/
theorem strHeaderSize_bounds (n : Nat) : 1 ≤ strHeaderSize n ∧ strHeaderSize n ≤ 5 := by
  unfold strHeaderSize
  split_ifs <;> omega

/-- Long strings have the longest header. -/
theorem strHeaderSize_of_large {n : Nat} (h : 0x10000 ≤ n) : strHeaderSize n = 5 := by
  unfold strHeaderSize
  split_ifs <;> omega

/-- A header of an array or a map has one byte to five. -/
theorem arrayHeaderSize_bounds (n : Nat) : 1 ≤ arrayHeaderSize n ∧ arrayHeaderSize n ≤ 5 := by
  unfold arrayHeaderSize
  split_ifs <;> omega

/-- Long arrays and maps have the longest header. -/
theorem arrayHeaderSize_of_large {n : Nat} (h : 0x10000 ≤ n) : arrayHeaderSize n = 5 := by
  unfold arrayHeaderSize
  split_ifs <;> omega

/-- The bytes of the header of a string. -/
@[simp] theorem strHeader_length (n : Nat) : (strHeader n).length = strHeaderSize n := by
  simp only [strHeader, strHeaderSize]
  split_ifs <;> simp

/-- Those of the header of an array. -/
@[simp] theorem arrayHeader_length (n : Nat) : (arrayHeader n).length = arrayHeaderSize n := by
  simp only [arrayHeader, arrayHeaderSize]
  split_ifs <;> simp

/-- And those of the header of a map. -/
@[simp] theorem mapHeader_length (n : Nat) : (mapHeader n).length = arrayHeaderSize n := by
  simp only [mapHeader, arrayHeaderSize]
  split_ifs <;> simp

end SmartFactory.MessagePack
