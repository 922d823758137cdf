import SmartFactory.Proofs.Bridge.NodeIds
import SmartFactory.Bridge.NodeIdText
import SmartFactory.Bridge.Frame
import SmartFactory.Server.Http

/-!
# `SmartFactory.Proofs.Bridge.NodeIdTexts`: is the node that is shown the node that is read?

A node id has two texts: `Browse` shows it by `NodeID.String`, and the server lists its own nodes by
`node_id_string`. `ParseQt` takes white space off both ends of a text before it reads it, and its
own pattern asks for a namespace, which `NodeID.String` leaves out when it is 0.

`parseQt_shown_iff` says which node ids survive: of the numeric ones all but one, and of the strings
those without white space at the end and, in namespace 0, without a semicolon. The text of the
server always has a namespace.
-/

set_option autoImplicit false

namespace SmartFactory.Bridge

open Server (CString nodeIdString serverBrowseNameMax)

/-! ### White space at the end of a text -/

/-- A text without the white space at its end. -/
def trimEnd (v : List Char) : List Char := (v.reverse.dropWhile isSpace).reverse

/-- The last character is white space. -/
def EndsInSpace (v : List Char) : Prop := ∃ c, v.getLast? = some c ∧ isSpace c = true

theorem trimEnd_eq_iff {v : List Char} : trimEnd v = v ↔ ¬ EndsInSpace v := by
  have hrev : trimEnd v = v ↔ v.reverse.dropWhile isSpace = v.reverse := by
    rw [trimEnd, List.reverse_eq_iff]
  rw [hrev, EndsInSpace, ← List.head?_reverse]
  cases v.reverse with
  | nil => simp
  | cons c cs =>
      rw [List.dropWhile_eq_self_iff]
      simp

/-- No character of the end that is not white space is lost. -/
theorem mem_trimEnd_iff {c : Char} (hc : isSpace c = false) (v : List Char) :
    c ∈ trimEnd v ↔ c ∈ v := by
  rw [trimEnd, List.mem_reverse, mem_dropWhile_iff hc, List.mem_reverse]

/-- A text that begins with no white space and has an equals sign loses white space behind it
only. -/
theorem trimSpace_shown {c : Char} (hc : isSpace c = false) (mid v : List Char) :
    trimSpace (String.ofList (c :: (mid ++ '=' :: v)))
      = String.ofList (c :: (mid ++ '=' :: trimEnd v)) := by
  have hstart : (c :: (mid ++ '=' :: v)).dropWhile isSpace = c :: (mid ++ '=' :: v) :=
    List.dropWhile_cons_of_neg (by simp [hc])
  have hsplit : (c :: (mid ++ '=' :: v)).reverse = v.reverse ++ '=' :: (c :: mid).reverse := by
    simp
  -- From behind, trimming stops at the equals sign at the latest.
  have hstop : ('=' :: (c :: mid).reverse).dropWhile isSpace = '=' :: (c :: mid).reverse :=
    List.dropWhile_cons_of_neg (by decide)
  rw [trimSpace, String.toList_ofList, hstart, hsplit, List.dropWhile_append, hstop]
  congr 1
  split
  · rename_i hempty
    rw [List.isEmpty_iff] at hempty
    rw [trimEnd, hempty]
    simp
  · simp [trimEnd]

/-! ### Numbers -/

theorem decimal_toDigits (n : Nat) : decimal (Nat.toDigits 10 n) = n := by
  have h := Nat.ofDigitChars_ten_toDigits (n := n)
  rw [Nat.ofDigitChars_eq_foldl] at h
  rw [decimal]
  simpa only [Nat.mul_comm] using h

theorem isDigit_toDigits (n : Nat) : ∀ c ∈ Nat.toDigits 10 n, c.isDigit = true := fun _ hc =>
  Nat.isDigit_of_mem_toDigits (by decide) (by decide) hc

theorem unsignedDecimal_toDigits (n : Nat) : unsignedDecimal (Nat.toDigits 10 n) = some n :=
  unsignedDecimal_eq_some.mpr ⟨⟨Nat.toDigits_ne_nil, isDigit_toDigits n⟩, decimal_toDigits n⟩

/-- A number ends in no white space. -/
theorem trimEnd_toDigits (n : Nat) : trimEnd (Nat.toDigits 10 n) = Nat.toDigits 10 n := by
  rw [trimEnd_eq_iff]
  rintro ⟨c, hlast, hspace⟩
  have hdigit := isDigit_toDigits n c (List.mem_of_getLast? hlast)
  cases (isSpace_of_isDigit hdigit).symm.trans hspace

theorem not_mem_toDigits {c : Char} (hc : c.isDigit = false) (n : Nat) :
    c ∉ Nat.toDigits 10 n := fun hmem => by
  cases hc.symm.trans (isDigit_toDigits n c hmem)

/-- A namespace index is read back. -/
theorem readNamespace_toDigits (ns : UInt16) :
    readNamespace (Nat.toDigits 10 ns.toNat) = some ns := by
  rw [readNamespace, unsignedDecimal_toDigits, Option.bind_some, if_pos ns.toNat_lt,
    UInt16.ofNat_toNat]

/-- A number is read back, up to the largest one. -/
theorem readIdentifier_toDigits (n : UInt32) :
    readIdentifier 'i' (Nat.toDigits 10 n.toNat)
      = if n = 0xffffffff then none else some (.numeric n) := by
  have hlt : n.toNat < 2 ^ 32 - 1 ↔ n ≠ 0xffffffff := by
    rw [ne_eq, ← UInt32.toNat_inj]
    have h := n.toNat_lt
    have hmax : UInt32.toNat 0xffffffff = 2 ^ 32 - 1 := rfl
    omega
  rw [readIdentifier, if_neg (by decide), unsignedDecimal_toDigits, Option.bind_some,
    UInt32.ofNat_toNat]
  by_cases h : n = 0xffffffff
  · rw [if_pos h, if_neg fun hn => hlt.mp hn h]
  · rw [if_neg h, if_pos (hlt.mpr h)]

/-! ### What `ParseQt` makes of the texts -/

section
variable (lib : NodeIdLibrary)

/-- With a namespace, `ParseQt` reads a string without the white space at its end. -/
theorem parseQt_string (ns : UInt16) (v : List Char) :
    parseQt lib.parseNodeID
        (String.ofList ('n' :: 's' :: '=' :: (Nat.toDigits 10 ns.toNat ++ ';' :: 's' :: '=' :: v)))
      = .ok ⟨ns, .str (String.ofList (trimEnd v))⟩ := by
  have htrim := trimSpace_shown (c := 'n') (by decide)
    ('s' :: '=' :: (Nat.toDigits 10 ns.toNat ++ [';', 's'])) v
  simp only [List.cons_append, List.append_assoc, List.nil_append] at htrim
  refine parseQt_of_native ?_ ?_
  · rw [htrim, lib.parse_namespace _ _ _ (Or.inl rfl) (isDigit_toDigits _),
      readNamespace_toDigits]
    rfl
  · rw [htrim]
    exact fun h => by cases String.ofList_eq_empty_iff.mp h

/-- With a namespace, `ParseQt` reads every number: the library all but the largest one, and the
pattern that one. -/
theorem parseQt_number (ns : UInt16) (n : UInt32) :
    parseQt lib.parseNodeID
        (String.ofList ('n' :: 's' :: '=' ::
          (Nat.toDigits 10 ns.toNat ++ ';' :: 'i' :: '=' :: Nat.toDigits 10 n.toNat)))
      = .ok ⟨ns, .numeric n⟩ := by
  have htrim := trimSpace_shown (c := 'n') (by decide)
    ('s' :: '=' :: (Nat.toDigits 10 ns.toNat ++ [';', 'i'])) (Nat.toDigits 10 n.toNat)
  simp only [List.cons_append, List.append_assoc, List.nil_append, trimEnd_toDigits] at htrim
  have hne : trimSpace (String.ofList ('n' :: 's' :: '=' ::
      (Nat.toDigits 10 ns.toNat ++ ';' :: 'i' :: '=' :: Nat.toDigits 10 n.toNat))) ≠ "" := by
    rw [htrim]
    exact fun h => by cases String.ofList_eq_empty_iff.mp h
  have hnative := lib.parse_namespace (Nat.toDigits 10 ns.toNat) 'i' (Nat.toDigits 10 n.toNat)
    (Or.inr rfl) (isDigit_toDigits _)
  rw [readNamespace_toDigits, Option.bind_some, readIdentifier_toDigits] at hnative
  by_cases hmax : n = 0xffffffff
  · rw [if_pos hmax] at hnative
    -- The library refuses 0xffffffff, so that the pattern of the Qt bridge has to take it.
    have hform : qtForm (String.ofList ('n' :: 's' :: '=' ::
        (Nat.toDigits 10 ns.toNat ++ ';' :: 'i' :: '=' :: Nat.toDigits 10 n.toNat)))
          = some (String.ofList (Nat.toDigits 10 ns.toNat), 'i',
              String.ofList (Nat.toDigits 10 n.toNat)) := by
      refine qtForm_eq_some_iff.mpr ⟨_, _, ⟨String.toList_ofList, Nat.toDigits_ne_nil,
        isDigit_toDigits _⟩, Or.inr rfl, Nat.toDigits_ne_nil, ?_, rfl, rfl⟩
      exact not_mem_toDigits (by decide) _
    have hns : parseUint (String.ofList (Nat.toDigits 10 ns.toNat)) 0xffff = .ok ns.toNat := by
      have hlt := ns.toNat_lt
      exact parseUint_eq_ok_iff.mpr ⟨unsignedDecimal_toDigits _, by omega⟩
    have hn : parseUint (trimSpace (String.ofList (Nat.toDigits 10 n.toNat))) 0xffffffff
        = .ok n.toNat := by
      have hlt := n.toNat_lt
      rw [trimSpace_of_digits (isDigit_toDigits _)]
      exact parseUint_eq_ok_iff.mpr ⟨unsignedDecimal_toDigits _, by omega⟩
    rw [parseQt, if_neg hne, htrim, hnative]
    simp only [Option.map_none, hform, hns, hn, bind, Except.bind, if_true, UInt16.ofNat_toNat,
      UInt32.ofNat_toNat]
  · rw [if_neg hmax] at hnative
    exact parseQt_of_native (by rw [htrim]; exact hnative) hne

/-- The pattern of `ParseQt` asks for a namespace. -/
theorem qtForm_of_plain {c : Char} (hc : c ≠ 'n') (v : List Char) :
    qtForm (String.ofList (c :: v)) = none := by
  cases hform : qtForm (String.ofList (c :: v)) with
  | none => rfl
  | some m =>
      obtain ⟨d, v', htext, -⟩ := qtForm_eq_some_iff.mp
        (show qtForm (String.ofList (c :: v)) = some (m.1, m.2.1, m.2.2) from hform)
      have htext := htext.text
      rw [String.toList_ofList] at htext
      exact absurd (List.cons.inj htext).1 hc

/-- Without a namespace, it is the library alone that reads a text. -/
theorem parseQt_plain {c : Char} (hc : c = 's' ∨ c = 'i') (v : List Char) (nid : NodeID) :
    parseQt lib.parseNodeID (String.ofList (c :: '=' :: v)) = .ok nid ↔
      lib.parseNodeID (String.ofList (c :: '=' :: trimEnd v)) = some nid := by
  have hspace : isSpace c = false := by rcases hc with rfl | rfl <;> decide
  have hn : c ≠ 'n' := by rcases hc with rfl | rfl <;> decide
  have htrim := trimSpace_shown hspace [] v
  rw [List.nil_append, List.nil_append] at htrim
  rw [parseQt, htrim, if_neg (fun h => by cases String.ofList_eq_empty_iff.mp h)]
  cases lib.parseNodeID (String.ofList (c :: '=' :: trimEnd v)) with
  | some nid' => simp
  | none =>
      rw [qtForm_of_plain hn]
      simp

/-- A numeric node id is read back unless it is the largest one, in namespace 0. -/
theorem parseQt_shown_numeric (ns : UInt16) (n : UInt32) :
    parseQt lib.parseNodeID (lib.string ⟨ns, .numeric n⟩) = .ok ⟨ns, .numeric n⟩ ↔
      (ns = 0 → n ≠ 0xffffffff) := by
  rw [lib.string_numeric, shownText]
  by_cases hns : ns = 0
  · subst hns
    rw [if_pos rfl, parseQt_plain lib (Or.inr rfl), trimEnd_toDigits,
      lib.parse_plain _ _ (Or.inr rfl) (not_mem_toDigits (by decide) _), readIdentifier_toDigits]
    by_cases hmax : n = 0xffffffff
    · simp [hmax]
    · simp [hmax]
  · rw [if_neg hns, parseQt_number]
    simp [hns]

/-- A string node id is read back unless it ends in white space or has a semicolon in
namespace 0. -/
theorem parseQt_shown_str (ns : UInt16) (s : String) :
    parseQt lib.parseNodeID (lib.string ⟨ns, .str s⟩) = .ok ⟨ns, .str s⟩ ↔
      ¬ EndsInSpace s.toList ∧ (ns = 0 → ';' ∉ s.toList) := by
  have hsame : String.ofList (trimEnd s.toList) = s ↔ trimEnd s.toList = s.toList := by
    rw [← String.toList_inj, String.toList_ofList]
  rw [lib.string_str, shownText, ← trimEnd_eq_iff, ← hsame]
  by_cases hns : ns = 0
  · subst hns
    rw [if_pos rfl, parseQt_plain lib (Or.inl rfl)]
    by_cases hsemicolon : ';' ∈ s.toList
    · -- The library takes what stands before it for a namespace.
      have hmem : ';' ∈ trimEnd s.toList := (mem_trimEnd_iff (by decide) _).mpr hsemicolon
      obtain ⟨p, v, hsplit, hp⟩ := List.eq_append_cons_of_mem hmem
      have hreject := lib.parse_reject ('s' :: '=' :: p) v (by simp [hp]) (by simp)
      rw [List.cons_append, List.cons_append, ← hsplit] at hreject
      rw [hreject]
      simp [hsemicolon]
    · have hmem : ';' ∉ trimEnd s.toList := fun h =>
        hsemicolon ((mem_trimEnd_iff (by decide) _).mp h)
      rw [lib.parse_plain _ _ (Or.inl rfl) hmem, readIdentifier, if_pos rfl]
      simp [hsemicolon]
  · rw [if_neg hns, parseQt_string]
    simp [hns]

end

/-! ### The text of the server -/

/-- The bytes of a text, as a C string. -/
def cString (s : String) : CString := (utf8 s).map fun b => Char.ofNat b.toNat

theorem utf8_ofList (cs : List Char) :
    utf8 (String.ofList cs) = cs.flatMap String.utf8EncodeChar := by
  rw [utf8, String.toUTF8, String.toByteArray_ofList, List.utf8Encode]
  simp

theorem cString_append (cs : List Char) (s : String) :
    cString (String.ofList (cs ++ s.toList)) = cString (String.ofList cs) ++ cString s := by
  have hs : cString s = cString (String.ofList s.toList) := by rw [String.ofList_toList]
  rw [hs]
  simp only [cString, utf8_ofList, List.flatMap_append, List.map_append]

/-- ASCII characters are bytes. -/
theorem cString_ascii {cs : List Char} (h : ∀ c ∈ cs, c.toNat < 128) :
    cString (String.ofList cs) = cs := by
  rw [cString, utf8_ofList]
  induction cs with
  | nil => rfl
  | cons c cs ih =>
      rw [List.forall_mem_cons] at h
      have hc : String.utf8EncodeChar c = [UInt8.ofNat c.toNat] :=
        if_pos (show c.toNat ≤ 127 by omega)
      rw [List.flatMap_cons, List.map_append, ih h.2, hc, List.map_singleton,
        UInt8.toNat_ofNat', Nat.mod_eq_of_lt (by omega), Char.ofNat_toNat]
      rfl

/-- Different texts have different bytes. -/
theorem cString_injective {s t : String} (h : cString s = cString t) : s = t := by
  have hinj : Function.Injective fun b : UInt8 => Char.ofNat b.toNat := by
    intro a b hab
    have hbyte : ∀ c : UInt8, (Char.ofNat c.toNat).toNat = c.toNat := by
      intro c
      have hlt := c.toNat_lt
      have hvalid : Nat.isValidChar c.toNat := Or.inl (by omega)
      rw [Char.ofNat, dif_pos hvalid]
      rfl
    have hnat := congrArg Char.toNat hab
    simp only [hbyte] at hnat
    exact UInt8.toNat_inj.mp hnat
  have hbytes := List.map_injective_iff.mpr hinj h
  exact String.toByteArray_inj.mp (ByteArray.ext (Array.toList_inj.mp hbytes))

/-- The buffer of the server is long enough for its own browse names. -/
theorem nodeIdString_eq (ns : UInt16) {name : String}
    (h : (cString name).length < serverBrowseNameMax) :
    nodeIdString ns.toNat (cString name)
      = cString (String.ofList ('n' :: 's' :: '=' ::
          (Nat.toDigits 10 ns.toNat ++ ';' :: 's' :: '=' :: name.toList))) := by
  have hshort : (Nat.toDigits 10 ns.toNat).length ≤ 5 :=
    (Nat.length_toDigits_le_iff (by decide) (by decide)).mpr (by have := ns.toNat_lt; omega)
  have hdigits : (toString ns.toNat).toList = Nat.toDigits 10 ns.toNat := by
    rw [Nat.toString_eq_ofList_toDigits, String.toList_ofList]
  -- Digits and the fixed letters are one byte each, so that the prefix is the same text in C.
  have hascii : ∀ c ∈ 'n' :: 's' :: '=' :: (Nat.toDigits 10 ns.toNat ++ [';', 's', '=']),
      c.toNat < 128 := by
    have hdigit : ∀ c ∈ Nat.toDigits 10 ns.toNat, c.toNat < 128 := by
      intro c hc
      have hle := (Bool.and_eq_true _ _ ▸ isDigit_toDigits _ c hc).2
      have hnat : c.toNat ≤ 57 := UInt32.le_iff_toNat_le.mp (of_decide_eq_true hle)
      omega
    intro c hc
    simp only [List.mem_cons, List.mem_append, List.not_mem_nil, or_false] at hc
    rcases hc with rfl | rfl | rfl | hc | rfl | rfl | rfl
    · decide
    · decide
    · decide
    · exact hdigit c hc
    · decide
    · decide
    · decide
  have htext := cString_append
    ('n' :: 's' :: '=' :: (Nat.toDigits 10 ns.toNat ++ [';', 's', '='])) name
  rw [cString_ascii hascii] at htext
  simp only [List.cons_append, List.append_assoc, List.nil_append] at htext
  have hns : "ns=".toList = ['n', 's', '='] := rfl
  have hs : ";s=".toList = [';', 's', '='] := rfl
  rw [htext, nodeIdString, hdigits, hns, hs, Server.snprintf_of_lt]
  · simp only [List.append_assoc, List.cons_append, List.nil_append]
  · simp only [List.length_append, List.length_cons, List.length_nil]
    -- At most 3 + 5 + 3 bytes before a name of at most 63: `snprintf` cuts nothing off.
    have hname : (cString name).length < 64 := h
    show _ < 128
    omega

/-- **Which node ids survive.** A numeric one does, unless it is the largest number in namespace 0;
a string does unless it ends in white space or has, in namespace 0, a semicolon. In the list of the
server, which shows strings of at most 63 bytes, only white space at the end is lost. -/
theorem parseQt_shown_iff (lib : NodeIdLibrary) (ns : UInt16) :
    (∀ n, parseQt lib.parseNodeID (lib.string ⟨ns, .numeric n⟩) = .ok ⟨ns, .numeric n⟩ ↔
      (ns = 0 → n ≠ 0xffffffff)) ∧
    (∀ s, parseQt lib.parseNodeID (lib.string ⟨ns, .str s⟩) = .ok ⟨ns, .str s⟩ ↔
      ¬ EndsInSpace s.toList ∧ (ns = 0 → ';' ∉ s.toList)) ∧
    ∀ name text, (cString name).length < serverBrowseNameMax →
      cString text = nodeIdString ns.toNat (cString name) →
      (parseQt lib.parseNodeID text = .ok ⟨ns, .str name⟩ ↔ ¬ EndsInSpace name.toList) := by
  refine ⟨parseQt_shown_numeric lib ns, parseQt_shown_str lib ns, ?_⟩
  intro name text hname htext
  rw [nodeIdString_eq ns hname] at htext
  rw [cString_injective htext, parseQt_string, ← trimEnd_eq_iff]
  simp [← String.toList_inj]

/-- The three kinds of node ids that are lost: a blank at the end gives another node, and the other
two give an error. -/
theorem not_parseQt_shown :
    parseQt basicLibrary.parseNodeID (basicLibrary.string ⟨2, .str "Level "⟩)
        = .ok ⟨2, .str "Level"⟩ ∧
      parseQt basicLibrary.parseNodeID (basicLibrary.string ⟨0, .str "a;b"⟩)
        = .error .invalid ∧
      parseQt basicLibrary.parseNodeID (basicLibrary.string ⟨0, .numeric 0xffffffff⟩)
        = .error .invalid := by
  refine ⟨?_, ?_, ?_⟩ <;> decide

end SmartFactory.Bridge
