import SmartFactory.Bridge.QtNodeId
import Mathlib.Data.List.TakeWhile

/-!
# `SmartFactory.Bridge.NodeIdText`: the texts by which node ids are shown

`Browse` shows a node by `NodeID.String`, and the node that is picked comes back as this text: to
`ParseQt`, in the next `Browse` and in a mapping. Both functions of the OPC UA library are part of
`NodeIdLibrary`, with what is documented of them for numeric and string identifiers.
-/

set_option autoImplicit false

namespace SmartFactory.Bridge

/-- A node id in text form. The namespace is left out when it is 0. -/
def shownText (ns : UInt16) (id : List Char) : List Char :=
  if ns = 0 then id else 'n' :: 's' :: '=' :: (Nat.toDigits 10 ns.toNat ++ ';' :: id)

/-- A namespace index, as the library reads it. -/
def readNamespace (d : List Char) : Option UInt16 :=
  (unsignedDecimal d).bind fun n => if n < 2 ^ 16 then some (UInt16.ofNat n) else none

/-- An identifier of one of the two types, as the library reads it. The largest number is out of
its range. -/
def readIdentifier (c : Char) (v : List Char) : Option Identifier :=
  if c = 's' then some (.str (String.ofList v))
  else (unsignedDecimal v).bind fun n =>
    if n < 2 ^ 32 - 1 then some (.numeric (UInt32.ofNat n)) else none

/-- `NodeID.String` and `ua.ParseNodeID`. -/
structure NodeIdLibrary where
  string : NodeID → String
  parseNodeID : String → Option NodeID
  string_numeric : ∀ ns n, string ⟨ns, .numeric n⟩
    = String.ofList (shownText ns ('i' :: '=' :: Nat.toDigits 10 n.toNat))
  string_str : ∀ ns s, string ⟨ns, .str s⟩
    = String.ofList (shownText ns ('s' :: '=' :: s.toList))
  /-- A text without a semicolon is an identifier of namespace 0. -/
  parse_plain : ∀ c v, c = 's' ∨ c = 'i' → ';' ∉ v →
    parseNodeID (String.ofList (c :: '=' :: v)) = (readIdentifier c v).map (NodeID.mk 0)
  /-- The first semicolon ends the namespace. -/
  parse_namespace : ∀ d c v, c = 's' ∨ c = 'i' → (∀ x ∈ d, x.isDigit = true) →
    parseNodeID (String.ofList ('n' :: 's' :: '=' :: (d ++ ';' :: c :: '=' :: v)))
      = (readNamespace d).bind fun ns => (readIdentifier c v).map (NodeID.mk ns)
  /-- What it ends must be a namespace. -/
  parse_reject : ∀ p v, ';' ∉ p → ¬ ['n', 's'] <+: p →
    parseNodeID (String.ofList (p ++ ';' :: v)) = none

/-! ### A library that does this and no more -/

/-- An identifier with its type. -/
def readTyped : List Char → Option Identifier
  | 's' :: '=' :: v => readIdentifier 's' v
  | 'i' :: '=' :: v => readIdentifier 'i' v
  | _ => none

/-- The two parts of a text. -/
def readParts (p : List Char) : List Char → Option NodeID
  | [] => (readTyped p).map (NodeID.mk 0)
  | _ :: id =>
      match p with
      | 'n' :: 's' :: '=' :: d =>
          (readNamespace d).bind fun ns => (readTyped id).map (NodeID.mk ns)
      | _ => none

/-- The identifiers of other types are not shown. -/
def showNodeID : NodeID → String
  | ⟨ns, .numeric n⟩ => String.ofList (shownText ns ('i' :: '=' :: Nat.toDigits 10 n.toNat))
  | ⟨ns, .str s⟩ => String.ofList (shownText ns ('s' :: '=' :: s.toList))
  | _ => ""

/-- Split a text at its first semicolon and read the parts. -/
def readNodeID (s : String) : Option NodeID :=
  readParts (s.toList.takeWhile (· ≠ ';')) (s.toList.dropWhile (· ≠ ';'))

/-- A text with a semicolon is split there. -/
theorem readNodeID_split {p : List Char} (v : List Char) (hp : ';' ∉ p) :
    readNodeID (String.ofList (p ++ ';' :: v)) = readParts p (';' :: v) := by
  have hpos : ∀ c ∈ p, decide (c ≠ ';') = true := fun c hc =>
    decide_eq_true fun he => hp (he ▸ hc)
  rw [readNodeID, String.toList_ofList, List.takeWhile_append_of_pos hpos,
    List.dropWhile_append_of_pos hpos]
  simp

/-- A text with a type and `=` is read by its type. -/
theorem readTyped_eq {c : Char} (v : List Char) (hc : c = 's' ∨ c = 'i') :
    readTyped (c :: '=' :: v) = readIdentifier c v := by
  rcases hc with rfl | rfl
  · rfl
  · rfl

/-- The library for numeric and string identifiers. -/
def basicLibrary : NodeIdLibrary where
  string := showNodeID
  parseNodeID := readNodeID
  string_numeric _ _ := rfl
  string_str _ _ := rfl
  parse_plain c v hc hv := by
    have hpos : ∀ x ∈ c :: '=' :: v, decide (x ≠ ';') = true := by
      intro x hx
      refine decide_eq_true ?_
      rintro rfl
      rcases hc with rfl | rfl <;> simp [hv] at hx
    have htake : (c :: '=' :: v).takeWhile (· ≠ ';') = c :: '=' :: v :=
      List.takeWhile_eq_self_iff.mpr hpos
    have hdrop : (c :: '=' :: v).dropWhile (· ≠ ';') = [] := List.dropWhile_eq_nil_iff.mpr hpos
    rw [readNodeID, String.toList_ofList, htake, hdrop, readParts, readTyped_eq v hc]
  parse_namespace d c v hc hd := by
    have hsemicolon : ';' ∉ d := fun hmem => absurd (hd ';' hmem) (by decide)
    have hp : ';' ∉ 'n' :: 's' :: '=' :: d := by simp [hsemicolon]
    have h := readNodeID_split (c :: '=' :: v) hp
    rw [readParts, readTyped_eq v hc] at h
    exact h
  parse_reject p v hp hns := by
    rw [readNodeID_split v hp, readParts]
    rintro d rfl
    exact hns ⟨_, rfl⟩

end SmartFactory.Bridge
