import SmartFactory.Bridge.Service

/-!
# `SmartFactory.Bridge.NodeId`: the text of node ids (`internal/nodeid/parse.go`)

`ParseQt` tries the parser of the OPC UA library first, which is not part of the repository
and a parameter here, and then a pattern of its own.
-/

set_option autoImplicit false

namespace SmartFactory.Bridge

/-- What a node id holds besides its namespace. -/
inductive Identifier where
  | numeric (n : UInt32)
  | str (s : String)
  | guid (s : String)
  | bytes (s : List UInt8)
  deriving DecidableEq

/-- `ua.NodeID`. -/
structure NodeID where
  ns : UInt16
  id : Identifier
  deriving DecidableEq

/-- `strconv.ErrSyntax` and `strconv.ErrRange`. -/
inductive NumErr where
  | syn
  | range
  deriving DecidableEq

/-- The errors of `ParseQt`. -/
inductive ParseErr where
  /-- "empty node id" -/
  | empty
  /-- "invalid node id (expected e.g. ns=2;i=123 or ns=2;s=Name)" -/
  | invalid
  /-- The error of `strconv.ParseUint` for this text. -/
  | parseUint (text : String) (err : NumErr)
  /-- "unsupported id type" -/
  | unsupported (c : Char)
  deriving DecidableEq

/-- `unicode.IsSpace`. -/
def isSpace (c : Char) : Bool :=
  c ∈ ['\t', '\n', '\x0b', '\x0c', '\r', ' ', '\x85', '\xa0', '\u1680', '\u2028', '\u2029',
    '\u202f', '\u205f', '\u3000'] || ('\u2000' ≤ c && c ≤ '\u200a')

/-- `strings.TrimSpace`. -/
def trimSpace (s : String) : String :=
  String.ofList (((s.toList.dropWhile isSpace).reverse.dropWhile isSpace).reverse)

/-- `strconv.ParseUint` with base 10, as far as it has got with the digits. It stops at the
first digit that makes the number too large. -/
def parseDigits (max : Nat) : Nat → List Char → Except NumErr Nat
  | n, [] => .ok n
  | n, c :: cs =>
      if c.isDigit then
        if n * 10 + (c.toNat - '0'.toNat) > max then .error .range
        else parseDigits max (n * 10 + (c.toNat - '0'.toNat)) cs
      else .error .syn

/-- `strconv.ParseUint` with base 10. -/
def parseUint (s : String) (max : Nat) : Except ParseErr Nat :=
  (if s.toList = [] then .error .syn else parseDigits max 0 s.toList).mapError (.parseUint s)

/-- `qtForm.FindStringSubmatch`: the submatches of `^ns=(\d+);([si])=(.+)$`. -/
def qtForm (s : String) : Option (String × Char × String) :=
  match s.toList with
  | 'n' :: 's' :: '=' :: cs =>
      match cs.dropWhile Char.isDigit with
      | ';' :: c :: '=' :: v =>
          -- A dot matches everything but a newline.
          if cs.takeWhile Char.isDigit ≠ [] ∧ (c = 's' ∨ c = 'i') ∧ v ≠ [] ∧ '\n' ∉ v then
            some (String.ofList (cs.takeWhile Char.isDigit), c, String.ofList v)
          else none
      | _ => none
  | _ => none

/-- `ParseQt`. `native` is `ua.ParseNodeID`. -/
def parseQt (native : String → Option NodeID) (text : String) : Except ParseErr NodeID :=
  let s := trimSpace text
  if s = "" then .error .empty
  else match native s with
    | some nid => .ok nid
    | none =>
        -- What the library refuses may still have the form of the Qt bridge.
        match qtForm s with
        | none => .error .invalid
        | some (digits, c, v) => do
            let ns ← parseUint digits 0xffff
            if c = 'i' then
              let n ← parseUint (trimSpace v) 0xffffffff
              .ok ⟨UInt16.ofNat ns, .numeric (UInt32.ofNat n)⟩
            else if c = 's' then .ok ⟨UInt16.ofNat ns, .str v⟩
            else .error (.unsupported c)

end SmartFactory.Bridge
