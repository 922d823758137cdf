import SmartFactory.Bridge.NodeId

/-!
# `SmartFactory.Bridge.QtNodeId`: how the Qt bridge reads a node id

`parseNodeId` of `src/gui/BridgeEngine.cpp`. A `QRegularExpression` that is not anchored is searched
for, and its dot matches everything but a newline. `QString::toInt` accepts a sign and white space
around the number. The string of a node id goes through a `const char *`, which ends at a NUL, and
the number through a cast to an unsigned one.
-/

set_option autoImplicit false

namespace SmartFactory.Bridge

/-! ### Numbers in text -/

/-- The number that digits stand for. -/
def decimal (ds : List Char) : Nat := ds.foldl (fun n c => n * 10 + (c.toNat - '0'.toNat)) 0

/-- Digits, and at least one. -/
def unsignedDecimal (ds : List Char) : Option Nat :=
  if ds ≠ [] ∧ ds.all Char.isDigit then some (decimal ds) else none

/-- Digits after at most one sign. -/
def signedDecimal : List Char → Option Int
  | '-' :: ds => (unsignedDecimal ds).map fun n : Nat => -(n : Int)
  | '+' :: ds => (unsignedDecimal ds).map fun n : Nat => (n : Int)
  | ds => (unsignedDecimal ds).map fun n : Nat => (n : Int)

/-- `QString::toLongLong`. White space around the number does not matter. -/
def toLongLong (str : String) : Option Int := signedDecimal (trimSpace str).toList

/-- `QString::toUShort`. -/
def toUShort (str : String) : Option Nat :=
  (toLongLong str).bind fun n => if 0 ≤ n ∧ n < 2 ^ 16 then some n.toNat else none

/-- `QString::toInt`. -/
def toInt (str : String) : Option Int :=
  (toLongLong str).bind fun n => if -2 ^ 31 ≤ n ∧ n < 2 ^ 31 then some n else none

/-! ### The pattern -/

/-- The captures of `ns=(\d+);(s|i|g|b)=(.+)` at the beginning of a text. -/
def matchHere : List Char → Option (List Char × Char × List Char)
  | 'n' :: 's' :: '=' :: cs =>
      match cs.dropWhile Char.isDigit with
      | ';' :: c :: '=' :: v =>
          if cs.takeWhile Char.isDigit ≠ [] ∧ c ∈ ['s', 'i', 'g', 'b'] ∧
              v.takeWhile (fun c => c ≠ '\n') ≠ [] then
            some (cs.takeWhile Char.isDigit, c, v.takeWhile (fun c => c ≠ '\n'))
          else none
      | _ => none
  | _ => none

/-- `QRegularExpression::match`: the leftmost match. -/
def matchPattern : List Char → Option (List Char × Char × List Char)
  | [] => none
  | c :: cs =>
      match matchHere (c :: cs) with
      | some m => some m
      | none => matchPattern cs

/-- `parseNodeId`. -/
def parseNodeId (str : String) : Option NodeID := do
  let (captured, idType, idVal) ← matchPattern (trimSpace str).toList
  let ns ← toUShort (String.ofList captured)
  if idType = 's' then
    -- `buf.constData()` ends at the first NUL.
    some ⟨UInt16.ofNat ns, .str (String.ofList (idVal.takeWhile (fun c => c ≠ '\x00')))⟩
  else if idType = 'i' then
    let num ← toInt (String.ofList idVal)
    some ⟨UInt16.ofNat ns, .numeric (UInt32.ofInt num)⟩
  else none

end SmartFactory.Bridge
