import SmartFactory.Bridge.QtNodeId
import Mathlib.Data.List.TakeWhile

/-!
# `SmartFactory.Proofs.Bridge.NodeIds`: two readers of node ids

`ParseQt` says that it parses the node ids that the Qt bridge accepts. It has two ways to do so, the
parser of the OPC UA library and a pattern of its own, and both look at the whole text. The Qt
bridge searches for its pattern, up to the end of a line.

`parseQt_agrees_iff` says which of the texts that the Qt bridge accepts `ParseQt` reads in the same
way. Of the library it uses what its texts look like (`NativeGrammar`), and not which ones it
accepts: what it rejects falls through to the pattern, and that gives the same.
-/

set_option autoImplicit false

namespace SmartFactory.Bridge

/-- The text is a namespace, an identifier type and an identifier. -/
structure NodeIdText (cs d : List Char) (c : Char) (v : List Char) : Prop where
  text : cs = 'n' :: 's' :: '=' :: (d ++ ';' :: c :: '=' :: v)
  nonempty : d ≠ []
  digits : ∀ x ∈ d, x.isDigit = true

/-- What `ua.ParseNodeID` makes of an identifier of each type. -/
def NativeIdentifier (v : List Char) : Char → Identifier → Prop
  | 'i', id => ∃ n, unsignedDecimal v = some n ∧ n < 2 ^ 32 ∧ id = .numeric (UInt32.ofNat n)
  | 's', id => id = .str (String.ofList v)
  | 'g', id => ∃ g, id = .guid g
  | 'b', id => ∃ b, id = .bytes b
  | _, _ => False

/-- The documented grammar of `ua.ParseNodeID`, for texts with a semicolon: the first one ends the
namespace, and a numeric identifier is a number. -/
def NativeGrammar (native : String → Option NodeID) : Prop :=
  ∀ s nid, native s = some nid → ';' ∈ s.toList → ∃ n c v,
    s.toList = 'n' :: 's' :: '=' :: (n ++ ';' :: c :: '=' :: v) ∧
    signedDecimal n = some (nid.ns.toNat : Int) ∧ NativeIdentifier v c nid.id

/-! ### Numbers -/

theorem unsignedDecimal_eq_some {ds : List Char} {n : Nat} :
    unsignedDecimal ds = some n ↔ (ds ≠ [] ∧ ∀ x ∈ ds, x.isDigit = true) ∧ decimal ds = n := by
  rw [unsignedDecimal]
  split
  · rename_i h
    rw [List.all_eq_true] at h
    rw [Option.some.injEq, and_iff_right h]
  · rename_i h
    rw [List.all_eq_true] at h
    simp only [reduceCtorEq, false_iff, not_and]
    exact fun hds => absurd hds h

/-- A number begins with a digit or a sign, and digits follow. -/
theorem signedDecimal_cases {cs : List Char} {z : Int} (h : signedDecimal cs = some z) :
    ∃ ds n, unsignedDecimal ds = some n ∧
      ((cs = ds ∧ z = n) ∨ (cs = '+' :: ds ∧ z = n) ∨ (cs = '-' :: ds ∧ z = -n)) := by
  unfold signedDecimal at h
  split at h
  · obtain ⟨n, hn, rfl⟩ := Option.map_eq_some_iff.mp h
    exact ⟨_, n, hn, Or.inr (Or.inr ⟨rfl, rfl⟩)⟩
  · obtain ⟨n, hn, rfl⟩ := Option.map_eq_some_iff.mp h
    exact ⟨_, n, hn, Or.inr (Or.inl ⟨rfl, rfl⟩)⟩
  · obtain ⟨n, hn, rfl⟩ := Option.map_eq_some_iff.mp h
    exact ⟨_, n, hn, Or.inl ⟨rfl, rfl⟩⟩

/-- Digits have no sign. -/
theorem signedDecimal_of_digits {ds : List Char} (hne : ds ≠ [])
    (h : ∀ x ∈ ds, x.isDigit = true) : signedDecimal ds = some (decimal ds : Int) := by
  have hdec := unsignedDecimal_eq_some.mpr ⟨⟨hne, h⟩, rfl⟩
  unfold signedDecimal
  split
  · cases h '-' (List.mem_cons_self ..)
  · cases h '+' (List.mem_cons_self ..)
  · rw [hdec]
    rfl

/-- A number has no letters and no semicolon. -/
theorem not_mem_of_signedDecimal {cs : List Char} {z : Int} (h : signedDecimal cs = some z)
    {c : Char} (hc : c.isDigit = false) (hplus : c ≠ '+') (hminus : c ≠ '-') : c ∉ cs := by
  obtain ⟨ds, n, hds, hcases⟩ := signedDecimal_cases h
  have hno : c ∉ ds := fun hmem => by
    cases hc.symm.trans ((unsignedDecimal_eq_some.mp hds).1.2 c hmem)
  rcases hcases with ⟨rfl, -⟩ | ⟨rfl, -⟩ | ⟨rfl, -⟩
  · exact hno
  · simp [hplus, hno]
  · simp [hminus, hno]

/-- `strconv.ParseUint` takes the digits one by one and compares as it goes. -/
theorem parseDigits_eq_ok_iff {max n m : Nat} (hn : n ≤ max) {cs : List Char} :
    parseDigits max n cs = .ok m ↔ (∀ x ∈ cs, x.isDigit = true) ∧ m ≤ max ∧
      cs.foldl (fun n c => n * 10 + (c.toNat - '0'.toNat)) n = m := by
  induction cs generalizing n with
  | nil =>
      rw [parseDigits, Except.ok.injEq]
      constructor
      · rintro rfl
        exact ⟨nofun, hn, rfl⟩
      · exact fun h => h.2.2
  | cons c cs ih =>
      rw [parseDigits, List.foldl_cons]
      split
      · rename_i hc
        split
        · rename_i hlarge
          -- The number only grows.
          have hgrows : ∀ (ds : List Char) (k : Nat),
              k ≤ ds.foldl (fun n c => n * 10 + (c.toNat - '0'.toNat)) k := by
            intro ds
            induction ds with
            | nil => exact fun k => Nat.le_refl k
            | cons d ds ih =>
                intro k
                have hstep : k ≤ k * 10 + (d.toNat - '0'.toNat) := by omega
                exact Nat.le_trans hstep (ih _)
          constructor
          · exact nofun
          · rintro ⟨-, hm, rfl⟩
            exact absurd (Nat.le_trans (hgrows cs _) hm) (by omega)
        · rename_i hsmall
          rw [ih (by omega)]
          simp [hc]
      · rename_i hc
        simp [hc]

/-! ### The patterns -/

section
variable {cs d v : List Char} {c : Char}

/-- The digits of a text end at the semicolon. -/
theorem NodeIdText.digits_end (h : NodeIdText cs d c v) :
    (d ++ ';' :: c :: '=' :: v).takeWhile Char.isDigit = d ∧
      (d ++ ';' :: c :: '=' :: v).dropWhile Char.isDigit = ';' :: c :: '=' :: v := by
  have hstop : Char.isDigit ';' = false := by decide
  rw [List.takeWhile_append_of_pos h.digits, List.dropWhile_append_of_pos h.digits,
    List.takeWhile_cons_of_neg (by simp [hstop]), List.append_nil,
    List.dropWhile_cons_of_neg (by simp [hstop])]
  exact ⟨rfl, rfl⟩

/-- A text that goes on with these characters behind its digits. -/
theorem nodeIdText_of_dropWhile {ds : List Char}
    (hdrop : ds.dropWhile Char.isDigit = ';' :: c :: '=' :: v)
    (hne : ds.takeWhile Char.isDigit ≠ []) :
    NodeIdText ('n' :: 's' :: '=' :: ds) (ds.takeWhile Char.isDigit) c v := by
  refine ⟨?_, hne, fun x hx => List.mem_takeWhile_imp hx⟩
  rw [← hdrop, List.takeWhile_append_dropWhile]

theorem matchHere_eq_some_iff : matchHere cs = some (d, c, v) ↔ ∃ rest, NodeIdText cs d c rest ∧
    c ∈ ['s', 'i', 'g', 'b'] ∧ v = rest.takeWhile (fun c => c ≠ '\n') ∧ v ≠ [] := by
  constructor
  · intro h
    unfold matchHere at h
    split at h
    · split at h
      · rename_i ds c' rest hdrop
        split at h
        · rename_i hparts
          simp only [Option.some.injEq, Prod.mk.injEq] at h
          obtain ⟨rfl, rfl, rfl⟩ := h
          exact ⟨rest, nodeIdText_of_dropWhile hdrop hparts.1, hparts.2.1, rfl, hparts.2.2⟩
        · cases h
      · cases h
    · cases h
  · rintro ⟨rest, htext, hc, rfl, hv⟩
    -- The digits stop at the semicolon, where the pattern goes on.
    obtain ⟨htake, hdrop⟩ := htext.digits_end
    rw [htext.text]
    simp only [matchHere]
    rw [hdrop, htake]
    exact if_pos ⟨htext.nonempty, hc, hv⟩

theorem qtForm_eq_some_iff {s digits value : String} :
    qtForm s = some (digits, c, value) ↔ ∃ d v, NodeIdText s.toList d c v ∧
      (c = 's' ∨ c = 'i') ∧ v ≠ [] ∧ '\n' ∉ v ∧ digits = String.ofList d ∧
      value = String.ofList v := by
  constructor
  · intro h
    unfold qtForm at h
    split at h
    · rename_i ds hs
      split at h
      · rename_i c' rest hdrop
        split at h
        · rename_i hparts
          simp only [Option.some.injEq, Prod.mk.injEq] at h
          obtain ⟨rfl, rfl, rfl⟩ := h
          exact ⟨_, rest, hs ▸ nodeIdText_of_dropWhile hdrop hparts.1, hparts.2.1, hparts.2.2.1,
            hparts.2.2.2, rfl, rfl⟩
        · cases h
      · cases h
    · cases h
  · rintro ⟨d, v, htext, hc, hv, hnewline, rfl, rfl⟩
    -- The digits end at the semicolon, so that `takeWhile` stops where the text says.
    obtain ⟨htake, hdrop⟩ := htext.digits_end
    rw [qtForm, htext.text]
    simp only
    rw [hdrop, htake]
    exact if_pos ⟨htext.nonempty, hc, hv, hnewline⟩

/-- The leftmost match is at the beginning, or nothing matches there. -/
theorem matchPattern_cases {m : List Char × Char × List Char} (h : matchPattern cs = some m) :
    matchHere cs = some m ∨ (matchHere cs = none ∧
      ∃ before suffix, before ≠ [] ∧ cs = before ++ suffix ∧ matchHere suffix = some m) := by
  induction cs with
  | nil => cases h
  | cons x cs ih =>
      rw [matchPattern] at h
      cases hhere : matchHere (x :: cs) with
      | some m' =>
          rw [hhere] at h
          exact Or.inl h
      | none =>
          rw [hhere] at h
          right
          refine ⟨rfl, ?_⟩
          -- Nothing matches here; the first match of the tail is further back.
          rcases ih h with hnext | ⟨-, before, suffix, -, hcs, hsuffix⟩
          · exact ⟨[x], cs, List.cons_ne_nil _ _, rfl, hnext⟩
          · exact ⟨x :: before, suffix, List.cons_ne_nil _ _, by rw [hcs]; rfl, hsuffix⟩

end

/-! ### White space -/

/-- A digit is no white space. -/
theorem isSpace_of_isDigit {c : Char} (h : c.isDigit = true) : isSpace c = false := by
  rw [isSpace, Bool.or_eq_false_iff]
  constructor
  · refine decide_eq_false fun hmem => ?_
    have hall : ['\t', '\n', '\x0b', '\x0c', '\r', ' ', '\x85', '\xa0', '\u1680', '\u2028',
        '\u2029', '\u202f', '\u205f', '\u3000'].all (fun x => !x.isDigit) = true := by decide
    have hc := List.all_eq_true.mp hall c hmem
    rw [h] at hc
    cases hc
  · rw [Bool.and_eq_false_iff]
    left
    refine decide_eq_false fun hle => ?_
    rw [Char.isDigit, Bool.and_eq_true, decide_eq_true_eq, decide_eq_true_eq] at h
    exact absurd (UInt32.le_trans hle h.2) (by decide)

/-- What is no white space stays. -/
theorem mem_dropWhile_iff {α : Type*} {p : α → Bool} {a : α} (ha : p a = false) (l : List α) :
    a ∈ l.dropWhile p ↔ a ∈ l := by
  have hsplit : l.takeWhile p ++ l.dropWhile p = l := List.takeWhile_append_dropWhile
  constructor
  · exact fun h => (List.dropWhile_suffix p).mem h
  · intro h
    rw [← hsplit, List.mem_append] at h
    refine h.resolve_left fun htake => ?_
    cases ha.symm.trans (List.mem_takeWhile_imp htake)

theorem mem_trimSpace_iff {c : Char} (hc : isSpace c = false) (s : String) :
    c ∈ (trimSpace s).toList ↔ c ∈ s.toList := by
  rw [trimSpace, String.toList_ofList, List.mem_reverse, mem_dropWhile_iff hc, List.mem_reverse,
    mem_dropWhile_iff hc]

/-- A text without white space is trimmed. -/
theorem trimSpace_of_digits {ds : List Char} (h : ∀ x ∈ ds, x.isDigit = true) :
    trimSpace (String.ofList ds) = String.ofList ds := by
  have hkeep : ∀ l : List Char, (∀ x ∈ l, x.isDigit = true) → l.dropWhile isSpace = l := by
    intro l hl
    cases l with
    | nil => rfl
    | cons x l =>
        rw [List.dropWhile_cons_of_neg]
        rw [isSpace_of_isDigit (hl x (List.mem_cons_self ..))]
        exact Bool.false_ne_true
  rw [trimSpace, String.toList_ofList, hkeep ds h,
    hkeep ds.reverse fun x hx => h x (List.mem_reverse.mp hx), List.reverse_reverse]

/-! ### What each reader makes of a text -/

/-- The first semicolon of a text is in one place. -/
theorem append_semicolon_inj {a a' b b' : List Char} (ha : ';' ∉ a) (ha' : ';' ∉ a')
    (h : a ++ ';' :: b = a' ++ ';' :: b') : a = a' ∧ b = b' := by
  induction a generalizing a' with
  | nil =>
      cases a' with
      | nil => exact ⟨rfl, (List.cons.inj h).2⟩
      | cons x a' => exact absurd ((List.cons.inj h).1 ▸ List.mem_cons_self ..) ha'
  | cons x a ih =>
      cases a' with
      | nil => exact absurd ((List.cons.inj h).1 ▸ List.mem_cons_self ..) ha
      | cons x' a' =>
          obtain ⟨rfl, hrest⟩ := List.cons.inj h
          obtain ⟨rfl, rfl⟩ := ih (fun hm => ha (List.mem_cons_of_mem _ hm))
            (fun hm => ha' (List.mem_cons_of_mem _ hm)) hrest
          exact ⟨rfl, rfl⟩

section
variable {native : String → Option NodeID} {text : String} {d v : List Char} {c : Char}
variable {nid : NodeID}

/-- The identifiers of the two types that both readers know, as `ParseQt` reads them. -/
def Identifies (v : List Char) (c : Char) (id : Identifier) : Prop :=
  (c = 's' ∧ id = .str (String.ofList v)) ∨
    (c = 'i' ∧ ∃ n, unsignedDecimal (trimSpace (String.ofList v)).toList = some n ∧ n < 2 ^ 32 ∧
      id = .numeric (UInt32.ofNat n))

theorem parseUint_eq_ok_iff {ds : List Char} {max m : Nat} :
    parseUint (String.ofList ds) max = .ok m ↔ unsignedDecimal ds = some m ∧ m ≤ max := by
  rw [parseUint, String.toList_ofList, unsignedDecimal_eq_some]
  split
  · rename_i hds
    simp [hds, Except.mapError]
  · rename_i hds
    have hmap : ∀ r : Except NumErr Nat,
        r.mapError (ParseErr.parseUint (String.ofList ds)) = .ok m ↔ r = .ok m := by
      intro r
      cases r <;> simp [Except.mapError]
    rw [hmap, parseDigits_eq_ok_iff (Nat.zero_le max), decimal]
    constructor
    · exact fun h => ⟨⟨⟨hds, h.1⟩, h.2.2⟩, h.2.1⟩
    · exact fun h => ⟨h.1.1.2, h.2, h.1.2⟩

/-- There is one identifier. -/
theorem Identifies.unique {id id' : Identifier} (h : Identifies v c id)
    (h' : Identifies v c id') : id = id' := by
  rcases h with ⟨rfl, rfl⟩ | ⟨rfl, n, hn, -, rfl⟩
  · rcases h' with ⟨-, rfl⟩ | ⟨hc, -⟩
    · rfl
    · cases hc
  · rcases h' with ⟨hc, -⟩ | ⟨-, n', hn', -, rfl⟩
    · cases hc
    · obtain rfl := Option.some.inj (hn.symm.trans hn')
      rfl

/-- The library reads these two types in the same way. -/
theorem NativeIdentifier.identifies {id : Identifier} (h : NativeIdentifier v c id)
    (hc : c = 's' ∨ c = 'i') : Identifies v c id := by
  rcases hc with rfl | rfl
  · exact Or.inl ⟨rfl, h⟩
  · obtain ⟨n, hn, hlt, rfl⟩ := h
    refine Or.inr ⟨rfl, n, ?_, hlt, rfl⟩
    rw [trimSpace_of_digits (unsignedDecimal_eq_some.mp hn).1.2, String.toList_ofList, hn]

/-- What the library accepts, `ParseQt` returns. -/
theorem parseQt_of_native (h : native (trimSpace text) = some nid) (hne : trimSpace text ≠ "") :
    parseQt native text = .ok nid := by
  rw [parseQt, if_neg hne, h]

/-- What neither the library nor the pattern accepts is an error. -/
theorem native_of_parseQt (h : parseQt native text = .ok nid) :
    native (trimSpace text) = some nid ∨ qtForm (trimSpace text) ≠ none := by
  rw [parseQt] at h
  split at h
  · cases h
  · cases hnative : native (trimSpace text) with
    | some nid' =>
        rw [hnative] at h
        cases h
        exact Or.inl rfl
    | none =>
        rw [hnative] at h
        refine Or.inr fun hform => ?_
        rw [hform] at h
        cases h

/-- The library reads a text in the form of the Qt bridge in the same parts. -/
theorem NativeGrammar.parts (hnative : NativeGrammar native)
    (htext : NodeIdText (trimSpace text).toList d c v)
    (h : native (trimSpace text) = some nid) :
    nid.ns.toNat = decimal d ∧ NativeIdentifier v c nid.id := by
  have hsemicolon : ';' ∈ (trimSpace text).toList := by
    rw [htext.text]
    simp
  obtain ⟨n, c', v', hform, hns, hid⟩ := hnative _ _ h hsemicolon
  rw [htext.text] at hform
  have hbody := (List.cons.inj (List.cons.inj (List.cons.inj hform).2).2).2
  have hd : ';' ∉ d := fun hm => absurd (htext.digits _ hm) (by decide)
  have hn : ';' ∉ n := not_mem_of_signedDecimal hns (by decide) (by decide) (by decide)
  obtain ⟨rfl, htail⟩ := append_semicolon_inj hd hn hbody
  obtain ⟨rfl, hvalue⟩ := List.cons.inj htail
  obtain ⟨-, rfl⟩ := List.cons.inj hvalue
  rw [signedDecimal_of_digits htext.nonempty htext.digits, Option.some.injEq] at hns
  exact ⟨(Int.ofNat.inj hns).symm, hid⟩

/-- **A text in the form of the Qt bridge** is read by `ParseQt` in one way, whatever the library
accepts. -/
theorem parseQt_of_whole (hnative : NativeGrammar native)
    (htext : NodeIdText (trimSpace text).toList d c v) (hc : c = 's' ∨ c = 'i') (hv : v ≠ [])
    (hnewline : '\n' ∉ v) (hns : decimal d < 2 ^ 16) :
    parseQt native text = .ok nid ↔
      nid.ns = UInt16.ofNat (decimal d) ∧ Identifies v c nid.id := by
  have hne : trimSpace text ≠ "" := by
    intro hempty
    have htext' := htext.text
    rw [hempty] at htext'
    cases htext'
  cases haccepts : native (trimSpace text) with
  | some nid' =>
      -- The library accepts the text. Its namespace and identifier are then those of the text.
      obtain ⟨hns', hid'⟩ := hnative.parts htext haccepts
      have hns' : nid'.ns = UInt16.ofNat (decimal d) := by
        rw [← hns', UInt16.ofNat_toNat]
      rw [parseQt_of_native haccepts hne, Except.ok.injEq]
      constructor
      · rintro rfl
        exact ⟨hns', hid'.identifies hc⟩
      · rintro ⟨hsame, hid⟩
        obtain ⟨ns, id⟩ := nid
        obtain ⟨ns', id'⟩ := nid'
        rw [NodeID.mk.injEq]
        exact ⟨hns'.trans hsame.symm, (hid'.identifies hc).unique hid⟩
  | none =>
      -- The library does not, and the pattern of the Qt bridge takes over.
      have hform : qtForm (trimSpace text) = some (String.ofList d, c, String.ofList v) :=
        qtForm_eq_some_iff.mpr ⟨d, v, htext, hc, hv, hnewline, rfl, rfl⟩
      have hnamespace : parseUint (String.ofList d) 0xffff = .ok (decimal d) :=
        parseUint_eq_ok_iff.mpr ⟨unsignedDecimal_eq_some.mpr ⟨⟨htext.nonempty, htext.digits⟩, rfl⟩,
          by omega⟩
      rw [parseQt, if_neg hne, haccepts]
      simp only [hform, hnamespace]
      obtain ⟨ns, id⟩ := nid
      rcases hc with rfl | rfl
      · show Except.ok _ = Except.ok _ ↔ _
        simp [Identifies, eq_comm]
      · have hnumber : ∀ n, parseUint (trimSpace (String.ofList v)) 0xffffffff = .ok n ↔
            unsignedDecimal (trimSpace (String.ofList v)).toList = some n ∧ n ≤ 0xffffffff := by
          intro n
          rw [← parseUint_eq_ok_iff, String.ofList_toList]
        simp only [Except.bind, bind, if_true]
        cases hparse : parseUint (trimSpace (String.ofList v)) 0xffffffff with
        | error e =>
            constructor
            · exact nofun
            · rintro ⟨-, ⟨hs, -⟩ | ⟨-, n, hn, hlt, -⟩⟩
              · cases hs
              · cases hparse.symm.trans ((hnumber n).mpr ⟨hn, by omega⟩)
        | ok n =>
            obtain ⟨hn, hle⟩ := (hnumber n).mp hparse
            have hread : Identifies v 'i' (.numeric (UInt32.ofNat n)) :=
              Or.inr ⟨rfl, n, hn, by omega, rfl⟩
            show Except.ok _ = Except.ok _ ↔ _
            rw [Except.ok.injEq, NodeID.mk.injEq]
            constructor
            · rintro ⟨rfl, rfl⟩
              exact ⟨rfl, hread⟩
            · rintro ⟨hns', hid⟩
              exact ⟨hns'.symm, hread.unique hid⟩

/-- What the Qt bridge makes of a match. -/
theorem parseNodeId_of_match (hmatch : matchPattern (trimSpace text).toList = some (d, c, v))
    (hd : d ≠ []) (hdigits : ∀ x ∈ d, x.isDigit = true) (h : parseNodeId text = some nid) :
    decimal d < 2 ^ 16 ∧ nid.ns = UInt16.ofNat (decimal d) ∧
      ((c = 's' ∧ nid.id = .str (String.ofList (v.takeWhile (fun c => c ≠ '\x00')))) ∨
        (c = 'i' ∧ ∃ num, toInt (String.ofList v) = some num ∧
          nid.id = .numeric (UInt32.ofInt num))) := by
  have hlong : toLongLong (String.ofList d) = some (decimal d : Int) := by
    rw [toLongLong, trimSpace_of_digits hdigits, String.toList_ofList,
      signedDecimal_of_digits hd hdigits]
  rw [parseNodeId, hmatch] at h
  simp only [Option.bind_eq_bind, Option.bind_some] at h
  obtain ⟨ns, hns, h⟩ := Option.bind_eq_some_iff.mp h
  -- `toUShort` fails from 2^16 on, and then there is no node id.
  obtain ⟨hlt, rfl⟩ : decimal d < 2 ^ 16 ∧ decimal d = ns := by
    rw [toUShort, hlong, Option.bind_some] at hns
    split at hns
    · rename_i hrange
      exact ⟨by omega, by simpa using hns⟩
    · cases hns
  refine ⟨hlt, ?_⟩
  split at h
  · rename_i hs
    obtain rfl := Option.some.inj h
    exact ⟨rfl, Or.inl ⟨hs, rfl⟩⟩
  · split at h
    · rename_i hi
      obtain ⟨num, hnum, hnid⟩ := Option.bind_eq_some_iff.mp h
      obtain rfl := Option.some.inj hnid
      exact ⟨rfl, Or.inr ⟨hi, num, hnum, rfl⟩⟩
    · cases h

/-! ### Where they agree -/

/-- The whole text, without the white space around it, is a node id of one of the two types. A
string has no NUL, and a number no sign. -/
def Plain (text : String) : Prop := ∃ d c v, NodeIdText (trimSpace text).toList d c v ∧
  (c = 's' ∨ c = 'i') ∧ v ≠ [] ∧ '\n' ∉ v ∧ (c = 's' → '\x00' ∉ v) ∧
  (c = 'i' → '+' ∉ v ∧ '-' ∉ v)

/-- A number that the Qt bridge reads is read by `ParseQt` when it has no sign, and only then. -/
theorem identifies_number_iff {num : Int} (hnum : toInt (String.ofList v) = some num) :
    Identifies v 'i' (.numeric (UInt32.ofInt num)) ↔ '+' ∉ v ∧ '-' ∉ v := by
  obtain ⟨z, hz, hrange⟩ := Option.bind_eq_some_iff.mp hnum
  -- Trimming takes no sign away.
  have hmem : ∀ c, isSpace c = false →
      (c ∈ (trimSpace (String.ofList v)).toList ↔ c ∈ v) := by
    intro c hc
    rw [mem_trimSpace_iff hc, String.toList_ofList]
  rw [← hmem '+' (by decide), ← hmem '-' (by decide)]
  obtain ⟨ds, n, hds, hcases⟩ := signedDecimal_cases hz
  have hdigits := (unsignedDecimal_eq_some.mp hds).1.2
  constructor
  · rintro (⟨hs, -⟩ | ⟨-, m, hm, -⟩)
    · cases hs
    · have hall := (unsignedDecimal_eq_some.mp hm).1.2
      exact ⟨fun h => absurd (hall _ h) (by decide), fun h => absurd (hall _ h) (by decide)⟩
  · rintro ⟨hplus, hminus⟩
    -- `toInt` reads digits, or digits after a sign, which is excluded here.
    rcases hcases with ⟨htrim, rfl⟩ | ⟨htrim, -⟩ | ⟨htrim, -⟩
    · split at hrange
      · rename_i hint
        obtain rfl := Option.some.inj hrange
        refine Or.inr ⟨rfl, n, htrim ▸ hds, by omega, ?_⟩
        have hmod : ((n : Int) % 2 ^ 32).toNat = n := by omega
        rw [UInt32.ofInt, hmod]
      · cases hrange
    · exact absurd (htrim ▸ List.mem_cons_self ..) hplus
    · exact absurd (htrim ▸ List.mem_cons_self ..) hminus

/-- A string that the Qt bridge reads is read by `ParseQt` when it has no NUL, and only then. -/
theorem identifies_string_iff :
    Identifies v 's' (.str (String.ofList (v.takeWhile (fun c => c ≠ '\x00')))) ↔
      '\x00' ∉ v := by
  have hkeep : v.takeWhile (fun c => c ≠ '\x00') = v ↔ '\x00' ∉ v := by
    rw [List.takeWhile_eq_self_iff]
    constructor
    · intro h hmem
      simpa using h _ hmem
    · intro h x hx
      exact decide_eq_true fun he => h (he ▸ hx)
  rw [← hkeep]
  constructor
  · rintro (⟨-, hid⟩ | ⟨hi, -⟩)
    · exact String.ofList_injective (Identifier.str.inj hid)
    · cases hi
  · intro h
    exact Or.inl ⟨rfl, by rw [h]⟩

/-- A text has one such form. -/
theorem NodeIdText.unique {cs d' v' : List Char} {c' : Char} (h : NodeIdText cs d c v)
    (h' : NodeIdText cs d' c' v') : d = d' ∧ c = c' ∧ v = v' := by
  have hbody := (List.cons.inj (List.cons.inj (List.cons.inj (h.text.symm.trans h'.text)).2).2).2
  have hno : ∀ {d : List Char}, (∀ x ∈ d, x.isDigit = true) → ';' ∉ d :=
    fun hd hm => absurd (hd _ hm) (by decide)
  obtain ⟨hd, htail⟩ := append_semicolon_inj (hno h.digits) (hno h'.digits) hbody
  obtain ⟨hc, hvalue⟩ := List.cons.inj htail
  exact ⟨hd, hc, (List.cons.inj hvalue).2⟩

/-- Of a text in the form of the Qt bridge, only the identifier matters. -/
theorem plain_iff (htext : NodeIdText (trimSpace text).toList d c v) : Plain text ↔
    (c = 's' ∨ c = 'i') ∧ v ≠ [] ∧ '\n' ∉ v ∧ (c = 's' → '\x00' ∉ v) ∧
      (c = 'i' → '+' ∉ v ∧ '-' ∉ v) := by
  constructor
  · rintro ⟨d', c', v', htext', hrest⟩
    obtain ⟨rfl, rfl, rfl⟩ := htext.unique htext'
    exact hrest
  · exact fun h => ⟨d, c, v, htext, h⟩

/-- What the pattern of `ParseQt` matches, the one of the Qt bridge matches at the beginning. -/
theorem matchHere_ne_none {cs : List Char} (htext : NodeIdText cs d c v)
    (hc : c = 's' ∨ c = 'i') (hv : v ≠ []) (hnewline : '\n' ∉ v) : matchHere cs ≠ none := by
  have hkeep : v.takeWhile (fun c => c ≠ '\n') = v := by
    rw [List.takeWhile_eq_self_iff]
    exact fun x hx => decide_eq_true fun he => hnewline (he ▸ hx)
  have hsome := matchHere_eq_some_iff.mpr ⟨v, htext, by rcases hc with rfl | rfl <;> simp,
    hkeep.symm, hv⟩
  rw [hsome]
  exact nofun

/-- The library gives a string for a string. -/
theorem NativeIdentifier.of_str {s : String} (h : NativeIdentifier v c (.str s)) :
    s = String.ofList v := by
  unfold NativeIdentifier at h
  split at h
  · obtain ⟨n, -, -, hid⟩ := h
    cases hid
  · exact Identifier.str.inj h
  · obtain ⟨g, hid⟩ := h
    cases hid
  · obtain ⟨b, hid⟩ := h
    cases hid
  · exact h.elim

/-- The library gives a number for digits. -/
theorem NativeIdentifier.of_numeric {n : UInt32} (h : NativeIdentifier v c (.numeric n)) :
    ∀ x ∈ v, x.isDigit = true := by
  unfold NativeIdentifier at h
  split at h
  · obtain ⟨n, hn, -, -⟩ := h
    exact (unsignedDecimal_eq_some.mp hn).1.2
  · cases h
  · obtain ⟨g, hid⟩ := h
    cases hid
  · obtain ⟨b, hid⟩ := h
    cases hid
  · exact h.elim

/-- The identifier that the Qt bridge reads in `v` is none that the library reads in a text with
more than that: a longer string, or one with a character that is no digit. -/
theorem not_nativeIdentifier_of_longer {id : Identifier} {x c' : Char} {v' : List Char}
    (hid : (c = 's' ∧ id = .str (String.ofList (v.takeWhile (fun c => c ≠ '\x00')))) ∨
      (c = 'i' ∧ ∃ num, toInt (String.ofList v) = some num ∧ id = .numeric (UInt32.ofInt num)))
    (hlong : v.length < v'.length) (hx : x ∈ v') (hdigit : x.isDigit = false) :
    ¬ NativeIdentifier v' c' id := by
  intro h
  rcases hid with ⟨-, rfl⟩ | ⟨-, num, -, rfl⟩
  · have hsame := String.ofList_injective h.of_str
    have hle : (v.takeWhile (fun c => c ≠ '\x00')).length ≤ v.length :=
      (List.takeWhile_sublist _).length_le
    rw [hsame] at hle
    omega
  · cases hdigit.symm.trans (h.of_numeric x hx)

/-- The library does not read the node id that begins later in a text. -/
theorem not_native_of_later (hnative : NativeGrammar native) {before suffix rest : List Char}
    (hbefore : before ≠ []) (hcs : (trimSpace text).toList = before ++ suffix)
    (hsuffix : NodeIdText suffix d c rest) (hv : v.length ≤ rest.length)
    (hid : (c = 's' ∧ nid.id = .str (String.ofList (v.takeWhile (fun c => c ≠ '\x00')))) ∨
      (c = 'i' ∧ ∃ num, toInt (String.ofList v) = some num ∧
        nid.id = .numeric (UInt32.ofInt num))) :
    native (trimSpace text) ≠ some nid := by
  intro h
  have hsemicolon : ';' ∈ (trimSpace text).toList := by
    rw [hcs, hsuffix.text]
    simp
  obtain ⟨n, c', v', hform, hns, hident⟩ := hnative _ _ h hsemicolon
  have hsplit : before ++ suffix = ('n' :: 's' :: '=' :: (n ++ [';', c', '='])) ++ v' := by
    rw [← hcs, hform]
    simp
  have hvalue : ∀ a, v' ≠ a ++ suffix := by
    intro a ha
    have hlen := congrArg List.length ha
    rw [List.length_append, hsuffix.text] at hlen
    simp only [List.length_cons, List.length_append] at hlen
    refine not_nativeIdentifier_of_longer hid (by omega) ?_ (by decide : Char.isDigit 'n' = false)
      hident
    rw [ha, hsuffix.text]
    simp
  rcases List.append_eq_append_iff.mp hsplit with ⟨a, hhead, hsuf⟩ | ⟨a, -, hval⟩
  · cases a with
    | nil => exact hvalue [] hsuf.symm
    | cons x a =>
        -- The namespace of the library would have the letter that the later text begins with.
        obtain rfl : 'n' = x := by
          rw [hsuffix.text] at hsuf
          exact (List.cons.inj hsuf).1
        obtain ⟨y, b, rfl⟩ := List.exists_cons_of_ne_nil hbefore
        have htail := (List.cons.inj hhead).2
        have hmem : 'n' ∈ 's' :: '=' :: (n ++ [';', c', '=']) := by
          rw [htail]
          simp
        have hn : 'n' ∉ n := not_mem_of_signedDecimal hns (by decide) (by decide) (by decide)
        have hc' : 'n' ≠ c' := by
          rintro rfl
          exact hident
        simp [hn, hc'] at hmem
  · exact hvalue a hval

/-- **The extent of it.** A text that the Qt bridge accepts is read by `ParseQt` in the same way
exactly when all of it, without the white space around it, is a node id in the form that both know,
with no NUL in a string and no sign before a number. -/
theorem parseQt_agrees_iff (hnative : NativeGrammar native) (h : parseNodeId text = some nid) :
    parseQt native text = .ok nid ↔ Plain text := by
  obtain ⟨⟨d, c, v⟩, hmatch, -⟩ := Option.bind_eq_some_iff.mp h
  rcases matchPattern_cases hmatch with hhere | ⟨hnone, before, suffix, hbefore, hcs, hsuffix⟩
  · obtain ⟨rest, htext, -, hv, hvne⟩ := matchHere_eq_some_iff.mp hhere
    obtain ⟨hlt, hns, hid⟩ := parseNodeId_of_match hmatch htext.nonempty htext.digits h
    have hc : c = 's' ∨ c = 'i' := hid.imp And.left And.left
    by_cases hnewline : '\n' ∈ rest
    · -- The Qt bridge has read up to the newline only.
      have hlong : v.length < rest.length := by
        have hprefix : v <+: rest := hv ▸ List.takeWhile_prefix _
        refine Nat.lt_of_le_of_ne hprefix.length_le fun hlen => ?_
        have hmem : '\n' ∈ rest.takeWhile (fun c => c ≠ '\n') := by
          rw [← hv, hprefix.eq_of_length hlen]
          exact hnewline
        simpa using List.mem_takeWhile_imp hmem
      refine iff_of_false (fun hparse => ?_) fun hplain => ?_
      · rcases native_of_parseQt hparse with haccepts | hform
        · exact not_nativeIdentifier_of_longer hid hlong hnewline (by decide)
            (hnative.parts htext haccepts).2
        · obtain ⟨⟨digits, c', value⟩, hsome⟩ := Option.ne_none_iff_exists'.mp hform
          obtain ⟨d', v', htext', -, -, hno, -⟩ := qtForm_eq_some_iff.mp hsome
          obtain ⟨-, -, rfl⟩ := htext.unique htext'
          exact hno hnewline
      · exact ((plain_iff htext).mp hplain).2.2.1 hnewline
    · have hkeep : rest.takeWhile (fun c => c ≠ '\n') = rest := by
        rw [List.takeWhile_eq_self_iff]
        exact fun x hx => decide_eq_true fun he => hnewline (he ▸ hx)
      rw [hkeep] at hv
      subst hv
      rw [parseQt_of_whole hnative htext hc hvne hnewline hlt, plain_iff htext, and_iff_right hns,
        and_iff_right hc, and_iff_right hvne, and_iff_right hnewline]
      rcases hid with ⟨rfl, hid⟩ | ⟨rfl, num, hnum, hid⟩
      · rw [hid, identifies_string_iff]
        simp
      · rw [hid, identifies_number_iff hnum]
        simp
  · obtain ⟨rest, htext, -, hv, -⟩ := matchHere_eq_some_iff.mp hsuffix
    obtain ⟨-, -, hid⟩ := parseNodeId_of_match hmatch htext.nonempty htext.digits h
    have hle : v.length ≤ rest.length := by
      rw [hv]
      exact (List.takeWhile_sublist _).length_le
    refine iff_of_false (fun hparse => ?_) ?_
    · rcases native_of_parseQt hparse with haccepts | hform
      · exact not_native_of_later hnative hbefore hcs htext hle hid haccepts
      · obtain ⟨⟨digits, c', value⟩, hsome⟩ := Option.ne_none_iff_exists'.mp hform
        obtain ⟨d', v', htext', hc', hv', hno, -⟩ := qtForm_eq_some_iff.mp hsome
        exact matchHere_ne_none htext' hc' hv' hno hnone
    · rintro ⟨d', c', v', htext', hc', hv', hno, -⟩
      exact matchHere_ne_none htext' hc' hv' hno hnone

end

/-- A library that accepts one node id. -/
def nativeHello (s : String) : Option NodeID :=
  if s = "ns=2;s=Hello" then some ⟨2, .str "Hello"⟩ else none

theorem nativeGrammar_hello : NativeGrammar nativeHello := by
  intro s nid h _
  rw [nativeHello] at h
  split at h
  · rename_i hs
    obtain rfl := Option.some.inj h
    exact ⟨['2'], 's', "Hello".toList, by rw [hs]; rfl, rfl, rfl⟩
  · cases h

/-- A node id of the tests, with white space around it. -/
theorem parseQt_agrees_hello : parseNodeId " ns=2;s=Hello\n" = some ⟨2, .str "Hello"⟩ ∧
    parseQt nativeHello " ns=2;s=Hello\n" = .ok ⟨2, .str "Hello"⟩ := by
  have hqt : parseNodeId " ns=2;s=Hello\n" = some ⟨2, .str "Hello"⟩ := by decide
  have htext : NodeIdText (trimSpace " ns=2;s=Hello\n").toList ['2'] 's' "Hello".toList :=
    ⟨by decide, by decide, by simp⟩
  refine ⟨hqt, (parseQt_agrees_iff nativeGrammar_hello hqt).mpr ((plain_iff htext).mpr ?_)⟩
  exact ⟨Or.inl rfl, by decide, by decide, fun _ => by decide, nofun⟩

/-- A sign, and text before the node id: the Qt bridge reads both, and `ParseQt` neither. -/
theorem not_parseQt_agrees_sign :
    (parseNodeId "ns=2;i=+5" = some ⟨2, .numeric 5⟩ ∧
      parseQt nativeHello "ns=2;i=+5" = .error (.parseUint "+5" .syn)) ∧
    parseNodeId "Node ns=2;i=5" = some ⟨2, .numeric 5⟩ ∧
      parseQt nativeHello "Node ns=2;i=5" = .error .invalid := by
  refine ⟨⟨?_, ?_⟩, ?_, ?_⟩ <;> decide

end SmartFactory.Bridge
