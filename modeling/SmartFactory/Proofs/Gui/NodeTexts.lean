import SmartFactory.Proofs.Gui.NodeSelection
import SmartFactory.Proofs.Bridge.NodeIdTexts
import SmartFactory.Proofs.Bridge.ConfigFormat

/-!
# `SmartFactory.Proofs.Gui.NodeTexts`: from a node that is picked to a node that is read

The dialog puts the text of a node into the table, as `UA_NodeId_print` shows it, and the engine
parses this text when it connects. `parseNodeId_shown_iff` says which node ids come back: the
pattern asks for a namespace, so no node id of namespace 0 does.

`picked_resolves` carries this on. A node whose id comes back is what the engine reads for the row.
When the configuration is saved, the Go bridge loads it and reads the same node.
-/

set_option autoImplicit false

namespace SmartFactory.Gui

open Bridge

/-! ### Node ids in text -/

/-- A match begins with an `n`. -/
theorem mem_of_matchHere {cs : List Char} {m : List Char × Char × List Char}
    (h : matchHere cs = some m) : 'n' ∈ cs := by
  obtain ⟨rest, htext, -⟩ := matchHere_eq_some_iff.mp h
  rw [htext.text]
  exact List.mem_cons_self ..

/-- A text that matches contains an `n`. -/
theorem mem_of_matchPattern {cs : List Char} {m : List Char × Char × List Char}
    (h : matchPattern cs = some m) : 'n' ∈ cs := by
  rcases matchPattern_cases h with hm | ⟨-, before, suffix, -, rfl, hm⟩
  · exact mem_of_matchHere hm
  · exact List.mem_append_right before (mem_of_matchHere hm)

/-- What is captured is at least seven characters shorter than the text. -/
theorem length_of_matchPattern {cs d v : List Char} {c : Char}
    (h : matchPattern cs = some (d, c, v)) : v.length + 7 ≤ cs.length := by
  have hhere {cs : List Char} (h : matchHere cs = some (d, c, v)) : v.length + 7 ≤ cs.length := by
    obtain ⟨rest, htext, -, rfl, -⟩ := matchHere_eq_some_iff.mp h
    have hd := List.length_pos_iff.mpr htext.nonempty
    have hv := (List.takeWhile_sublist (fun c => decide (c ≠ '\n')) (l := rest)).length_le
    rw [htext.text]
    simp only [List.length_cons, List.length_append]
    omega
  rcases matchPattern_cases h with hm | ⟨-, before, suffix, -, rfl, hm⟩
  · exact hhere hm
  · have hle := hhere hm
    rw [List.length_append]
    omega

/-- The text of a node id with a namespace is matched as a whole. -/
theorem matchPattern_shown {c : Char} {v : List Char} (ns : UInt16) (hc : c = 's' ∨ c = 'i')
    (hv : v ≠ []) (hline : '\n' ∉ v) :
    matchPattern ('n' :: 's' :: '=' :: (Nat.toDigits 10 ns.toNat ++ ';' :: c :: '=' :: v))
      = some (Nat.toDigits 10 ns.toNat, c, v) := by
  have hall : v.takeWhile (fun c => decide (c ≠ '\n')) = v :=
    List.takeWhile_eq_self_iff.mpr fun x hx => decide_eq_true fun hx' => hline (hx' ▸ hx)
  have hmem : c ∈ ['s', 'i', 'g', 'b'] := by
    rcases hc with rfl | rfl
    · decide
    · decide
  have hhere : matchHere
      ('n' :: 's' :: '=' :: (Nat.toDigits 10 ns.toNat ++ ';' :: c :: '=' :: v))
        = some (Nat.toDigits 10 ns.toNat, c, v) :=
    matchHere_eq_some_iff.mpr ⟨v, ⟨rfl, Nat.toDigits_ne_nil, isDigit_toDigits ns.toNat⟩, hmem,
      hall.symm, hv⟩
  rw [matchPattern, hhere]

/-- The digits of a namespace are read as the namespace. -/
theorem toUShort_toDigits (ns : UInt16) :
    toUShort (String.ofList (Nat.toDigits 10 ns.toNat)) = some ns.toNat := by
  have hlt := ns.toNat_lt
  rw [toUShort, toLongLong, trimSpace_of_digits (isDigit_toDigits _), String.toList_ofList,
    signedDecimal_of_digits Nat.toDigits_ne_nil (isDigit_toDigits _), decimal_toDigits,
    Option.bind_some, if_pos (by omega), Int.toNat_natCast]

/-- The digits of a number are read when it fits into an `int`. -/
theorem toInt_toDigits (n : Nat) :
    toInt (String.ofList (Nat.toDigits 10 n)) = if n < 2 ^ 31 then some (n : Int) else none := by
  rw [toInt, toLongLong, trimSpace_of_digits (isDigit_toDigits _), String.toList_ofList,
    signedDecimal_of_digits Nat.toDigits_ne_nil (isDigit_toDigits _), decimal_toDigits,
    Option.bind_some]
  by_cases h : n < 2 ^ 31
  · rw [if_pos h, if_pos (by omega)]
  · rw [if_neg h, if_neg (by omega)]

/-- A number with a namespace. -/
theorem parseNodeId_number (ns : UInt16) (n : UInt32) :
    parseNodeId (String.ofList ('n' :: 's' :: '=' ::
        (Nat.toDigits 10 ns.toNat ++ ';' :: 'i' :: '=' :: Nat.toDigits 10 n.toNat)))
      = if n.toNat < 2 ^ 31 then some ⟨ns, .numeric n⟩ else none := by
  have htrim := trimSpace_shown (c := 'n') (by decide)
    ('s' :: '=' :: (Nat.toDigits 10 ns.toNat ++ [';', 'i'])) (Nat.toDigits 10 n.toNat)
  simp only [List.cons_append, List.append_assoc, List.nil_append, trimEnd_toDigits] at htrim
  have hmatch := matchPattern_shown ns (Or.inr rfl) (Nat.toDigits_ne_nil (n := n.toNat))
    (not_mem_toDigits (by decide) _)
  rw [parseNodeId, htrim, String.toList_ofList, hmatch]
  simp only [Option.bind_eq_bind, Option.bind_some, toUShort_toDigits, toInt_toDigits,
    UInt16.ofNat_toNat]
  rw [if_neg (by decide), if_pos trivial]
  by_cases h : n.toNat < 2 ^ 31
  · -- `toInt` reads numbers below 2^31 only, and these are cast back to themselves.
    have hcast : UInt32.ofInt (n.toNat : Int) = n := by
      have hlt := n.toNat_lt
      have hmod : ((n.toNat : Int) % 2 ^ 32).toNat = n.toNat := by omega
      rw [UInt32.ofInt, hmod, UInt32.ofNat_toNat]
    rw [if_pos h, if_pos h, Option.bind_some, hcast]
  · rw [if_neg h, if_neg h, Option.bind_none]

/-- A string with a namespace, in one line. -/
theorem parseNodeId_string (ns : UInt16) {v : List Char} (hv : trimEnd v ≠ [])
    (hline : '\n' ∉ trimEnd v) :
    parseNodeId (String.ofList ('n' :: 's' :: '=' ::
        (Nat.toDigits 10 ns.toNat ++ ';' :: 's' :: '=' :: v)))
      = some ⟨ns, .str (String.ofList ((trimEnd v).takeWhile (fun c => c ≠ '\x00')))⟩ := by
  have htrim := trimSpace_shown (c := 'n') (by decide)
    ('s' :: '=' :: (Nat.toDigits 10 ns.toNat ++ [';', 's'])) v
  simp only [List.cons_append, List.append_assoc, List.nil_append] at htrim
  have hmatch := matchPattern_shown ns (Or.inl rfl) hv hline
  rw [parseNodeId, htrim, String.toList_ofList, hmatch]
  simp only [Option.bind_eq_bind, Option.bind_some, toUShort_toDigits, UInt16.ofNat_toNat, if_true]

/-- A string is a part of what has been captured, up to a NUL. -/
theorem captured_of_parseNodeId {text s : String} {ns : UInt16}
    (h : parseNodeId text = some ⟨ns, .str s⟩) : ∃ d v,
    matchPattern (trimSpace text).toList = some (d, 's', v) ∧ '\n' ∉ v ∧
      s.toList = v.takeWhile (fun c => c ≠ '\x00') := by
  rw [parseNodeId] at h
  obtain ⟨⟨d, c, v⟩, hmatch, h⟩ := Option.bind_eq_some_iff.mp h
  obtain ⟨n, -, h⟩ := Option.bind_eq_some_iff.mp h
  have hline : '\n' ∉ v := by
    -- The last group is `.+`, which a newline ends.
    have hhere {cs : List Char} (h : matchHere cs = some (d, c, v)) : '\n' ∉ v := by
      obtain ⟨rest, -, -, rfl, -⟩ := matchHere_eq_some_iff.mp h
      intro hmem
      have hne := List.mem_takeWhile_imp hmem
      simp at hne
    rcases matchPattern_cases hmatch with hm | ⟨-, before, suffix, -, -, hm⟩
    · exact hhere hm
    · exact hhere hm
  split at h
  · rename_i hc
    have heq := Option.some.inj h
    rw [NodeID.mk.injEq, Identifier.str.injEq] at heq
    subst hc
    exact ⟨d, v, hmatch, hline, by rw [← heq.2, String.toList_ofList]⟩
  · split at h
    · obtain ⟨num, -, h⟩ := Option.bind_eq_some_iff.mp h
      cases h
    · cases h

/-- Trimming only drops characters. -/
theorem trimEnd_sublist (v : List Char) : (trimEnd v).Sublist v := by
  have hsub := (List.dropWhile_sublist isSpace (l := v.reverse)).reverse
  rwa [List.reverse_reverse] at hsub

/-- Nothing matches when nothing but white space is left. -/
theorem parseNodeId_blank (ns : UInt16) {v : List Char} (hv : trimEnd v = []) :
    parseNodeId (String.ofList ('n' :: 's' :: '=' ::
        (Nat.toDigits 10 ns.toNat ++ ';' :: 's' :: '=' :: v))) = none := by
  have htrim := trimSpace_shown (c := 'n') (by decide)
    ('s' :: '=' :: (Nat.toDigits 10 ns.toNat ++ [';', 's'])) v
  simp only [List.cons_append, List.append_assoc, List.nil_append, hv] at htrim
  rw [parseNodeId, htrim, String.toList_ofList]
  cases hmatch : matchPattern
      ('n' :: 's' :: '=' :: (Nat.toDigits 10 ns.toNat ++ [';', 's', '='])) with
  | none => rfl
  | some m =>
      exfalso
      rcases matchPattern_cases hmatch with hm | ⟨-, before, suffix, hbefore, hsplit, hm⟩
      · obtain ⟨rest, htext, -, hcaptured, hne⟩ := matchHere_eq_some_iff.mp hm
        have hthis : NodeIdText ('n' :: 's' :: '=' :: (Nat.toDigits 10 ns.toNat ++ [';', 's', '=']))
            (Nat.toDigits 10 ns.toNat) 's' [] :=
          ⟨rfl, Nat.toDigits_ne_nil, isDigit_toDigits ns.toNat⟩
        obtain ⟨-, -, hrest⟩ := htext.unique hthis
        rw [hrest] at hcaptured
        exact hne hcaptured
      · -- There is no other `n` in the text.
        obtain ⟨c, before, rfl⟩ := List.exists_cons_of_ne_nil hbefore
        have htail := (List.cons.inj hsplit).2
        have hn : 'n' ∈ 's' :: '=' :: (Nat.toDigits 10 ns.toNat ++ [';', 's', '=']) := by
          rw [htail]
          exact List.mem_append_right before (mem_of_matchHere hm)
        have hdigits := not_mem_toDigits (c := 'n') (by decide) ns.toNat
        simp [hdigits] at hn

/-- The node ids whose text the bridge reads. -/
def Readable : NodeID → Prop
  | ⟨ns, .numeric n⟩ => ns ≠ 0 ∧ n.toNat < 2 ^ 31
  | ⟨ns, .str s⟩ => ns ≠ 0 ∧ s ≠ "" ∧ '\n' ∉ s.toList ∧ '\x00' ∉ s.toList ∧
      ¬ EndsInSpace s.toList
  | _ => False

/-- Which numeric ids come back. -/
theorem parseNodeId_shown_numeric (ns : UInt16) (n : UInt32) :
    parseNodeId (String.ofList (shownText ns ('i' :: '=' :: Nat.toDigits 10 n.toNat)))
      = some ⟨ns, .numeric n⟩ ↔ ns ≠ 0 ∧ n.toNat < 2 ^ 31 := by
  rw [shownText]
  by_cases hns : ns = 0
  · rw [if_pos hns]
    refine iff_of_false (fun h => ?_) fun h => h.1 hns
    -- Without a namespace there is no `n` in the text.
    have htrim := trimSpace_shown (c := 'i') (by decide) [] (Nat.toDigits 10 n.toNat)
    simp only [List.nil_append, trimEnd_toDigits] at htrim
    rw [parseNodeId, htrim, String.toList_ofList] at h
    obtain ⟨m, hmatch, -⟩ := Option.bind_eq_some_iff.mp h
    have hmem := mem_of_matchPattern hmatch
    have hdigits := not_mem_toDigits (c := 'n') (by decide) n.toNat
    simp [hdigits] at hmem
  · rw [if_neg hns, parseNodeId_number]
    simp [hns]

/-- Which string ids come back. -/
theorem parseNodeId_shown_str (ns : UInt16) (s : String) :
    parseNodeId (String.ofList (shownText ns ('s' :: '=' :: s.toList))) = some ⟨ns, .str s⟩ ↔
      Readable ⟨ns, .str s⟩ := by
  constructor
  · intro h
    obtain ⟨d, v, hmatch, hline, hs⟩ := captured_of_parseNodeId h
    have hlength : s.toList.length ≤ v.length :=
      hs ▸ (List.takeWhile_sublist (fun c => decide (c ≠ '\x00'))).length_le
    have hshort := length_of_matchPattern hmatch
    have hsub := trimEnd_sublist s.toList
    have hend := hsub.length_le
    by_cases hns : ns = 0
    · -- What is captured is too short.
      have htrim := trimSpace_shown (c := 's') (by decide) [] s.toList
      rw [List.nil_append, List.nil_append] at htrim
      rw [shownText, if_pos hns, htrim, String.toList_ofList] at hshort
      simp only [List.length_cons] at hshort
      omega
    · rw [shownText, if_neg hns] at h
      have hne : trimEnd s.toList ≠ [] := fun hnil => by
        rw [parseNodeId_blank ns hnil] at h
        cases h
      have hnul : '\x00' ∉ s.toList := fun hmem => by
        have hpos := List.mem_takeWhile_imp (hs ▸ hmem)
        simp at hpos
      have hsline : '\n' ∉ s.toList := fun hmem =>
        hline ((List.takeWhile_sublist _).subset (hs ▸ hmem))
      rw [parseNodeId_string ns hne fun hmem => hsline (hsub.subset hmem)] at h
      have hread : (trimEnd s.toList).takeWhile (fun c => decide (c ≠ '\x00')) = s.toList := by
        have heq := Option.some.inj h
        rw [NodeID.mk.injEq, Identifier.str.injEq] at heq
        have htext := congrArg String.toList heq.2
        rwa [String.toList_ofList] at htext
      have hle : s.toList.length ≤ (trimEnd s.toList).length := by
        have hread' := congrArg List.length hread
        have hpart := (List.takeWhile_sublist (l := trimEnd s.toList)
          (fun c => decide (c ≠ '\x00'))).length_le
        omega
      have hsame : trimEnd s.toList = s.toList := hsub.eq_of_length_le hle
      refine ⟨hns, fun hempty => hne ?_, hsline, hnul, trimEnd_eq_iff.mp hsame⟩
      rw [hsame]
      exact String.toList_eq_nil_iff.mpr hempty
  · rintro ⟨hns, hne, hline, hnul, hend⟩
    have htrim : trimEnd s.toList = s.toList := trimEnd_eq_iff.mpr hend
    have hall : s.toList.takeWhile (fun c => decide (c ≠ '\x00')) = s.toList :=
      List.takeWhile_eq_self_iff.mpr fun c hc => decide_eq_true fun hc' => hnul (hc' ▸ hc)
    rw [shownText, if_neg hns, parseNodeId_string ns, htrim, hall, String.ofList_toList]
    · rw [htrim]
      exact fun hnil => hne (String.toList_eq_nil_iff.mp hnil)
    · rw [htrim]
      exact hline

/-- What is documented of `UA_NodeId_print`, for the two types of node ids that the bridge reads. -/
structure Prints (print : NodeID → String) : Prop where
  numeric : ∀ ns n, print ⟨ns, .numeric n⟩
    = String.ofList (shownText ns ('i' :: '=' :: Nat.toDigits 10 n.toNat))
  str : ∀ ns s, print ⟨ns, .str s⟩ = String.ofList (shownText ns ('s' :: '=' :: s.toList))

/-- The texts of the model are those of the library. -/
theorem prints_showNodeID : Prints showNodeID := ⟨fun _ _ => rfl, fun _ _ => rfl⟩

/-- **Which node ids come back.** A number does when it has a namespace other than 0 and is not
larger than an `int`, and a string when it has such a namespace, is one line of text without a NUL
and does not end in white space. GUIDs and opaque ids, which `parseNodeId` does not know, are left
out. -/
theorem parseNodeId_shown_iff {print : NodeID → String} (h : Prints print) (ns : UInt16) :
    (∀ n, parseNodeId (print ⟨ns, .numeric n⟩) = some ⟨ns, .numeric n⟩ ↔
      Readable ⟨ns, .numeric n⟩) ∧
    ∀ s, parseNodeId (print ⟨ns, .str s⟩) = some ⟨ns, .str s⟩ ↔ Readable ⟨ns, .str s⟩ := by
  refine ⟨fun n => ?_, fun s => ?_⟩
  · rw [h.numeric]
    exact parseNodeId_shown_numeric ns n
  · rw [h.str]
    exact parseNodeId_shown_str ns s

/-- The id `ns=2;s=Level` comes back. -/
theorem readable_level : Readable ⟨2, .str "Level"⟩ := by
  refine ⟨by decide, by decide, by decide, by decide, ?_⟩
  rintro ⟨c, hc, hspace⟩
  have hlast : "Level".toList.getLast? = some 'l' := by decide
  obtain rfl := Option.some.inj (hlast.symm.trans hc)
  exact absurd hspace (by decide)

/-- A node of the server comes back, and the Objects folder does not. -/
theorem parseNodeId_shown_level :
    parseNodeId (showNodeID ⟨2, .str "Level"⟩) = some ⟨2, .str "Level"⟩ ∧
      parseNodeId (showNodeID ⟨0, .numeric 85⟩) ≠ some ⟨0, .numeric 85⟩ :=
  ⟨((parseNodeId_shown_iff prints_showNodeID 2).2 "Level").mpr readable_level,
    fun hback => (((parseNodeId_shown_iff prints_showNodeID 0).1 85).mp hback).1 rfl⟩

/-! ### The row of a picked node -/

/-- The text of a node id that comes back has no white space around it. -/
theorem trimSpace_print {print : NodeID → String} (h : Prints print) {id : NodeID}
    (hid : Readable id) : trimSpace (print id) = print id := by
  obtain ⟨ns, id⟩ := id
  cases id with
  | numeric n =>
      have htrim := trimSpace_shown (c := 'n') (by decide)
        ('s' :: '=' :: (Nat.toDigits 10 ns.toNat ++ [';', 'i'])) (Nat.toDigits 10 n.toNat)
      simp only [List.cons_append, List.append_assoc, List.nil_append, trimEnd_toDigits] at htrim
      rw [h.numeric, shownText, if_neg hid.1]
      exact htrim
  | str s =>
      have htrim := trimSpace_shown (c := 'n') (by decide)
        ('s' :: '=' :: (Nat.toDigits 10 ns.toNat ++ [';', 's'])) s.toList
      simp only [List.cons_append, List.append_assoc, List.nil_append] at htrim
      rw [trimEnd_eq_iff.mpr hid.2.2.2.2] at htrim
      rw [h.str, shownText, if_neg hid.1]
      exact htrim
  | guid s => cases hid
  | bytes s => cases hid

/-- A readable id is read from the text that the library prints. -/
theorem parseNodeId_print {print : NodeID → String} (h : Prints print) {id : NodeID}
    (hid : Readable id) : parseNodeId (print id) = some id := by
  obtain ⟨ns, id⟩ := id
  cases id with
  | numeric n => exact ((parseNodeId_shown_iff h ns).1 n).mpr hid
  | str s => exact ((parseNodeId_shown_iff h ns).2 s).mpr hid
  | guid s => cases hid
  | bytes s => cases hid

/-- The Go bridge reads the same node. -/
theorem parseQt_print (lib : NodeIdLibrary) {print : NodeID → String} (h : Prints print)
    {id : NodeID} (hid : Readable id) : parseQt lib.parseNodeID (print id) = .ok id := by
  obtain ⟨ns, id⟩ := id
  cases id with
  | numeric n =>
      rw [h.numeric, ← lib.string_numeric]
      exact (parseQt_shown_numeric lib ns n).mpr fun hns => absurd hns hid.1
  | str s =>
      rw [h.str, ← lib.string_str]
      exact (parseQt_shown_str lib ns s).mpr ⟨hid.2.2.2.2, fun hns => absurd hns hid.1⟩
  | guid s => cases hid
  | bytes s => cases hid

/-- **One node for both bridges.** A node whose id comes back is picked for a row. Then the engine
of the window reads this node for the row. When the window saves its configuration, the Go bridge
loads it, and reads the same node for the mapping of the row. -/
theorem picked_resolves {print : NodeID → String} (h : Prints print) {form : MainWindow} {row : Nat}
    {ref : ReferenceDescription} (hrow : row < form.mappingTable.length)
    (hid : Readable ref.nodeId) :
    let picked := { form with
      mappingTable := form.mappingTable.modify row (Window.pick (discoveredNode print ref)) }
    (∃ m, (picked.mappingsFromTable.map Engine.sensorMapping)[row]? = some m ∧
      m.nodeId = ref.nodeId) ∧
    ∀ foldName (lib : NodeIdLibrary), ∃ c m, loadConfig foldName (onSaveConfig picked) = some c ∧
      c.mappings[row]? = some m ∧ parseQt lib.parseNodeID m.nodeIDString = .ok ref.nodeId := by
  intro picked
  have hparse := parseNodeId_print h hid
  have htext : print ref.nodeId ≠ "" := fun hempty => by
    rw [hempty] at hparse
    cases hparse
  -- The row is read with its text trimmed, and a printed node id has no space at its ends.
  have hmapping : ∃ m, picked.mappingsFromTable[row]? = some m ∧
      m.nodeIDString = print ref.nodeId := by
    have hpicked : picked.mappingTable[row]? =
        some (Window.pick (discoveredNode print ref) form.mappingTable[row]) := by
      simp [picked, hrow]
    simp only [MainWindow.mappingsFromTable, List.getElem?_map, hpicked, Option.map_some,
      Option.some.injEq, exists_eq_left']
    exact trimSpace_print h hid
  obtain ⟨m, hm, hmtext⟩ := hmapping
  refine ⟨⟨Engine.sensorMapping m, by rw [List.getElem?_map, hm, Option.map_some], ?_⟩,
    fun foldName lib => ⟨picked.config, m, loadConfig_onSaveConfig picked, hm, ?_⟩⟩
  · simp only [Engine.sensorMapping, hmtext, htext, if_false, Engine.nodeIdOf, hparse,
      Option.getD_some]
  · rw [hmtext]
    exact parseQt_print lib h hid

/-- A form with one row. -/
def oneRow : MainWindow := { setupUi with mappingTable := [⟨"", "", 0, true⟩] }

/-- How the server describes a sensor. -/
def levelReference : ReferenceDescription := ⟨⟨2, .str "Level"⟩, .variable, "Level", "Level"⟩

/-- The sensor is picked for the row. -/
theorem picked_resolves_level : ∃ m, (({ oneRow with
      mappingTable := oneRow.mappingTable.modify 0
        (Window.pick (discoveredNode showNodeID levelReference)) } :
      MainWindow).mappingsFromTable.map Engine.sensorMapping)[0]? = some m ∧
    m.nodeId = ⟨2, .str "Level"⟩ :=
  (@picked_resolves showNodeID prints_showNodeID oneRow 0 levelReference (by decide)
    readable_level).1

end SmartFactory.Gui
