import SmartFactory.Bridge.Browse
import SmartFactory.Proofs.Hierarchy
import SmartFactory.Proofs.Plant.SameFrames

/-!
# `SmartFactory.Proofs.Plant.Picking`: picking sensors in the Go bridge

The Go bridge shows the plant page by page. A user goes from the Objects folder to an object, from
there to the next one, and puts rows of variables into the table of mappings. Between the pages, and
between the table and the reads, a node is only known by its text.

`pages_of_run` says what comes of it. The rows that can be got at are exactly those of the nodes
that are below the Objects folder through folders only, and every row that is picked gives a sensor
with the name and the value of the node that it was shown for. All of this rests on the browse
names: those that the server accepts come back as they are (`comes_back`).
-/

set_option autoImplicit false

namespace SmartFactory.Plant

open Bridge (NodeID NodeIdLibrary ReadResult Service Mapping BrowseRef UaReference Asked Shown
  browse browseRef parseQt nodeClassObject nodeClassVariable cString)
open Server (World TreeNode HttpEnv HttpServer Host ServerConfig Sound stepEvent
  serverConfigValidateBrowseName)
open Run (run)

variable {N : UInt16} {w w' : World} {env : HttpEnv} {lib : NodeIdLibrary}
variable {references : NodeID → Except String (List UaReference)} {s : Service}

/-! ### The names of the server -/

/-- The nodes have valid names, and they are below the Objects folder or each other. -/
structure WellNamed (N : UInt16) (w : World) : Prop where
  index : w.nm.nsIdx = N.toNat
  name : ∀ id t, w.tree id = some t →
    ∃ b, id = .string N.toNat b ∧ serverConfigValidateBrowseName b = true
  parent : ∀ id t, w.tree id = some t →
    t.parent = Server.objectsFolder ∨ ∃ b, t.parent = .string N.toNat b

/-- A parent is the objects folder or a node of the namespace of the server. -/
theorem resolveParent_cases (hw : Sound w) (hindex : w.nm.nsIdx = N.toNat) (b : Server.CString) :
    w.resolveParent b = Server.objectsFolder ∨ ∃ c, w.resolveParent b = .string N.toNat c := by
  rw [World.resolveParent]
  split
  · exact .inl rfl
  · cases hfind : w.mapFind b with
    | none => exact .inl rfl
    | some e =>
        refine .inr ⟨e.browseName.chars, ?_⟩
        rw [← hindex]
        exact hw.map_id e (Server.mem_of_mapFind hfind).1

/-- A node that is created with a valid name keeps the names valid. -/
theorem WellNamed.created {host : Host} {d : Server.ServerNodeDef} (h : WellNamed N w)
    (hw : Sound w) (hvalid : serverConfigValidateBrowseName d.browseName.chars = true)
    (hc : Server.Created host d w w') : WellNamed N w' := by
  refine ⟨hc.nsIdx.trans h.index, fun id t ht => ?_, fun id t ht => ?_⟩
  · rw [hc.tree] at ht
    split at ht
    · rename_i hid
      refine ⟨d.browseName.chars, ?_, hvalid⟩
      rw [hid, World.nodeIdOf, h.index]
    · exact h.name id t ht
  · rw [hc.tree] at ht
    split at ht
    · cases ht
      exact resolveParent_cases hw h.index _
    · exact h.parent id t ht

/-- The tree may lose nodes. -/
theorem WellNamed.of_tree (h : WellNamed N w) (hindex : w'.nm.nsIdx = w.nm.nsIdx)
    (htree : ∀ id t, w'.tree id = some t → w.tree id = some t) : WellNamed N w' :=
  ⟨hindex.trans h.index, fun id t ht => h.name id t (htree id t ht),
    fun id t ht => h.parent id t (htree id t ht)⟩

/-- A server that starts with valid names has valid names. -/
theorem wellNamed_start {host : Host} {cfg : ServerConfig} {file : Option Server.CString}
    (hvalid : ∀ d ∈ cfg.nodes, d.isNode = true →
      serverConfigValidateBrowseName d.browseName.chars = true)
    (h : Server.start host N.toNat cfg file = some w) : WellNamed N w := by
  refine (Server.start_induction (P := fun _ w => Sound w ∧ WellNamed N w) ?_
    (fun _ _ _ _ hP _ => hP) ⟨Server.sound_create, rfl, ?_, ?_⟩ h).2
  · rintro done d w w' hcut ⟨hw, hnamed⟩ hnode hc
    have hd : d ∈ cfg.nodes := Server.mem_sortNodesByDepth.mp
      (hcut.subset (List.mem_append_right _ (List.mem_singleton_self d)))
    exact ⟨hc.sound hw, hnamed.created hw (hvalid d hd hnode) hc⟩
  · intro id t ht
    simp [World.tree, Server.nodeManagerCreate, Server.AddressSpace.find] at ht
  · intro id t ht
    simp [World.tree, Server.nodeManagerCreate, Server.AddressSpace.find] at ht

/-- **One operation.** -/
theorem WellNamed.operation (h : WellNamed N w) (hw : Sound w) {op : Server.ConfigOp}
    (hs : Server.stepConfigOp env w op = some w') : WellNamed N w' := by
  cases op with
  | putConfig io body =>
      obtain ⟨ns, file, rfl⟩ := Server.putConfig_world hw.mutex hs
      exact h.of_tree rfl fun _ _ ht => ht
  | node op =>
      rw [Server.stepConfigOp_node] at hs
      cases Server.step_kinds hw hs with
      | quiet hshape =>
          -- Values and callbacks may change, and no node comes or goes.
          refine h.of_tree (by rw [hshape.nm]) fun id t ht => ?_
          rw [← tree_of_sameShape hshape]
          exact ht
      | added host d w₁ hadds hchecks hc hw' =>
          have hnamed := h.created hw (Server.name_of_checks hadds hchecks).1 hc
          rw [hw', Server.appendAndSave_eq]
          exact hnamed.of_tree rfl fun _ _ ht => ht
      | removed host b idx hdel hremoved =>
          -- A node that is still there was there before.
          refine h.of_tree (by rw [hremoved.nm]) fun id t ht => ?_
          obtain ⟨n, hn, rfl⟩ := Option.map_eq_some_iff.mp ht
          rw [World.tree, hremoved.find_some hn]
          rfl

/-- **Valid names** in every state of every run. -/
theorem wellNamed_of_run {host : Host} {cfg : ServerConfig} {file : Option Server.CString}
    {flag : Bool} {es : List Server.Event} {server : HttpServer}
    (hvalid : ∀ d ∈ cfg.nodes, d.isNode = true →
      serverConfigValidateBrowseName d.browseName.chars = true)
    (hstart : Server.start host N.toNat cfg file = some w)
    (hrun : run (stepEvent env) ⟨w, flag⟩ es = some server) : WellNamed N server.world :=
  (Server.last_of_events (fun _ _ _ hw h hs => h.operation hw hs) (Server.start_sound hstart)
    (wellNamed_start hvalid hstart) hrun).2

/-! ### Texts that come back -/

/-- A valid name consists of letters, digits and underscores. -/
theorem alnum_of_valid {b : Server.CString} (h : serverConfigValidateBrowseName b = true) :
    b ≠ [] ∧ ∀ c ∈ b, Server.isBrowseNameChar c = true := by
  refine ⟨Server.ne_nil_of_valid h, ?_⟩
  rw [serverConfigValidateBrowseName] at h
  split at h
  · cases h
  · split at h
    · cases h
    · exact List.all_eq_true.mp h

/-- The characters of a valid name are ASCII, and none is white space. -/
theorem ascii_of_browseNameChar {c : Char} (h : Server.isBrowseNameChar c = true) :
    c.toNat < 128 ∧ Bridge.isSpace c = false ∧ c ≠ ';' := by
  have hascii : c.toNat < 128 := by
    have hle : ∀ a b : Char, (a ≤ c && c ≤ b) = true → c.toNat ≤ b.toNat := fun a b hab =>
      (of_decide_eq_true (Bool.and_eq_true_iff.mp hab).2 : c ≤ b)
    rw [Server.isBrowseNameChar, Bool.or_eq_true, Bool.or_eq_true, Bool.or_eq_true] at h
    rcases h with ((h | h) | h) | h
    · exact Nat.lt_of_le_of_lt (hle _ _ h) (by decide)
    · exact Nat.lt_of_le_of_lt (hle _ _ h) (by decide)
    · exact Nat.lt_of_le_of_lt (hle _ _ h) (by decide)
    · rw [eq_of_beq h]
      decide
  -- What is left is a look at each of these characters.
  have hall : ∀ n < 128, Server.isBrowseNameChar (Char.ofNat n) = true →
      Bridge.isSpace (Char.ofNat n) = false ∧ Char.ofNat n ≠ ';' := by
    decide +kernel
  have hc := hall c.toNat hascii
  rw [Char.ofNat_toNat] at hc
  exact ⟨hascii, hc h⟩

/-- The node with a valid name is shown by a text that comes back. -/
theorem comes_back {nodeId : NodeID} {b : Server.CString}
    (hvalid : serverConfigValidateBrowseName b = true)
    (hid : serverId nodeId = some (.string N.toNat b)) :
    parseQt lib.parseNodeID (lib.string nodeId) = .ok nodeId := by
  obtain ⟨hne, hchars⟩ := alnum_of_valid hvalid
  obtain ⟨ns, ident⟩ := nodeId
  cases ident with
  | str text =>
      rw [serverId, Option.some.injEq, Server.NodeId.string.injEq] at hid
      have hascii : cString (String.ofList b) = b :=
        Bridge.cString_ascii fun c hc => (ascii_of_browseNameChar (hchars c hc)).1
      -- A valid name is ASCII, without white space and NUL.
      have htext : text = String.ofList b := Bridge.cString_injective (hid.2.trans hascii.symm)
      rw [Bridge.parseQt_shown_str, htext, String.toList_ofList]
      refine ⟨?_, fun _ hmem => (ascii_of_browseNameChar (hchars _ hmem)).2.2 rfl⟩
      rintro ⟨c, hc, hspace⟩
      rw [(ascii_of_browseNameChar (hchars c (List.mem_of_getLast? hc))).2.1] at hspace
      cases hspace
  | numeric n => cases hid
  | guid g => cases hid
  | bytes bs => cases hid

/-- The text of the first page. -/
theorem parseQt_objects : parseQt lib.parseNodeID "ns=0;i=85" = .ok Bridge.objectsFolder :=
  Bridge.parseQt_number lib 0 85

/-- The id is a number or a string. -/
def Simple (nodeId : NodeID) : Prop :=
  (∃ n, nodeId.id = .numeric n) ∨ ∃ text, nodeId.id = .str text

/-- Even a text that does not come back keeps its namespace. -/
theorem ns_of_shown {nodeId nodeId' : NodeID} (hsimple : Simple nodeId)
    (h : parseQt lib.parseNodeID (lib.string nodeId) = .ok nodeId') : nodeId'.ns = nodeId.ns := by
  obtain ⟨ns, ident⟩ := nodeId
  -- Without a namespace the library reads the text, and it reads it in namespace 0.
  have hplain {c : Char} {v : List Char} (hc : c = 's' ∨ c = 'i')
      (h : parseQt lib.parseNodeID (String.ofList (c :: '=' :: v)) = .ok nodeId') :
      nodeId'.ns = 0 := by
    rw [Bridge.parseQt_plain lib hc] at h
    by_cases hsemicolon : ';' ∈ c :: '=' :: Bridge.trimEnd v
    · obtain ⟨p, rest, hsplit, hp⟩ := List.eq_append_cons_of_mem hsemicolon
      rw [hsplit, lib.parse_reject p rest hp] at h
      · cases h
      · rintro ⟨d, rfl⟩
        rcases hc with rfl | rfl
        · cases hsplit
        · cases hsplit
    · have hmem : ';' ∉ Bridge.trimEnd v := fun hmem =>
        hsemicolon (List.mem_cons_of_mem _ (List.mem_cons_of_mem _ hmem))
      rw [lib.parse_plain _ _ hc hmem] at h
      obtain ⟨_, -, rfl⟩ := Option.map_eq_some_iff.mp h
      rfl
  rcases hsimple with ⟨n, rfl⟩ | ⟨text, rfl⟩
  · rw [lib.string_numeric, Bridge.shownText] at h
    by_cases hns : ns = 0
    · rw [if_pos hns] at h
      exact (hplain (.inr rfl) h).trans hns.symm
    · rw [if_neg hns, Bridge.parseQt_number] at h
      cases h
      rfl
  · rw [lib.string_str, Bridge.shownText] at h
    by_cases hns : ns = 0
    · rw [if_pos hns] at h
      exact (hplain (.inl rfl) h).trans hns.symm
    · rw [if_neg hns, Bridge.parseQt_string] at h
      cases h
      rfl

/-! ### The pages -/

/-- The reference is one to this node of the program, which has its name as browse name. -/
structure Refers (N : UInt16) (id : Server.NodeId) (t : TreeNode) (r : UaReference)
    (target : NodeID) : Prop where
  reference : r.target = some target
  nodeId : serverId target = some id
  nodeClass : r.nodeClass = if t.dataType.isSome then nodeClassVariable else nodeClassObject
  browseName : ∃ name, r.browseName = some name ∧ id = .string N.toNat (cString name)

/-- What `References` returns when its calls succeed. A node that is not one of the program is in
another namespace, with a number or a string for its id. -/
structure Listing (N : UInt16) (w : World)
    (references : NodeID → Except String (List UaReference)) : Prop where
  sound : ∀ start refs, references start = .ok refs → ∀ r ∈ refs, ∀ target,
    r.target = some target → (∃ id t, w.tree id = some t ∧ serverId start = some t.parent ∧
      Refers N id t r target) ∨ (target.ns ≠ N ∧ Simple target)
  complete : ∀ id t start, w.tree id = some t → serverId start = some t.parent →
    ∃ refs, references start = .ok refs ∧ ∃ r ∈ refs, ∃ target, Refers N id t r target

/-- The node is the Objects folder, or a folder that is below it through folders only. -/
inductive Opens (w : World) : Server.NodeId → Prop
  | objects : Opens w Server.objectsFolder
  | folder {id t} (ht : w.tree id = some t) (hfolder : t.dataType = none)
      (hparent : Opens w t.parent) : Opens w id

/-- The node that a request asks for. -/
def Asks (lib : NodeIdLibrary) (text : String) (start : NodeID) : Prop :=
  parseQt lib.parseNodeID (if text = "" then "ns=0;i=85" else text) = .ok start

/-- What `Browse` does in a connected service. -/
theorem browse_ok_iff (hconnected : s.opcConnected = true) (hclient : s.client ≠ none)
    {text : String} {rows : List BrowseRef} : browse lib references s text = .ok rows ↔
    ∃ start refs, Asks lib text start ∧ references start = .ok refs ∧
      rows = refs.filterMap (browseRef lib) := by
  rw [browse, hconnected]
  simp only [hclient, Bool.not_true, Bool.false_or, decide_false, Bool.false_eq_true, if_false]
  simp only [Bridge.bind_eq_ok_iff, Bridge.mapError_eq_ok_iff]
  constructor
  · rintro ⟨start, hstart, refs, hrefs, hrows⟩
    cases hrows
    exact ⟨start, refs, hstart, hrefs, rfl⟩
  · rintro ⟨start, refs, hstart, hrefs, rfl⟩
    exact ⟨start, hstart, refs, hrefs, rfl⟩

/-- The text of a node that is referred to is parsed to the node. -/
theorem Refers.comes_back {id : Server.NodeId} {t : TreeNode} {r : UaReference} {target : NodeID}
    (h : Refers N id t r target) (hnamed : WellNamed N w) (ht : w.tree id = some t) :
    parseQt lib.parseNodeID (lib.string target) = .ok target := by
  obtain ⟨b, rfl, hvalid⟩ := hnamed.name id t ht
  exact Plant.comes_back hvalid h.nodeId

/-- Such a text is not empty. -/
theorem string_ne_empty {nodeId : NodeID}
    (h : parseQt lib.parseNodeID (lib.string nodeId) = .ok nodeId) : lib.string nodeId ≠ "" := by
  intro hempty
  rw [hempty] at h
  cases h

/-! ### What can be got at -/

/-- The bridge keeps the class of a reference. -/
theorem nodeClass_of_browseRef {r : UaReference} {ref : BrowseRef}
    (h : browseRef lib r = some ref) : ref.nodeClass = r.nodeClass := by
  obtain ⟨target, -, rfl⟩ := Option.map_eq_some_iff.mp h
  rfl

/-- And its name. -/
theorem browseName_of_browseRef {r : UaReference} {ref : BrowseRef} {name : String}
    (h : browseRef lib r = some ref) (hname : r.browseName = some name) (hne : name ≠ "") :
    ref.browseName = name := by
  obtain ⟨target, -, rfl⟩ := Option.map_eq_some_iff.mp h
  rw [hname]
  exact if_neg hne

/-- The first page. -/
theorem opens_objects {start : NodeID} {id : Server.NodeId}
    (hasks : parseQt lib.parseNodeID "ns=0;i=85" = .ok start) (hid : serverId start = some id) :
    Opens w id := by
  obtain rfl := Except.ok.inj (parseQt_objects.symm.trans hasks)
  rw [← Option.some.inj hid]
  exact .objects

/-- A row that the node with this id is shown by. -/
def ShownAs (lib : NodeIdLibrary) (references : NodeID → Except String (List UaReference))
    (s : Service) (id : Server.NodeId) (ref : BrowseRef) : Prop :=
  Shown lib references s ref ∧ ∃ target, ref.nodeID = lib.string target ∧ serverId target = some id

section
variable {id : Server.NodeId} {t : TreeNode} {text : String} {start : NodeID} {ref : BrowseRef}
  (hconnected : s.opcConnected = true) (hclient : s.client ≠ none) (hnamed : WellNamed N w)
  (hlist : Listing N w references)
include hconnected hclient hnamed hlist

/-- The page of a node has a row for a child of it. -/
theorem exists_mem_browse (ht : w.tree id = some t) (hasks : Asks lib text start)
    (hstart : serverId start = some t.parent) : ∃ rows ref r target,
      browse lib references s text = .ok rows ∧ ref ∈ rows ∧ ref.nodeID = lib.string target ∧
      browseRef lib r = some ref ∧ Refers N id t r target ∧
      parseQt lib.parseNodeID (lib.string target) = .ok target := by
  obtain ⟨refs, hrefs, r, hr, target, href⟩ := hlist.complete id t start ht hstart
  obtain ⟨ref, hrow, htext⟩ : ∃ ref, browseRef lib r = some ref ∧
      ref.nodeID = lib.string target := by
    rw [browseRef, href.reference]
    exact ⟨_, rfl, rfl⟩
  exact ⟨_, ref, r, target,
    (browse_ok_iff hconnected hclient).mpr ⟨start, refs, hasks, hrefs, rfl⟩,
    List.mem_filterMap.mpr ⟨r, hr, hrow⟩, htext, hrow, href, href.comes_back hnamed ht⟩

/-- A row of a page: it is that of a child in the program, whose text comes back, or that of a node
in another namespace. -/
theorem mem_browse_cases {rows : List BrowseRef} (h : browse lib references s text = .ok rows)
    (hmem : ref ∈ rows) : ∃ start target, Asks lib text start ∧ ref.nodeID = lib.string target ∧
      ((∃ id t r, w.tree id = some t ∧ serverId start = some t.parent ∧ Refers N id t r target ∧
          browseRef lib r = some ref ∧ parseQt lib.parseNodeID (lib.string target) = .ok target) ∨
        (target.ns ≠ N ∧ Simple target)) := by
  obtain ⟨start, refs, hasks, hrefs, rfl⟩ := (browse_ok_iff hconnected hclient).mp h
  obtain ⟨r, hr, href⟩ := List.mem_filterMap.mp hmem
  obtain ⟨target, htarget, hrow⟩ := Option.map_eq_some_iff.mp href
  refine ⟨start, target, hasks, by rw [← hrow], ?_⟩
  rcases hlist.sound start refs hrefs r hr target htarget with
    ⟨id, t, ht, hparent, hrefers⟩ | hother
  · exact .inl ⟨id, t, r, ht, hparent, hrefers, href, hrefers.comes_back hnamed ht⟩
  · exact .inr hother

/-- The page of a folder that is open can be asked for. -/
theorem asked_of_opens (h : Opens w id) : ∃ text start, Asked lib references s text ∧
    Asks lib text start ∧ serverId start = some id := by
  induction h with
  | objects => exact ⟨"", Bridge.objectsFolder, .start, parseQt_objects, rfl⟩
  | @folder id t ht hfolder _ ih =>
      obtain ⟨text, start, hasked, hasks, hstart⟩ := ih
      obtain ⟨rows, ref, r, target, hrows, hmem, htext, hrow, href, hback⟩ :=
        exists_mem_browse hconnected hclient hnamed hlist ht hasks hstart
      have hclass : ref.nodeClass = nodeClassObject := by
        rw [nodeClass_of_browseRef hrow, href.nodeClass, hfolder]
        rfl
      refine ⟨ref.nodeID, target, .opened hasked hrows hmem hclass, ?_, href.nodeId⟩
      rw [htext, Asks, if_neg (string_ne_empty hback)]
      exact hback

/-- Only the pages of folders that are open list nodes of the program. -/
theorem opens_of_asked (h : Asked lib references s text) : ∀ start id t, Asks lib text start →
    w.tree id = some t → serverId start = some t.parent → Opens w t.parent := by
  induction h with
  | start =>
      intro start id t hasks _ hstart
      exact opens_objects hasks hstart
  | @opened text rows ref _ hrows hmem hclass ih =>
      intro start id t hasks ht hstart
      obtain ⟨before, target, hbefore, htext, hsource⟩ :=
        mem_browse_cases hconnected hclient hnamed hlist hrows hmem
      rw [Asks] at hasks
      split at hasks
      · exact opens_objects hasks hstart
      · rw [htext] at hasks
        rcases hsource with ⟨id', t', r, ht', hparent, hrefers, hrow, hback⟩ | ⟨hother, hsimple⟩
        · -- The row is that of a folder of the program.
          cases hback.symm.trans hasks
          obtain rfl := Option.some.inj (hrefers.nodeId.symm.trans hstart)
          have hfolder : t'.dataType = none := by
            rw [nodeClass_of_browseRef hrow, hrefers.nodeClass] at hclass
            split at hclass
            · cases hclass
            · rename_i hnone
              simpa using hnone
          exact .folder ht' hfolder (ih before _ t' hbefore ht' hparent)
        · -- Nodes of other namespaces have no nodes of the program below them, but for Objects.
          have hns := ns_of_shown hsimple hasks
          rcases hnamed.parent id t ht with hobjects | ⟨b, hb⟩
          · rw [hobjects]
            exact .objects
          · rw [hb] at hstart
            exact absurd (hns.symm.trans (ns_of_serverId hstart)) hother

/-- The rows of a node: its page is that of an open folder, and they have its name and class. -/
theorem row_of_shownAs (ht : w.tree id = some t) (h : ShownAs lib references s id ref) :
    Opens w t.parent ∧ id = .string N.toNat (cString ref.browseName) ∧ ref.browseName ≠ "" ∧
      ∃ target, serverId target = some id ∧
        parseQt lib.parseNodeID ref.nodeID = .ok target := by
  obtain ⟨⟨text, rows, hasked, hrows, hmem⟩, target, htext, hid⟩ := h
  obtain ⟨b, hb, hvalid⟩ := hnamed.name id t ht
  have hback : parseQt lib.parseNodeID ref.nodeID = .ok target := by
    rw [htext]
    exact comes_back hvalid (hb ▸ hid)
  obtain ⟨start, target', hasks, htext', hsource⟩ :=
    mem_browse_cases hconnected hclient hnamed hlist hrows hmem
  rcases hsource with ⟨id', t', r, ht', hparent, hrefers, hrow, hback'⟩ | ⟨hother, hsimple⟩
  · -- The text comes back as both nodes, so they are one.
    rw [← htext'] at hback'
    obtain rfl := Except.ok.inj (hback.symm.trans hback')
    obtain rfl := Option.some.inj (hid.symm.trans hrefers.nodeId)
    obtain rfl := Option.some.inj (ht.symm.trans ht')
    obtain ⟨name, hname, hidname⟩ := hrefers.browseName
    have hne : name ≠ "" := by
      rintro rfl
      obtain rfl := (Server.NodeId.string.inj (hidname.symm.trans hb)).2
      exact Server.ne_nil_of_valid hvalid rfl
    rw [browseName_of_browseRef hrow hname hne]
    exact ⟨opens_of_asked hconnected hclient hnamed hlist hasked start id t hasks ht hparent,
      hidname, hne, target, hid, hback⟩
  · -- A row of another namespace has another text.
    rw [htext'] at hback
    have hns := ns_of_shown hsimple hback
    rw [hb] at hid
    exact absurd (hns.symm.trans (ns_of_serverId hid)) hother

/-- The node of an open folder has a row. -/
theorem exists_row (ht : w.tree id = some t) (hopens : Opens w t.parent) :
    ∃ ref, ShownAs lib references s id ref := by
  obtain ⟨text, start, hasked, hasks, hstart⟩ : ∃ text start, Asked lib references s text ∧
      Asks lib text start ∧ serverId start = some t.parent :=
    asked_of_opens hconnected hclient hnamed hlist hopens
  obtain ⟨rows, ref, r, target, hrows, hmem, htext, -, href, -⟩ :=
    exists_mem_browse hconnected hclient hnamed hlist ht hasks hstart
  exact ⟨ref, ⟨text, rows, hasked, hrows, hmem⟩, target, htext, href.nodeId⟩

end

/-! ### The table -/

/-- The value of a node, as it is sent. -/
def sentValue (space : Server.AddressSpace) (id : Server.NodeId) : Bridge.Wire :=
  wireOf (((space.find id).bind Server.UaNode.vAttr).bind fun v => v.value.scalar?.map deliver)

/-- The sensor of a row that was picked for a node. `spaces k` is what the read with the number `k`
finds. -/
def pickedSensor (spaces : Nat → Server.AddressSpace) (pick : (Server.NodeId × BrowseRef) × Nat) :
    Bridge.Sensor :=
  ⟨pick.1.2.browseName, 0, sentValue (spaces pick.2) pick.1.1⟩

/-- A table of rows that come back as the ids of their nodes. -/
theorem frameSensors_picks {picks : List (Server.NodeId × BrowseRef)} {table : Service}
    {read : Nat → NodeID → ReadResult} {spaces : Nat → Server.AddressSpace}
    (hrow : ∀ p ∈ picks, p.2.browseName ≠ "" ∧ ∃ target, target.ns = N ∧
      serverId target = some p.1 ∧ parseQt lib.parseNodeID p.2.nodeID = .ok target)
    (htable : table.client ≠ none) (hmappings : table.cfg.mappings = picks.map (·.2.mapping))
    (hread : ∀ k nodeId, nodeId.ns = N → (read k nodeId).Shows (delivered (spaces k) nodeId)) :
    Bridge.frameSensors lib.parseNodeID read table
      = .ok (picks.zipIdx.map (pickedSensor spaces)) := by
  -- A row that was picked is enabled and has a text, so that all rows are resolved and read.
  have hselected : Bridge.selected (picks.map (·.2.mapping)) = picks.map (·.2.mapping) := by
    rw [Bridge.selected, List.filter_eq_self]
    intro m hm
    obtain ⟨p, hp, rfl⟩ := List.mem_map.mp hm
    obtain ⟨-, target, -, -, hback⟩ := hrow p hp
    have hne : p.2.nodeID ≠ "" := by
      intro hempty
      rw [hempty] at hback
      cases hback
    simp [BrowseRef.mapping, hne]
  rw [Bridge.frameSensors_ok_iff, hmappings, hselected, List.zipIdx_map,
    List.forall₂_map_left_iff, List.forall₂_map_right_iff, List.forall₂_same]
  refine ⟨htable, fun p hp => ?_⟩
  obtain ⟨hname, target, hns, htarget, hback⟩ := hrow p.1 (List.fst_mem_of_mem_zipIdx hp)
  refine ⟨target, hback, ?_⟩
  have hmsg : (p.1.2.mapping).msgID = p.1.2.browseName := if_neg hname
  have hvalue : wireOf (delivered (spaces p.2) target) = sentValue (spaces p.2) p.1.1 := by
    rw [delivered, variableAt_of_serverId htarget]
    rfl
  show Bridge.readSensor ⟨p.1.2.mapping.msgID, 0, target⟩ (read p.2 target) = _
  rw [readSensor_of_delivered _ (hread p.2 target hns), hmsg, hvalue]
  rfl

/-- **From the pages to the frames.** The server was started with valid names, and whatever has
happened since, the pages have a row for a node exactly when it is below the Objects folder through
folders only. A row has the name of its node, and a table of rows that were picked gives a frame
with the values of their nodes, whatever the server does before the reads. -/
theorem pages_of_run {host : Host} {cfg : ServerConfig} {file : Option Server.CString}
    {flag : Bool} {es : List Server.Event} {server : HttpServer}
    (hvalid : ∀ d ∈ cfg.nodes, d.isNode = true →
      serverConfigValidateBrowseName d.browseName.chars = true)
    (hstart : Server.start host N.toNat cfg file = some w)
    (hrun : run (stepEvent env) ⟨w, flag⟩ es = some server)
    (hconnected : s.opcConnected = true) (hclient : s.client ≠ none)
    (hlist : Listing N server.world references) :
    (∀ id t, server.world.tree id = some t →
      ((∃ ref, ShownAs lib references s id ref) ↔ Opens server.world t.parent) ∧
      ∀ ref, ShownAs lib references s id ref → id = .string N.toNat (cString ref.browseName)) ∧
    ∀ (picks : List (Server.NodeId × BrowseRef)) (table : Service)
      (read : Nat → NodeID → ReadResult) (spaces : Nat → Server.AddressSpace),
      (∀ p ∈ picks, server.world.tree p.1 ≠ none ∧ ShownAs lib references s p.1 p.2) →
      table.client ≠ none → table.cfg.mappings = picks.map (·.2.mapping) →
      (∀ k nodeId, nodeId.ns = N → (read k nodeId).Shows (delivered (spaces k) nodeId)) →
      Bridge.frameSensors lib.parseNodeID read table
        = .ok (picks.zipIdx.map (pickedSensor spaces)) := by
  -- Every live node has a valid name, which its id is made of: what is shown can be told apart, and
  -- comes back as the same id.
  have hnamed := wellNamed_of_run hvalid hstart hrun
  refine ⟨fun id t ht => ⟨⟨?_, exists_row hconnected hclient hnamed hlist ht⟩, fun ref h => ?_⟩, ?_⟩
  · rintro ⟨ref, h⟩
    exact (row_of_shownAs hconnected hclient hnamed hlist ht h).1
  · exact (row_of_shownAs hconnected hclient hnamed hlist ht h).2.1
  · intro picks table read spaces hpicks htable hmappings hread
    refine frameSensors_picks (fun p hp => ?_) htable hmappings hread
    obtain ⟨hlive, hshown⟩ := hpicks p hp
    obtain ⟨t, ht⟩ := Option.ne_none_iff_exists'.mp hlive
    obtain ⟨-, hid, hname, target, htarget, hback⟩ :=
      row_of_shownAs hconnected hclient hnamed hlist ht hshown
    exact ⟨hname, target, ns_of_serverId (hid ▸ htarget), htarget, hback⟩

/-! ### A server that answers -/

/-- The reference to a node of the program. -/
def referenceTo (n : Server.UaNode) : Option UaReference :=
  match n.nodeId with
  | .numeric .. => none
  | .string ns b =>
      some
        { isForward := true
          nodeID := some (some ⟨UInt16.ofNat ns, .str (String.ofList b)⟩)
          nodeClass := if n.vAttr.isSome then nodeClassVariable else nodeClassObject
          browseName := some (String.ofList b)
          displayName := some (String.ofList n.displayName.chars) }

/-- The children of a node. -/
def listChildren (space : Server.AddressSpace) (start : NodeID) :
    Except String (List UaReference) :=
  .ok ((space.filter fun n => serverId start = some n.parent).filterMap referenceTo)

/-- A node of the server is referred to with its parent. -/
theorem refers_referenceTo (hnamed : WellNamed N w) {n : Server.UaNode} {id : Server.NodeId}
    (hn : w.space.find id = some n) (hid : n.nodeId = id) : ∃ r t target,
      referenceTo n = some r ∧ w.tree id = some t ∧ t.parent = n.parent ∧
      Refers N id t r target := by
  have ht : w.tree id = some ⟨n.vAttr.map Server.UaVariable.dataType, n.displayName, n.parent⟩ := by
    rw [World.tree, hn, Option.map_some]
  obtain ⟨b, rfl, hvalid⟩ := hnamed.name id _ ht
  have hascii : cString (String.ofList b) = b := Bridge.cString_ascii fun c hc =>
    (ascii_of_browseNameChar ((alnum_of_valid hvalid).2 c hc)).1
  refine ⟨_, _, ⟨N, .str (String.ofList b)⟩, by rw [referenceTo, hid], ht, rfl, ?_, ?_, ?_, ?_⟩
  · rw [UaReference.target, UInt16.ofNat_toNat]
    rfl
  · rw [serverId, hascii]
  · rw [Option.isSome_map]
  · exact ⟨_, rfl, by rw [hascii]⟩

/-- Such a server lists what there is. -/
theorem listing_listChildren (hw : Sound w) (hnamed : WellNamed N w) :
    Listing N w (listChildren w.space) where
  sound start refs hrefs r hr target htarget := by
    cases hrefs
    obtain ⟨n, hn, href⟩ := List.mem_filterMap.mp hr
    obtain ⟨hn, hparent⟩ := List.mem_filter.mp hn
    obtain ⟨r', t, target', href', ht, hsame, hrefers⟩ :=
      refers_referenceTo hnamed (Server.AddressSpace.find_of_mem hw.ids_nodup hn) rfl
    cases href.symm.trans href'
    cases htarget.symm.trans hrefers.reference
    exact .inl ⟨n.nodeId, t, ht, (of_decide_eq_true hparent).trans (congrArg some hsame.symm),
      hrefers⟩
  complete id t start ht hstart := by
    obtain ⟨n, hn, hnt⟩ := Option.map_eq_some_iff.mp ht
    have hid : n.nodeId = id := by simpa using List.find?_some hn
    obtain ⟨r, t', target, href, ht', hsame, hrefers⟩ := refers_referenceTo hnamed hn hid
    cases ht.symm.trans ht'
    refine ⟨_, rfl, r, List.mem_filterMap.mpr ⟨n, List.mem_filter.mpr ⟨?_, ?_⟩, href⟩, target,
      hrefers⟩
    · exact List.mem_of_find?_eq_some hn
    · exact decide_eq_true (hstart.trans (congrArg some hsame))

/-- What the server answers shows what it delivers. -/
theorem shows_goAnswer (space : Server.AddressSpace) (nodeId : NodeID) :
    (goAnswer space nodeId).Shows (delivered space nodeId) := by
  rw [goAnswer]
  cases delivered space nodeId with
  | none => exact .inl (by decide)
  | some v => exact ⟨[], rfl⟩

/-- A bridge that is connected. -/
def pickingService (mappings : List Mapping) : Service :=
  { (Bridge.newService { Bridge.defaultConfig with mappings := mappings }).toService with
    client := some 0
    opcConnected := true }

/-- A client has switched the first sensor on. Its row is picked, and the frame has its value. The
pages of `listChildren` leave out what the library itself has in the address space, such as the
Server object, which `References` lists as well. -/
theorem pages_of_run_sensor : ∃ w server ref,
    Server.start .ok 1 Server.serverConfigSeedDefaults none = some w ∧
    run (stepEvent Server.fillEnv) ⟨w, false⟩ [.clientWrite (sensorId 1 0) (.boolean true)]
      = some server ∧
    ShownAs Bridge.basicLibrary (listChildren server.world.space) (pickingService [])
      (sensorId 1 0) ref ∧
    Bridge.frameSensors Bridge.basicLibrary.parseNodeID (fun _ => goAnswer server.world.space)
      (pickingService [ref.mapping]) = .ok [⟨"Sensor1", 0, .bool true⟩] := by
  have hcheck : ((Server.start .ok 1 Server.serverConfigSeedDefaults none).any fun w =>
      (run (stepEvent Server.fillEnv) ⟨w, false⟩
        [.clientWrite (sensorId 1 0) (.boolean true)]).any fun server =>
          sentValue server.world.space (sensorId 1 0) = .bool true &&
          (server.world.tree (sensorId 1 0)).any fun t => t.parent = folderId 1 &&
          (server.world.tree (folderId 1)).any fun t =>
            t.dataType = none && t.parent = Server.objectsFolder) = true := by
    decide
  simp only [Option.any_eq_true, Bool.and_eq_true, decide_eq_true_eq] at hcheck
  obtain ⟨w, hstart, server, hrun, hvalue, t, htree, hparent, folder, hfolder, htype, hroot⟩ :=
    hcheck
  have hvalid : ∀ d ∈ Server.serverConfigSeedDefaults.nodes, d.isNode = true →
      serverConfigValidateBrowseName d.browseName.chars = true :=
    fun d hd _ => Server.wellFormed_defaults.valid d hd
  have hlist : Listing 1 server.world (listChildren server.world.space) :=
    listing_listChildren (Server.sound_of_events hstart hrun)
      (wellNamed_of_run hvalid hstart hrun)
  have hpicked := @pages_of_run 1 w Server.fillEnv Bridge.basicLibrary _ (pickingService []) _ _ _ _
    _ _ hvalid hstart hrun rfl (Option.some_ne_none 0) hlist
  -- The folder of the sensor is below Objects.
  have hopens : Opens server.world t.parent := by
    rw [hparent]
    exact .folder hfolder htype (hroot ▸ .objects)
  obtain ⟨ref, hshown⟩ := (hpicked.1 _ t htree).1.mpr hopens
  have hname : "Sensor1" = ref.browseName := Bridge.cString_injective
    (Server.NodeId.string.inj ((hpicked.1 _ t htree).2 ref hshown)).2
  refine ⟨w, server, ref, hstart, hrun, hshown, ?_⟩
  have hframe := hpicked.2 [(sensorId 1 0, ref)] (pickingService [ref.mapping])
    (fun _ => goAnswer server.world.space) (fun _ => server.world.space) ?_
    (Option.some_ne_none 0) rfl fun _ nodeId _ => shows_goAnswer server.world.space nodeId
  · rw [hframe, hname, ← hvalue]
    rfl
  · intro p hp
    rw [List.mem_singleton.mp hp]
    exact ⟨htree ▸ Option.some_ne_none t, hshown⟩

end SmartFactory.Plant
