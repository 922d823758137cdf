import SmartFactory.Proofs.Persistence

/-!
# `SmartFactory.Proofs.Durability`: what a reported success is worth

The operations that change the configuration save it before they return. `Durable` is the
promise of one that reports success: the file holds the configuration in memory, with the
change.

`durable_iff` is the extent of it. The operations pass over a save that fails, an addition to
a full configuration is not saved at all, the result of `fclose` is not looked at, and an
empty list of definitions is read back as the defaults. `Persists` is the condition that none
of this happens.

`savesAtomically_iff` is about one save alone, over any file that was there before.
-/

set_option autoImplicit false

namespace SmartFactory.Server

open Run

variable {cfg cfg' : ServerConfig} {w w' : World} {env : HttpEnv} {op : ConfigOp} {ok : Bool}

/-- The file decodes to the configuration. -/
def FileHolds (cjson : CJson) (file : Option CString) (cfg : ServerConfig) : Prop :=
  ∃ text root, file = some text ∧ cjson.parse text = some root ∧
    SameConfig cfg (configOfJson root)

/-- A step of the save fails before the file is replaced. -/
def SaveIo.fails (io : SaveIo) : Bool :=
  !(io.printed && io.opened && io.written && io.renamed)

/-- The file is replaced by the whole text. -/
def SaveIo.SavesWhole (io : SaveIo) (text : CString) : Prop :=
  io.fails = false ∧ ∀ n, io.truncated = some n → text.length ≤ n

/-- cJSON does not read a document that the save has cut off. -/
def ReadsNoPart (cjson : CJson) (io : SaveIo) : Prop :=
  ∀ n, io.truncated = some n → ∀ cfg : ServerConfig,
    n < (cjson.print (configToJson cfg)).length →
      cjson.parse ((cjson.print (configToJson cfg)).take n) = none

/-- The configuration has the change that the operation reports. -/
def Contains (env : HttpEnv) (w : World) (cfg : ServerConfig) : ConfigOp → Prop
  | .node op =>
      (∀ host d, op.adds = some (host, d) → d ∈ cfg.nodes) ∧
      ∀ host b, op = .delete host b →
        cfg.nodes = w.nm.config.nodes.eraseP (fun n => n.browseName.chars == b) ∧
          cfg.nodes.length < w.nm.config.nodes.length
  | .putConfig _ body => ∀ root ns, env.cjson.parse body = some root →
      Json.stringValue (root.getObjectItem "namespaceUri".toList) = some ns →
      cfg.namespaceUri = snprintf serverNamespaceMax ns

/-- An operation that reports success has changed the configuration, and the file holds what
is in memory. -/
def Durable (env : HttpEnv) (w : World) (op : ConfigOp) : Prop :=
  ∀ w', (performConfig env op).run w = .ok (true, w') →
    Contains env w w'.nm.config op ∧ FileHolds env.cjson w'.file w'.nm.config

/-- The condition on an operation that passes its checks: an addition finds room, the
configuration keeps a definition, and either the file is replaced by the whole text, or the
save fails and the file has held this configuration already. -/
structure Persists (env : HttpEnv) (w : World) (op : ConfigOp) : Prop where
  room : ∀ o host d, op = .node o → Creates w o host d →
    w.nm.config.nodes.length < serverMaxNodes
  rest : ∀ io cfg, Changes env w op io cfg → cfg.nodes ≠ []
  saves : ∀ io cfg, Changes env w op io cfg →
    io.SavesWhole (env.cjson.print (configToJson cfg)) ∨
      io.fails = true ∧ FileHolds env.cjson w.file cfg

/-- What is left in the file after a save. -/
theorem save_cases (cjson : CJson) (io : SaveIo) (cfg : ServerConfig) (file : Option CString) :
    (io.fails = true ∧ (serverConfigSave cjson io cfg file).2 = file) ∨
    (io.SavesWhole (cjson.print (configToJson cfg)) ∧
      (serverConfigSave cjson io cfg file).2 = some (cjson.print (configToJson cfg))) ∨
    ∃ n, io.fails = false ∧ io.truncated = some n ∧
      n < (cjson.print (configToJson cfg)).length ∧
      (serverConfigSave cjson io cfg file).2
        = some ((cjson.print (configToJson cfg)).take n) := by
  obtain ⟨printed, opened, written, truncated, renamed⟩ := io
  cases printed with
  | false => exact Or.inl ⟨rfl, rfl⟩
  | true =>
  cases opened with
  | false => exact Or.inl ⟨rfl, rfl⟩
  | true =>
  cases written with
  | false => exact Or.inl ⟨rfl, rfl⟩
  | true =>
  cases renamed with
  | false => exact Or.inl ⟨rfl, rfl⟩
  | true =>
      refine Or.inr ?_
      -- Every call has succeeded. A text that was cut off before `rename` is in the file as it is.
      cases truncated with
      | none => exact Or.inl ⟨⟨rfl, nofun⟩, rfl⟩
      | some n =>
          rcases Nat.lt_or_ge n (cjson.print (configToJson cfg)).length with hcut | hwhole
          · exact Or.inr ⟨n, rfl, rfl, hcut, rfl⟩
          · refine Or.inl ⟨⟨rfl, fun m hm => Option.some.inj hm ▸ hwhole⟩, ?_⟩
            exact congrArg some (List.take_of_length_le hwhole)

/-- The printed configuration holds it when it has definitions. -/
theorem fileHolds_printed_iff {cjson : CJson} (hcjson : RoundTrips cjson cfg) :
    FileHolds cjson (some (cjson.print (configToJson cfg))) cfg ↔ cfg.nodes ≠ [] := by
  rw [← sameConfig_configOfJson_iff]
  constructor
  · rintro ⟨text, root, htext, hroot, hsame⟩
    obtain rfl := Option.some.inj htext
    obtain rfl := Option.some.inj (hcjson.2.symm.trans hroot)
    exact hsame
  · exact fun hsame => ⟨_, _, rfl, hcjson.2, hsame⟩

/-- A file holds no configuration without definitions. -/
theorem FileHolds.ne_nil {cjson : CJson} {file : Option CString} (h : FileHolds cjson file cfg) :
    cfg.nodes ≠ [] := by
  obtain ⟨text, root, -, -, hsame⟩ := h
  exact fun hnil => configOfJson_ne_nil root (hsame.nodes_eq_nil.mp hnil)

/-- **The save.** Afterwards the file holds the configuration exactly when that has
definitions and the whole text was written, or the save failed over a file that had held it
already. -/
theorem fileHolds_save_iff {cjson : CJson} {io : SaveIo} {file : Option CString}
    (hcjson : RoundTrips cjson cfg) (hpart : ReadsNoPart cjson io) :
    FileHolds cjson (serverConfigSave cjson io cfg file).2 cfg ↔ cfg.nodes ≠ [] ∧
      (io.SavesWhole (cjson.print (configToJson cfg)) ∨
        io.fails = true ∧ FileHolds cjson file cfg) := by
  rcases save_cases cjson io cfg file with ⟨hfails, hfile⟩ | ⟨hwhole, hfile⟩ |
    ⟨n, hok, hcut, hlt, hfile⟩
  · rw [hfile]
    constructor
    · exact fun hholds => ⟨hholds.ne_nil, Or.inr ⟨hfails, hholds⟩⟩
    · rintro ⟨-, hwhole | ⟨-, hholds⟩⟩
      · cases hfails.symm.trans hwhole.1
      · exact hholds
  · rw [hfile, fileHolds_printed_iff hcjson]
    exact ⟨fun hne => ⟨hne, Or.inl hwhole⟩, fun h => h.1⟩
  · rw [hfile]
    -- A text that was cut off is not parsed.
    refine iff_of_false ?_ ?_
    · rintro ⟨text, root, htext, hroot, -⟩
      obtain rfl := Option.some.inj htext
      cases (hpart n hcut cfg hlt).symm.trans hroot
    · rintro ⟨-, hwhole | ⟨hfails, -⟩⟩
      · exact absurd (hwhole.2 n hcut) (Nat.not_le.mpr hlt)
      · cases hok.symm.trans hfails

/-- An operation makes one change at most. -/
theorem Changes.unique {io io' : SaveIo} (h : Changes env w op io cfg)
    (h' : Changes env w op io' cfg') : io = io' ∧ cfg = cfg' := by
  cases h with
  | added hcreates hroom =>
      cases h' with
      | added hcreates' hroom' =>
          obtain ⟨rfl, rfl⟩ := adds_inj hcreates.adds hcreates'.adds
          exact ⟨rfl, rfl⟩
      | removed hdel => cases hcreates.adds.symm.trans (congrArg Op.adds hdel.op)
  | removed hdel =>
      cases h' with
      | added hcreates => cases hcreates.adds.symm.trans (congrArg Op.adds hdel.op)
      | removed hdel' =>
          obtain ⟨rfl, rfl⟩ := Op.delete.inj (hdel.op.symm.trans hdel'.op)
          obtain rfl := Option.some.inj (hdel.index.symm.trans hdel'.index)
          exact ⟨rfl, rfl⟩
  | renamed hparse hns =>
      cases h' with
      | renamed hparse' hns' =>
          obtain rfl := Option.some.inj (hparse.symm.trans hparse')
          obtain rfl := Option.some.inj (hns.symm.trans hns')
          exact ⟨rfl, rfl⟩

/-- A change is contained in the configuration that it makes. -/
theorem Changes.contains {io : SaveIo} (h : Changes env w op io cfg) : Contains env w cfg op := by
  cases h with
  | added hcreates hroom =>
      refine ⟨fun host d hadds => ?_, fun host b hdel => ?_⟩
      · obtain ⟨rfl, rfl⟩ := adds_inj hcreates.adds hadds
        rw [ServerConfig.push_nodes]
        exact List.mem_append_right _ (List.mem_singleton_self _)
      · cases hcreates.adds.symm.trans (congrArg Op.adds hdel)
  | removed hdel =>
      refine ⟨fun host d hadds => ?_, fun host b hop => ?_⟩
      · cases hadds.symm.trans (congrArg Op.adds hdel.op)
      · obtain ⟨rfl, rfl⟩ := Op.delete.inj (hdel.op.symm.trans hop)
        -- `memmove` over the index that was found is `eraseP` of the name.
        have hidx := hdel.index
        obtain ⟨hlt, -⟩ := List.findIdx?_eq_some_iff_getElem.mp hidx
        rw [nodeManagerFindNodeIndex] at hidx
        refine ⟨?_, ?_⟩
        · rw [List.eraseP_eq_eraseIdx, hidx]
          rfl
        · rw [ServerConfig.removeAt_nodes, List.length_eraseIdx_of_lt hlt]
          omega
  | renamed hparse hns =>
      intro root ns hparse' hns'
      obtain rfl := Option.some.inj (hparse.symm.trans hparse')
      obtain rfl := Option.some.inj (hns.symm.trans hns')
      rfl

/-- The file operations of a change are those of its operation. -/
theorem Changes.saveIo {io : SaveIo} (h : Changes env w op io cfg) : op.saveIo = some io := by
  cases h with
  | @added o host d hcreates hroom =>
      have hadds := hcreates.adds
      cases o with
      | addFolder host' parent b display =>
          obtain ⟨rfl, -⟩ := Prod.mk.inj (Option.some.inj hadds)
          rfl
      | addVariable host' parent b display dt sim =>
          obtain ⟨rfl, -⟩ := Prod.mk.inj (Option.some.inj hadds)
          rfl
      | _ => cases hadds
  | removed hdel =>
      rw [hdel.op]
      rfl
  | renamed => rfl

/-- **One step.** An operation is durable exactly when it persists. -/
theorem ConfigStep.durable_step_iff (h : ConfigStep env w op ok w')
    (hrun : (performConfig env op).run w = .ok (ok, w'))
    (hcjson : RoundTrips env.cjson w'.nm.config)
    (hpart : ∀ io, op.saveIo = some io → ReadsNoPart env.cjson io) :
    Durable env w op ↔ Persists env w op := by
  cases h with
  | failed hrefused =>
      refine iff_of_true (fun w'' hrun' => ?_) ⟨?_, ?_, ?_⟩
      · cases hrun.symm.trans hrun'
      · rintro o host d rfl hcreates
        exact absurd (.creates hcreates) hrefused
      · exact fun io cfg hchange => absurd hchange.accepted hrefused
      · exact fun io cfg hchange => absurd hchange.accepted hrefused
  | @changed io cfg _ hchange _ hconfig hfile =>
      have hsave : FileHolds env.cjson (serverConfigSave env.cjson io cfg w.file).2 cfg ↔ _ :=
        fileHolds_save_iff (hconfig ▸ hcjson) (hpart io hchange.saveIo)
      constructor
      · intro hdurable
        obtain ⟨-, hholds⟩ := hdurable w' hrun
        rw [hconfig, hfile, hsave] at hholds
        refine ⟨?_, fun io' cfg' hchange' => ?_, fun io' cfg' hchange' => ?_⟩
        · rintro o host d rfl hcreates
          cases hchange with
          | added _ hroom => exact hroom
          | removed hdel => cases hcreates.adds.symm.trans (congrArg Op.adds hdel.op)
        · obtain ⟨rfl, rfl⟩ := hchange.unique hchange'
          exact hholds.1
        · obtain ⟨rfl, rfl⟩ := hchange.unique hchange'
          exact hholds.2
      · intro hpersists w'' hrun'
        obtain rfl : w' = w'' := by
          have hsame := hrun.symm.trans hrun'
          rw [Except.ok.injEq, Prod.mk.injEq] at hsame
          exact hsame.2
        rw [hconfig, hfile, hsave]
        exact ⟨hchange.contains, hpersists.rest io cfg hchange, hpersists.saves io cfg hchange⟩
  | @overflowed o host d _ hop hcreates hfull _ hconfig _ =>
      refine iff_of_false (fun hdurable => ?_) fun hpersists => ?_
      · -- The new name is in no definition.
        obtain ⟨hcontains, -⟩ := hdurable w' hrun
        rw [hop, hconfig] at hcontains
        exact not_has_of_checks hcreates.adds hcreates.checks d
          (hcontains.1 host d hcreates.adds) rfl
      · exact hfull (hpersists.room o host d hop hcreates)

/-- **The extent of durability.** From any build, along any run of additions, deletions and
changes of the namespace with any outcomes of the file operations, every operation that
reports success is durable exactly when every operation persists. -/
theorem durable_iff {host : Host} {nsIdx : Nat} {file : Option CString}
    (hstart : start host nsIdx cfg file = some w) {ops : List ConfigOp}
    (hops : ∀ op ∈ ops, op.changesConfig = true ∧
      ∀ io, op.saveIo = some io → ReadsNoPart env.cjson io)
    (hcjson : Always (stepConfigOp env) (fun w => RoundTrips env.cjson w.nm.config) w ops) :
    Each (stepConfigOp env) (Durable env) w ops ↔
      Each (stepConfigOp env) (Persists env) w ops := by
  have hmutex : Always (stepConfigOp env) (fun w => w.nm.mutexHeld = false) w ops :=
    mutex_always (fun op hop => (hops op hop).1) (start_sound hstart).mutex
  refine each_congr (fun op => op.changesConfig = true ∧
    ∀ io, op.saveIo = some io → ReadsNoPart env.cjson io) ?_ hops (hmutex.and hcjson)
  rintro w op w' ⟨hop, hpart⟩ ⟨hm, -⟩ ⟨-, hround⟩ hstep
  obtain ⟨ok, hrun, h⟩ := configStep_of_step hm hop hstep
  exact h.durable_step_iff hrun hround hpart

/-! ### The replacement of the file -/

/-- The file is accepted at the next start of the server. -/
def Loads (cjson : CJson) (file : Option CString) : Prop :=
  ∃ cfg file', serverConfigLoad cjson .ok file = (some cfg, file')

/-- The save replaces the file by the whole text or leaves it, says so, and leaves a file that
can be loaded where there was one. -/
structure SavesAtomically (cjson : CJson) (io : SaveIo) (cfg : ServerConfig)
    (file : Option CString) : Prop where
  whole : (serverConfigSave cjson io cfg file).2 = file ∨
    (serverConfigSave cjson io cfg file).2 = some (cjson.print (configToJson cfg))
  reported : (serverConfigSave cjson io cfg file).1 = true →
    (serverConfigSave cjson io cfg file).2 = some (cjson.print (configToJson cfg))
  loads : Loads cjson file → Loads cjson (serverConfigSave cjson io cfg file).2

/-- A save reports success when none of the steps that it looks at has failed. -/
theorem save_reports (cjson : CJson) (io : SaveIo) (cfg : ServerConfig) (file : Option CString) :
    (serverConfigSave cjson io cfg file).1 = !io.fails := by
  obtain ⟨printed, opened, written, truncated, renamed⟩ := io
  cases printed <;> cases opened <;> cases written <;> cases renamed <;> rfl

/-- **The extent of atomicity.** A save is atomic exactly when no bytes are lost by the
`fclose` of a save whose other steps go through. -/
theorem savesAtomically_iff {cjson : CJson} (hcjson : RoundTrips cjson cfg) (io : SaveIo)
    (file : Option CString) : SavesAtomically cjson io cfg file ↔
      ∀ n, io.fails = false → io.truncated = some n →
        (cjson.print (configToJson cfg)).length ≤ n := by
  constructor
  · intro hatomic n hok hcut
    have hreported := hatomic.reported (by simp [save_reports, hok])
    rcases save_cases cjson io cfg file with ⟨hfails, -⟩ | ⟨hwhole, -⟩ | ⟨m, -, hcut', hlt, hfile⟩
    · simp [hok] at hfails
    · exact hwhole.2 n hcut
    · -- The file is shorter than the text that it is said to hold.
      rw [hfile, Option.some.injEq] at hreported
      have hlen := congrArg List.length hreported
      rw [List.length_take] at hlen
      omega
  · intro hwhole
    rcases save_cases cjson io cfg file with ⟨hfails, hfile⟩ | ⟨-, hfile⟩ | ⟨n, hok, hcut, hlt, -⟩
    · refine ⟨Or.inl hfile, fun hreported => ?_, fun hloads => ?_⟩
      · simp [save_reports, hfails] at hreported
      · rw [hfile]
        exact hloads
    · refine ⟨Or.inr hfile, fun _ => hfile, fun _ => ?_⟩
      rw [hfile]
      exact ⟨_, _, load_printed hcjson⟩
    · have hle := hwhole n hok hcut
      omega

/-- The whole text of the plant is written over an unreadable file. -/
theorem savesAtomically_plant :
    SavesAtomically plantEnv.cjson .ok (plant "urn:works") (some "garbage".toList) :=
  (savesAtomically_iff (roundTrips_plant (by simp [plantConfigs])) .ok _).mpr nofun

/-- The disk is full: `fclose` writes ten bytes of the new text, the save reports success, and
the good file that was there has become one that the next start rejects. -/
theorem not_savesAtomically_fullDisk :
    RoundTrips plantEnv.cjson (plant "urn:works") ∧ Loads plantEnv.cjson plantFile ∧
    (serverConfigSave plantEnv.cjson { SaveIo.ok with truncated := some 10 } (plant "urn:works")
      plantFile).1 = true ∧
    ¬ Loads plantEnv.cjson (serverConfigSave plantEnv.cjson
      { SaveIo.ok with truncated := some 10 } (plant "urn:works") plantFile).2 ∧
    ¬ SavesAtomically plantEnv.cjson { SaveIo.ok with truncated := some 10 } (plant "urn:works")
      plantFile := by
  have hrejected : ¬ Loads plantEnv.cjson (serverConfigSave plantEnv.cjson
      { SaveIo.ok with truncated := some 10 } (plant "urn:works") plantFile).2 := by
    rintro ⟨cfg, file', hload⟩
    -- Ten bytes are not a document, and a start does not take the defaults for them.
    have hnone : (serverConfigLoad plantEnv.cjson .ok (serverConfigSave plantEnv.cjson
        { SaveIo.ok with truncated := some 10 } (plant "urn:works") plantFile).2).1 = none := by
      decide
    rw [hload] at hnone
    cases hnone
  have hloads : Loads plantEnv.cjson plantFile := ⟨_, _, load_plant⟩
  exact ⟨roundTrips_plant (by simp [plantConfigs]), hloads, rfl, hrejected,
    fun hatomic => hrejected (hatomic.loads hloads)⟩

/-! ### Two runs of the plant -/

-- The runs below compare the file operations of their steps.
deriving instance DecidableEq for SaveIo

/-- An operation whose save goes through persists, when there is room and more than one
definition. -/
theorem persists_of_ok (hio : op.saveIo = some .ok)
    (hroom : w.nm.config.nodes.length < serverMaxNodes)
    (hmany : 1 < w.nm.config.nodes.length) : Persists env w op := by
  refine ⟨fun _ _ _ _ _ => hroom, fun io cfg hchange => ?_, fun io cfg hchange => ?_⟩
  · cases hchange with
    | added =>
        rw [ServerConfig.push_nodes]
        exact List.append_ne_nil_of_right_ne_nil _ (List.cons_ne_nil _ _)
    | removed hdel => exact (removeAt_ne_nil hdel.index).mpr hmany
    | renamed =>
        have hpos : 0 < w.nm.config.nodes.length := by omega
        exact List.ne_nil_of_length_pos hpos
  · obtain rfl := Option.some.inj (hio.symm.trans hchange.saveIo)
    exact Or.inl ⟨rfl, nofun⟩

/-- The same run with every save going through is durable. -/
theorem durable_plant : ∃ w, start .ok 1 (plant "urn:plant") plantFile = some w ∧
    Each (stepConfigOp plantEnv) (Durable plantEnv) w
      [putWorks, addLine .ok, deleteNode "Line1"] := by
  -- One evaluation of the run: its configurations are among those that the reader is tested on, and
  -- each step has a good save and room.
  have hcheck : ((start .ok 1 (plant "urn:plant") plantFile).any fun w =>
      alwaysb (stepConfigOp plantEnv) (fun w => w.nm.config ∈ plantConfigs) w
        [putWorks, addLine .ok, deleteNode "Line1"] &&
      eachb (stepConfigOp plantEnv) (fun w op => op.saveIo = some .ok &&
          w.nm.config.nodes.length < serverMaxNodes && 1 < w.nm.config.nodes.length) w
        [putWorks, addLine .ok, deleteNode "Line1"]) = true := by
    decide
  obtain ⟨w, hw, hcheck⟩ := (Option.any_eq_true _ _).mp hcheck
  rw [Bool.and_eq_true] at hcheck
  have hops : ∀ op ∈ [putWorks, addLine .ok, deleteNode "Line1"], op.changesConfig = true ∧
      ∀ io, op.saveIo = some io → ReadsNoPart plantEnv.cjson io := by
    have hok : ReadsNoPart plantEnv.cjson .ok := nofun
    simp only [List.mem_cons, List.not_mem_nil, or_false]
    rintro op (rfl | rfl | rfl)
    · exact ⟨rfl, fun io hio => Option.some.inj hio ▸ hok⟩
    · exact ⟨rfl, fun io hio => Option.some.inj hio ▸ hok⟩
    · exact ⟨rfl, fun io hio => Option.some.inj hio ▸ hok⟩
  refine ⟨w, hw, (durable_iff hw hops (roundTrips_always_plant hcheck.1)).mpr ?_⟩
  refine each_of_eachb (fun w op h => ?_) hcheck.2
  simp only [Bool.and_eq_true, decide_eq_true_eq] at h
  exact persists_of_ok h.1.1 h.1.2 h.2

/-- The world after an operation that reports success. -/
def reportedWorld : Except Fault (Bool × World) → Option World
  | .ok (true, w) => some w
  | _ => none

theorem ok_of_reportedWorld {res : Except Fault (Bool × World)} (h : reportedWorld res = some w) :
    res = .ok (true, w) := by
  rcases res with e | ⟨_ | _, w'⟩
  · cases h
  · cases h
  · rw [← Option.some.inj h]

/-- The temporary file cannot be opened while `Line1` is added. The operation reports success,
and the file still holds the two folders. -/
theorem not_durable_failedSave : ∃ w, start .ok 1 (plant "urn:plant") plantFile = some w ∧
    ¬ Each (stepConfigOp plantEnv) (Durable plantEnv) w
      [addLine { SaveIo.ok with opened := false }] := by
  have hcheck : ((start .ok 1 (plant "urn:plant") plantFile).any fun w =>
      (reportedWorld ((performConfig plantEnv
        (addLine { SaveIo.ok with opened := false })).run w)).any fun w' =>
          w'.file = plantFile && w'.nm.config.nodes.length = 3) = true := by
    decide +kernel
  obtain ⟨w, hw, hcheck⟩ := (Option.any_eq_true _ _).mp hcheck
  obtain ⟨w', hreported, hw'⟩ := (Option.any_eq_true _ _).mp hcheck
  have hrun := ok_of_reportedWorld hreported
  simp only [Bool.and_eq_true, decide_eq_true_eq] at hw'
  have hstep : stepConfigOp plantEnv w (addLine { SaveIo.ok with opened := false })
      = some w' := by
    rw [stepConfigOp, hrun]
  refine ⟨w, hw, fun heach => ?_⟩
  obtain ⟨-, text, root, htext, hroot, hsame⟩ := (heach w' hstep).1 w' hrun
  rw [hw'.1] at htext
  obtain rfl := Option.some.inj htext
  -- The file decodes to the two folders that were there before.
  have hplant : RoundTrips plantEnv.cjson (plant "urn:plant") :=
    roundTrips_plant (List.mem_cons_self ..)
  obtain rfl := Option.some.inj (hplant.2.symm.trans hroot)
  have hlen := hsame.nodes.length_eq
  rw [hw'.2] at hlen
  revert hlen
  decide

end SmartFactory.Server
