import SmartFactory.Server.Lifecycle
import SmartFactory.Proofs.Durability
import SmartFactory.Proofs.Restart
import SmartFactory.Proofs.Events

/-!
# `SmartFactory.Proofs.Lifecycle`: whether the server comes up again

The server writes the file that it has to read at its next start. `comesUp_iff` says when it can:
in every state of every sequence of lives, whatever file operations have failed, the next start
brings up a server exactly when the file has not been cut off (`Torn`). Only a save whose `fclose`
loses bytes leaves such a file. While the server runs, a later save may repair it. Once the server
has stopped, no start succeeds any more, as long as the file can be opened.
-/

set_option autoImplicit false

namespace SmartFactory.Server

open Run

variable {cjson : CJson} {env : HttpEnv} {cfg : ServerConfig} {file : Option CString}
variable {w w' : World} {m m' : Machine}

/-! ### Files -/

/-- cJSON reads no proper part of a configuration that it has printed. -/
def ReadsNoParts (cjson : CJson) : Prop :=
  ∀ (cfg : ServerConfig) n, n < (cjson.print (configToJson cfg)).length →
    cjson.parse ((cjson.print (configToJson cfg)).take n) = none

/-- The file has the beginning of a printed configuration, and not all of it. -/
def Torn (cjson : CJson) (file : Option CString) : Prop :=
  ∃ (cfg : ServerConfig) (n : Nat), 0 < n ∧ n < (cjson.print (configToJson cfg)).length ∧
    file = some ((cjson.print (configToJson cfg)).take n)

/-- The file is loaded as a configuration that can be built. -/
def Startable (cjson : CJson) (file : Option CString) : Prop :=
  ∃ cfg file', serverConfigLoad cjson .ok file = (some cfg, file') ∧ DistinctNames cfg

/-- A start brings up a server, when its calls succeed. -/
def ComesUp (cjson : CJson) (file : Option CString) : Prop :=
  ∀ host nsIdx, (∀ b, host.refuse b = none) → ∃ w, restart cjson host nsIdx file = some w

/-- A server comes up with a file that it can start with. -/
theorem Startable.comesUp (h : Startable cjson file) : ComesUp cjson file := by
  obtain ⟨cfg, file', hload, hnd⟩ := h
  intro host nsIdx hhost
  obtain ⟨w, hw⟩ := exists_start host nsIdx file' hhost hnd
  exact ⟨w, by rw [restart, hload]; exact hw⟩

/-- It can start without a file. -/
theorem startable_none (cjson : CJson) : Startable cjson none :=
  ⟨_, _, rfl, distinctNames_defaults⟩

/-- An empty file is replaced by the defaults. -/
theorem startable_empty (cjson : CJson) : Startable cjson (some []) :=
  ⟨_, _, rfl, distinctNames_defaults⟩

/-- So can it with one that it has printed, when the names are distinct. -/
theorem startable_printed (hcjson : RoundTrips cjson cfg) (hnd : DistinctNames cfg) :
    Startable cjson (some (cjson.print (configToJson cfg))) := by
  refine ⟨_, _, load_printed hcjson, ?_⟩
  rw [configOfJson_eq]
  split
  · exact distinctNames_defaults
  · have hsame : SameNodes cfg (reloaded cfg) := by
      rw [SameNodes, reloaded_nodes, List.map_map]
      exact List.map_congr_left fun d _ => (saved_saved d).symm
    exact hsame.distinctNames hnd

/-- A load of a file that is cut off fails, unless it does not get to open the file. -/
theorem load_torn (hparts : ReadsNoParts cjson) (h : Torn cjson file) {io : LoadIo}
    (hopened : io.opened = true) : serverConfigLoad cjson io file = (none, file) := by
  obtain ⟨cfg, n, hpos, hlt, rfl⟩ := h
  -- The file is not empty, so it is not taken for a missing one.
  have hlen : ((cjson.print (configToJson cfg)).take n).length ≠ 0 := by
    rw [List.length_take]
    omega
  simp only [serverConfigLoad, hopened, hlen, hparts cfg n hlt, Bool.not_true, Bool.false_or,
    decide_false, Bool.false_eq_true, if_false]
  split
  · rfl
  · split
    · rfl
    · rfl

/-- The outcomes of a load: the defaults are written, it fails, or it reads the file. -/
theorem load_cases (cjson : CJson) (io : LoadIo) (file : Option CString) :
    serverConfigLoad cjson io file = (some serverConfigSeedDefaults,
      (serverConfigSave cjson io.save serverConfigSeedDefaults file).2) ∨
    serverConfigLoad cjson io file = (none, file) ∨
    ∃ cfg, io.opened = true ∧ serverConfigLoad cjson io file = (some cfg, file) ∧
      serverConfigLoad cjson .ok file = (some cfg, file) := by
  cases file with
  | none => exact .inl rfl
  | some text =>
      by_cases hseeds : (!io.opened || text.length = 0) = true
      · exact .inl (if_pos hseeds)
      · have hopened : io.opened = true ∧ text.length ≠ 0 := by simpa using hseeds
        rw [serverConfigLoad, if_neg hseeds]
        split
        · exact .inr (.inl rfl)
        · split
          · exact .inr (.inl rfl)
          · cases hparse : cjson.parse text with
            | none => exact .inr (.inl rfl)
            | some root =>
                refine .inr (.inr ⟨_, hopened.1, rfl, ?_⟩)
                simp [serverConfigLoad, LoadIo.ok, hopened.2, hparse]

/-! ### Saves -/

/-- The file can be used at the next start, or it is torn, if that may be. -/
def Left (mayTear : Prop) (cjson : CJson) (file : Option CString) : Prop :=
  Startable cjson file ∨ mayTear ∧ Torn cjson file

variable {mayTear : Prop}

/-- **One save.** -/
theorem Left.save (h : Left mayTear cjson file) (hcjson : RoundTrips cjson cfg)
    (hnd : DistinctNames cfg) {io : SaveIo} (hio : mayTear ∨ io.truncated = none) :
    Left mayTear cjson (serverConfigSave cjson io cfg file).2 := by
  rcases save_cases cjson io cfg file with ⟨-, hfile⟩ | ⟨-, hfile⟩ | ⟨n, -, hcut, hlt, hfile⟩
  · rw [hfile]
    exact h
  · rw [hfile]
    exact .inl (startable_printed hcjson hnd)
  · rw [hfile]
    rcases Nat.eq_zero_or_pos n with rfl | hpos
    · -- When every byte is lost, the next start writes the defaults.
      exact .inl (startable_empty cjson)
    · rcases hio with hmay | hnone
      · exact .inr ⟨hmay, cfg, n, hpos, hlt, rfl⟩
      · cases hcut.symm.trans hnone

/-- What an operation does to the file: nothing, or it saves the configuration that it leaves. -/
theorem stepConfigOp_file (hw : Sound w) {op : ConfigOp} (h : stepConfigOp env w op = some w') :
    w'.file = w.file ∨ ∃ io, op.saveIo = some io ∧
      w'.file = (serverConfigSave env.cjson io w'.nm.config w.file).2 := by
  by_cases hop : op.changesConfig = true
  · obtain ⟨ok, -, hstep⟩ := configStep_of_step hw.mutex hop h
    cases hstep with
    | failed => exact .inl rfl
    | overflowed _ _ _ _ _ _ hfile => exact .inl hfile
    | changed _ hchange _ hconfig hfile => exact .inr ⟨_, hchange.saveIo, hconfig ▸ hfile⟩
  · cases op with
    | putConfig io body => exact absurd rfl hop
    | node op =>
        -- A tick, a switch, a reset or a client write saves nothing.
        obtain ⟨hsim, -, -⟩ := isSimulationOp_of_not_structural (Bool.eq_false_iff.mpr hop)
        obtain ⟨rc, hrun⟩ := stepOp_eq_some.mp (stepConfigOp_node op ▸ h)
        exact .inl (simulationOp_switchState env.cjson hw hsim hrun).1.file

/-- The operations of a server keep the names distinct. -/
theorem distinctNames_stepConfigOp (hw : Sound w) (hnd : DistinctNames w.nm.config)
    {op : ConfigOp} (h : stepConfigOp env w op = some w') : DistinctNames w'.nm.config := by
  cases op with
  | putConfig io body =>
      obtain ⟨ns, file, rfl⟩ := putConfig_world hw.mutex h
      exact hnd
  | node op => exact distinctNames_step hnd (step_kinds hw (stepConfigOp_node op ▸ h))

/-- **One operation.** -/
theorem Left.operation (h : Left mayTear env.cjson w.file) (hw : Sound w)
    (hnd : DistinctNames w.nm.config) {op : ConfigOp}
    (hround : RoundTrips env.cjson w'.nm.config)
    (hio : mayTear ∨ ∀ io, op.saveIo = some io → io.truncated = none)
    (hs : stepConfigOp env w op = some w') : Left mayTear env.cjson w'.file := by
  rcases stepConfigOp_file hw hs with hfile | ⟨io, hsave, hfile⟩
  · rw [hfile]
    exact h
  · rw [hfile]
    exact h.save hround (distinctNames_stepConfigOp hw hnd hs)
      (hio.imp_right fun hwhole => hwhole io hsave)

/-! ### Lives -/

/-- The save of an event or of a start does not lose bytes. -/
def LifeEvent.Whole (env : HttpEnv) : LifeEvent → Prop
  | .start _ _ io => io.save.truncated = none
  | .event e => ∀ op io, e.operation env = some op → op.saveIo = some io → io.truncated = none
  | .exit => True

/-- cJSON reads back the configuration of the server that runs. -/
def Machine.RoundTrips (cjson : CJson) : Machine → Prop
  | .stopped _ => True
  | .running s => Server.RoundTrips cjson s.world.nm.config

/-- The state between two steps. -/
structure Machine.Sane (mayTear : Prop) (cjson : CJson) (m : Machine) : Prop where
  left : Left mayTear cjson m.file
  running : ∀ s, m = .running s → Sound s.world ∧ DistinctNames s.world.nm.config

/-- A machine that is off is sane when it has left a sane file. -/
theorem sane_stopped (h : Left mayTear cjson file) : (Machine.stopped file).Sane mayTear cjson :=
  ⟨h, fun _ hrunning => by cases hrunning⟩

/-- **One start.** -/
theorem sane_startServer (hparts : ReadsNoParts cjson)
    (hdefaults : RoundTrips cjson serverConfigSeedDefaults) (h : Left mayTear cjson file)
    {io : LoadIo} (hio : mayTear ∨ io.save.truncated = none) (host : Host) (nsIdx : Nat) :
    (startServer cjson host nsIdx io file).Sane mayTear cjson := by
  -- What is loaded has distinct names, and the file stays usable.
  have hload : Left mayTear cjson (serverConfigLoad cjson io file).2 ∧
      ∀ cfg, (serverConfigLoad cjson io file).1 = some cfg → DistinctNames cfg := by
    rcases load_cases cjson io file with hseeds | hfailed | ⟨cfg, hopened, hread, hok⟩
    · rw [hseeds]
      refine ⟨h.save hdefaults distinctNames_defaults hio, ?_⟩
      rintro cfg ⟨⟩
      exact distinctNames_defaults
    · rw [hfailed]
      exact ⟨h, fun _ hcfg => by cases hcfg⟩
    · rw [hread]
      refine ⟨h, ?_⟩
      rintro cfg ⟨⟩
      rcases h with ⟨cfg', file', hstart, hnd⟩ | ⟨-, htorn⟩
      · cases hok.symm.trans hstart
        exact hnd
      · -- This file was read, and a torn one is not.
        cases hread.symm.trans (load_torn hparts htorn hopened)
  generalize hr : serverConfigLoad cjson io file = r at hload
  obtain ⟨cfg?, file'⟩ := r
  rw [startServer, hr]
  cases cfg? with
  | none => exact sane_stopped hload.1
  | some cfg =>
      dsimp only
      cases hstart : start host nsIdx cfg file' with
      | none => exact sane_stopped hload.1
      | some w =>
          refine ⟨?_, ?_⟩
          · show Left mayTear cjson w.file
            rw [start_file hstart]
            exact hload.1
          · rintro s ⟨⟩
            refine ⟨start_sound hstart, ?_⟩
            rw [start_config hstart]
            exact hload.2 cfg rfl

/-- **One step** of the program. -/
theorem Machine.Sane.step (h : m.Sane mayTear env.cjson) {e : LifeEvent}
    (hparts : ReadsNoParts env.cjson)
    (hdefaults : Server.RoundTrips env.cjson serverConfigSeedDefaults)
    (hround : m'.RoundTrips env.cjson) (he : mayTear ∨ e.Whole env)
    (hs : stepMachine env m e = some m') : m'.Sane mayTear env.cjson := by
  cases m with
  | stopped file =>
      cases e with
      | start host nsIdx io =>
          obtain rfl := Option.some.inj hs
          exact sane_startServer hparts hdefaults h.left he host nsIdx
      | event e => cases hs
      | exit => cases hs
  | running s =>
      obtain ⟨hsound, hnd⟩ := h.running s rfl
      cases e with
      | start host nsIdx io => cases hs
      | exit =>
          obtain rfl := Option.some.inj hs
          exact sane_stopped h.left
      | event e =>
          obtain ⟨s', hstep, rfl⟩ := Option.map_eq_some_iff.mp hs
          -- An event either leaves the configuration and the file alone, or is one operation on
          -- them.
          rcases stepEvent_cases hsound.mutex hstep with hsame | ⟨op, hop, hconfig⟩
          · refine ⟨?_, ?_⟩
            · show Left mayTear env.cjson s'.world.file
              rw [hsame]
              exact h.left
            · rintro s'' ⟨⟩
              rw [hsame]
              exact ⟨hsound, hnd⟩
          · refine ⟨?_, ?_⟩
            · show Left mayTear env.cjson s'.world.file
              exact h.left.operation hsound hnd hround
                (he.imp_right fun hwhole io hio => hwhole op io hop hio) hconfig
            · rintro s'' ⟨⟩
              exact ⟨sound_stepConfigOp hsound hconfig,
                distinctNames_stepConfigOp hsound hnd hconfig⟩

/-- **Any sequence of lives.** -/
theorem sane_of_run {ms : List LifeEvent} (hparts : ReadsNoParts env.cjson)
    (hdefaults : RoundTrips env.cjson serverConfigSeedDefaults) (h : m.Sane mayTear env.cjson)
    (hround : Always (stepMachine env) (Machine.RoundTrips env.cjson) m ms)
    (hms : mayTear ∨ ∀ e ∈ ms, e.Whole env) (hr : run (stepMachine env) m ms = some m') :
    m'.Sane mayTear env.cjson := by
  induction ms generalizing m with
  | nil =>
      obtain rfl := Option.some.inj hr
      exact h
  | cons e ms ih =>
      obtain ⟨m₁, hs, hr⟩ := Option.bind_eq_some_iff.mp hr
      refine ih (h.step hparts hdefaults (hround.2 m₁ hs).head ?_ hs) (hround.2 m₁ hs) ?_ hr
      · exact hms.imp_right fun hall => hall e (List.mem_cons_self ..)
      · exact hms.imp_right fun hall e' he' => hall e' (List.mem_cons_of_mem _ he')

/-- **The file is torn for good.** No start succeeds, and none changes the file, unless the file
cannot even be opened. -/
theorem locked_out (hparts : ReadsNoParts env.cjson) (h : Torn env.cjson file)
    {ms : List LifeEvent}
    (hopened : ∀ host nsIdx io, LifeEvent.start host nsIdx io ∈ ms → io.opened = true)
    (hr : run (stepMachine env) (.stopped file) ms = some m) : m = .stopped file := by
  induction ms with
  | nil => exact (Option.some.inj hr).symm
  | cons e ms ih =>
      obtain ⟨m₁, hs, hr⟩ := Option.bind_eq_some_iff.mp hr
      cases e with
      | event e => cases hs
      | exit => cases hs
      | start host nsIdx io =>
          have hfailed : startServer env.cjson host nsIdx io file = .stopped file := by
            rw [startServer, load_torn hparts h (hopened host nsIdx io (List.mem_cons_self ..))]
          obtain rfl : m₁ = .stopped file := (Option.some.inj hs).symm.trans hfailed
          exact ih (fun host nsIdx io hmem =>
            hopened host nsIdx io (List.mem_cons_of_mem _ hmem)) hr

/-- **The server comes up again.** It is started with a file that it can start from, and then it
lives any number of lives, with any requests, writes and exits and any outcomes of the file
operations. In every state the next start succeeds exactly when the file is not torn. It never is
when no save loses bytes. While a server runs, a good save repairs a torn file; one that is torn
when the server has stopped stays so, as long as it can be opened. -/
theorem comesUp_iff {ms : List LifeEvent} (hparts : ReadsNoParts env.cjson)
    (hdefaults : RoundTrips env.cjson serverConfigSeedDefaults)
    (hstart : Startable env.cjson file)
    (hround : Always (stepMachine env) (Machine.RoundTrips env.cjson) (.stopped file) ms)
    (hr : run (stepMachine env) (.stopped file) ms = some m) :
    (ComesUp env.cjson m.file ↔ ¬ Torn env.cjson m.file) ∧
    ((∀ e ∈ ms, e.Whole env) → ¬ Torn env.cjson m.file) ∧
    (Torn env.cjson m.file → ∀ ms' m',
      (∀ host nsIdx io, LifeEvent.start host nsIdx io ∈ ms' → io.opened = true) →
      run (stepMachine env) (.stopped m.file) ms' = some m' → m' = .stopped m.file) := by
  have hfails : Torn env.cjson m.file → ¬ ComesUp env.cjson m.file := by
    intro htorn hup
    obtain ⟨w, hw⟩ := hup .ok 1 fun _ => rfl
    rw [restart, load_torn hparts htorn rfl] at hw
    cases hw
  -- The run is gone through twice: saves may lose bytes the first time, and not the second time.
  have hsane (mayTear : Prop) : (Machine.stopped file).Sane mayTear env.cjson :=
    sane_stopped (.inl hstart)
  refine ⟨⟨fun hup htorn => hfails htorn hup, fun hwhole => ?_⟩, fun hall htorn => ?_,
    fun htorn _ _ hopened hr' => locked_out hparts htorn hopened hr'⟩
  · rcases (sane_of_run hparts hdefaults (hsane True) hround (.inl trivial) hr).left with
      hstartable | ⟨-, htorn⟩
    · exact hstartable.comesUp
    · exact absurd htorn hwhole
  · rcases (sane_of_run hparts hdefaults (hsane False) hround (.inr hall) hr).left with
      hstartable | ⟨hfalse, -⟩
    · exact hfails htorn hstartable.comesUp
    · exact hfalse

/-! ### A disk that is full at the first start -/

/-- A cJSON that knows one document and prints no other. -/
def CJson.only (doc : Json) : CJson where
  print other := if other.text 0 = doc.text 0 then doc.text 0 else []
  parse text := if text = doc.text 0 then some doc else Option.none

/-- The library of the examples prints the text of one configuration, or nothing. -/
theorem print_only (cfg cfg' : ServerConfig) :
    (CJson.only (configToJson cfg)).print (configToJson cfg') = (configToJson cfg).text 0 ∨
      (CJson.only (configToJson cfg)).print (configToJson cfg') = [] := by
  by_cases h : (configToJson cfg').text 0 = (configToJson cfg).text 0
  · exact .inl (if_pos h)
  · exact .inr (if_neg h)

/-- It prints its own. -/
theorem print_only_self (cfg : ServerConfig) :
    (CJson.only (configToJson cfg)).print (configToJson cfg) = (configToJson cfg).text 0 :=
  if_pos rfl

/-- In more than one character. -/
theorem one_lt_length_print (cfg : ServerConfig) :
    1 < ((CJson.only (configToJson cfg)).print (configToJson cfg)).length := by
  have hopen : "\x7b\n".toList.length = 2 := by decide
  rw [print_only_self]
  simp only [configToJson, Json.text, List.length_append]
  omega

/-- And reads it back. -/
theorem roundTrips_only (cfg : ServerConfig) : RoundTrips (.only (configToJson cfg)) cfg := by
  have hlen := one_lt_length_print cfg
  refine ⟨fun hnil => ?_, ?_⟩
  · rw [hnil] at hlen
    cases hlen
  · rw [print_only_self]
    exact if_pos rfl

/-- It reads nothing but the whole text. -/
theorem readsNoParts_only (cfg : ServerConfig) : ReadsNoParts (.only (configToJson cfg)) := by
  intro cfg' n hlt
  rcases print_only cfg cfg' with hprint | hprint
  · rw [hprint] at hlt ⊢
    have hne : ((configToJson cfg).text 0).take n ≠ (configToJson cfg).text 0 := by
      intro hwhole
      have hlen := congrArg List.length hwhole
      rw [List.length_take] at hlen
      omega
    exact if_neg hne
  · rw [hprint] at hlt
    cases hlt

/-- The start of a server without a file, when there is room for one byte. -/
def fullStart : LifeEvent :=
  .start .ok 1 { LoadIo.ok with save := { SaveIo.ok with truncated := some 1 } }

/-- The server runs, and what it leaves is torn. -/
theorem fullStart_run (hdefaults : RoundTrips env.cjson serverConfigSeedDefaults)
    (hlen : 1 < (env.cjson.print (configToJson serverConfigSeedDefaults)).length) : ∃ m,
    run (stepMachine env) (.stopped none) [fullStart, .exit] = some m ∧
    Always (stepMachine env) (Machine.RoundTrips env.cjson) (.stopped none) [fullStart, .exit] ∧
    Torn env.cjson m.file := by
  obtain ⟨w, hw⟩ := exists_start .ok 1
    (some ((env.cjson.print (configToJson serverConfigSeedDefaults)).take 1)) (fun _ => rfl)
    distinctNames_defaults
  -- No file: the defaults are taken and saved, and one byte of them reaches the disk.
  have hload : serverConfigLoad env.cjson
      { LoadIo.ok with save := { SaveIo.ok with truncated := some 1 } } none
      = (some serverConfigSeedDefaults,
          some ((env.cjson.print (configToJson serverConfigSeedDefaults)).take 1)) := rfl
  have hstarted : stepMachine env (.stopped none) fullStart = some (.running ⟨w, false⟩) := by
    rw [fullStart, stepMachine, startServer, hload]
    dsimp only
    rw [hw]
  refine ⟨.stopped w.file, ?_, ⟨trivial, fun m hm => ?_⟩, serverConfigSeedDefaults, 1,
    Nat.one_pos, hlen, start_file hw⟩
  · rw [run, hstarted]
    rfl
  · obtain rfl := Option.some.inj (hm.symm.trans hstarted)
    refine ⟨?_, fun m' hm' => ?_⟩
    · show RoundTrips env.cjson w.nm.config
      rw [start_config hw]
      exact hdefaults
    · obtain rfl := Option.some.inj hm'
      trivial

/-- A server that knows its defaults. It has run once, and it never comes up again. -/
theorem comesUp_iff_full :
    let env : HttpEnv :=
      { HttpEnv.knowing .null with cjson := .only (configToJson serverConfigSeedDefaults) }
    ∃ m, run (stepMachine env) (.stopped none) [fullStart, .exit] = some m ∧
      Torn env.cjson m.file ∧ ¬ ComesUp env.cjson m.file := by
  intro env
  have hdefaults : RoundTrips env.cjson serverConfigSeedDefaults := roundTrips_only _
  obtain ⟨m, hrun, hround, htorn⟩ := fullStart_run hdefaults (one_lt_length_print _)
  have hup := (comesUp_iff (readsNoParts_only _) hdefaults (startable_none _) hround hrun).1
  exact ⟨m, hrun, htorn, fun h => hup.mp h htorn⟩

end SmartFactory.Server
