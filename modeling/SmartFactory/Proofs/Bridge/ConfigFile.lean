import SmartFactory.Bridge.ConfigStore

/-!
# `SmartFactory.Proofs.Bridge.ConfigFile`: memory and file of the bridge configuration

Two calls of `SetConfig` store their configurations in one order and may write them in the
other, and a `SaveFile` that fails leaves the memory changed.

`Agree` compares memory and file whenever no call is in progress. `UndoneOnError` is what a
caller expects of an error: the call has left both as they were. `memoryIsFile_iff` is the
extent of the two laws. They hold along an interleaving exactly when `main` took its
configuration from the file, and each `SaveFile` is `Orderly`.
-/

set_option autoImplicit false

namespace SmartFactory.Bridge

open Run

/-- The call has returned. -/
def SetConfig.isReturned : SetConfig → Bool
  | .returned _ => true
  | _ => false

/-- No `SetConfig` is in progress. -/
def Quiet (p : ConfigPool) : Prop := ∀ t ∈ p.threads, t.isReturned = true

/-- No `SetConfig` but the one at the index is in progress. -/
def LastInProgress (p : ConfigPool) (i : Nat) : Prop :=
  ∀ j t, j ≠ i → p.threads[j]? = some t → t.isReturned = true

section
variable (json : ConfigJson)

/-- When no call is in progress and a path is configured, the file holds what `GetConfig`
returns. -/
def Agree (p : ConfigPool) : Prop :=
  Quiet p → p.shared.configPath ≠ "" → loadFile json p.shared.file = some p.shared.getConfig

/-- A call that returns an error has left memory and file as they were. -/
def UndoneOnError (p : ConfigPool) (m : ConfigMove) : Prop :=
  ∀ i o c before p', m = .step i o → p.threads[i]? = some (.save c before) → o.err ≠ none →
    stepConfig json p m = some p' → (p'.shared.getConfig, p'.shared.file) = before

/-- The condition on one `SaveFile`. If it succeeds as the last call in progress, it writes the
configuration in memory. If it fails, the memory holds what it held when the call began, and
so does the file, with the bytes that reached it; and if this is the last call in progress,
the two agree. -/
def Orderly (p : ConfigPool) (m : ConfigMove) : Prop :=
  ∀ i o c before, m = .step i o → p.threads[i]? = some (.save c before) →
    (o = .ok → LastInProgress p i → c = p.shared.cfg) ∧
    (o.err ≠ none → (p.shared.cfg, o.content (json.marshalIndent c) p.shared.file) = before ∧
      (LastInProgress p i → loadFile json before.2 = some before.1))

/-- `main` took its configuration from the file: the file was there, it was read and decoded,
and no environment variable changed the result. -/
def TakenFromFile (env : Environment) (readable : Bool) (file : Option Bytes) : Prop :=
  env.configPath ≠ "" → loadFile json file = some (mainConfig json env readable file)

/-- The JSON of the configurations that the calls bring along is read back. -/
def ConfigMove.RoundTrips : ConfigMove → Prop
  | .call (.store c) => json.RoundTrips c
  | _ => True

end

variable {json : ConfigJson} {p p' : ConfigPool} {m : ConfigMove}

/-- What a move does: a new call, the locked section of one, or its `SaveFile`. -/
theorem configMove_cases (h : stepConfig json p m = some p') :
    (∃ c, m = .call (.store c) ∧ p' = ⟨p.shared, p.threads ++ [.store c]⟩) ∨
    (∃ i o c t, m = .step i o ∧ p.threads[i]? = some (.store c) ∧
      p' = ⟨{ p.shared with cfg := c }, p.threads.set i t⟩ ∧
      (p.shared.configPath ≠ "" ∧ t = .save c (p.shared.cfg, p.shared.file) ∨
        p.shared.configPath = "" ∧ t = .returned none)) ∨
    (∃ i o c before, m = .step i o ∧ p.threads[i]? = some (.save c before) ∧
      p' = ⟨{ p.shared with file := o.content (json.marshalIndent c) p.shared.file },
        p.threads.set i (.returned o.err)⟩) := by
  rcases Pool.move_cases h with ⟨t, rfl, hentry, rfl⟩ | ⟨i, o, t, s, t', new, rfl, ht, hexec, rfl⟩
  · cases t with
    | store c => exact Or.inl ⟨c, rfl, rfl⟩
    | _ => cases hentry
  · refine Or.inr ?_
    cases t with
    | store c =>
        simp only [execSetConfig] at hexec
        -- Without a path `SetConfig` returns at once; otherwise `SaveFile` is still to come.
        split at hexec
        · rename_i hpath
          cases hexec
          exact Or.inl ⟨i, o, c, _, rfl, ht, by rw [List.append_nil], Or.inl ⟨hpath, rfl⟩⟩
        · rename_i hpath
          cases hexec
          exact Or.inl ⟨i, o, c, _, rfl, ht, by rw [List.append_nil],
            Or.inr ⟨not_not.mp hpath, rfl⟩⟩
    | save c before =>
        cases hexec
        exact Or.inr ⟨i, o, c, before, rfl, ht, by rw [List.append_nil]⟩
    | returned err => cases hexec

/-- A call that returns leaves the store quiet exactly when it was the last in progress. -/
theorem quiet_set_returned {i : Nat} {t : SetConfig} {s : ConfigStore} {err : Option String}
    (ht : p.threads[i]? = some t) :
    Quiet ⟨s, p.threads.set i (.returned err)⟩ ↔ LastInProgress p i := by
  obtain ⟨hlt, -⟩ := List.getElem?_eq_some_iff.mp ht
  constructor
  · intro hquiet j u hne hu
    refine hquiet u (List.mem_of_getElem? (i := j) ?_)
    rw [List.getElem?_set_ne hne.symm]
    exact hu
  · intro hlast u hu
    obtain ⟨j, hj⟩ := List.getElem?_of_mem hu
    by_cases hij : j = i
    · subst hij
      -- The call itself has returned.
      rw [List.getElem?_set_self hlt, Option.some.injEq] at hj
      rw [← hj]
      rfl
    · rw [List.getElem?_set_ne (Ne.symm hij)] at hj
      exact hlast j u hij hj

/-- While a call is at a position where it has not returned, the store is not quiet. -/
theorem not_quiet {t : SetConfig} (ht : t ∈ p.threads) (hrun : t.isReturned = false) :
    ¬ Quiet p := by
  intro hquiet
  cases (hquiet t ht).symm.trans hrun

/-! ### The calls in progress -/

/-- What is known of a call in progress: it saves only under a configured path, and its
configuration is read back. -/
def SetConfig.Sane (json : ConfigJson) (s : ConfigStore) : SetConfig → Prop
  | .store c => json.RoundTrips c
  | .save c _ => s.configPath ≠ "" ∧ json.RoundTrips c
  | .returned _ => True

/-- The calls are sane. -/
def Sane (json : ConfigJson) (p : ConfigPool) : Prop := ∀ t ∈ p.threads, t.Sane json p.shared

theorem sane_boot (env : Environment) (readable : Bool) (file : Option Bytes) :
    Sane json (bootConfig json env readable file) := nofun

/-- A move keeps the calls sane. -/
theorem sane_step (hm : ConfigMove.RoundTrips json m) (hp : Sane json p)
    (h : stepConfig json p m = some p') : Sane json p' := by
  rcases configMove_cases h with ⟨c, rfl, rfl⟩ | ⟨i, o, c, t, rfl, ht, rfl, htype⟩ |
    ⟨i, o, c, before, rfl, ht, rfl⟩
  · intro t ht
    rcases List.mem_append.mp ht with hold | hnew
    · exact hp t hold
    · rw [List.mem_singleton] at hnew
      subst hnew
      exact hm
  · intro u hu
    -- The call goes on with the configuration that it came with.
    have hc : json.RoundTrips c := hp _ (Pool.mem_of_get ht)
    rcases List.mem_or_eq_of_mem_set hu with hold | rfl
    · cases u with
      | save c' before' => exact hp _ hold
      | store c' => exact hp _ hold
      | returned err => trivial
    · rcases htype with ⟨hpath, rfl⟩ | ⟨-, rfl⟩
      · exact ⟨hpath, hc⟩
      · trivial
  · intro u hu
    rcases List.mem_or_eq_of_mem_set hu with hold | rfl
    · cases u with
      | save c' before' => exact hp _ hold
      | store c' => exact hp _ hold
      | returned err => trivial
    · trivial

/-! ### One step -/

/-- The part of `Orderly` that concerns the agreement: what the last call in progress leaves in
the file is the configuration in memory. -/
def SettlesOnMemory (json : ConfigJson) (p : ConfigPool) (m : ConfigMove) : Prop :=
  ∀ i o c before, m = .step i o → p.threads[i]? = some (.save c before) →
    LastInProgress p i →
    loadFile json (o.content (json.marshalIndent c) p.shared.file) = some p.shared.cfg

/-- The part of `Orderly` that concerns errors: after a `SaveFile` that fails, memory and file
hold what they held when the call began. -/
def FailsUndone (json : ConfigJson) (p : ConfigPool) (m : ConfigMove) : Prop :=
  ∀ i o c before, m = .step i o → p.threads[i]? = some (.save c before) → o.err ≠ none →
    (p.shared.cfg, o.content (json.marshalIndent c) p.shared.file) = before

/-- **One step.** Memory and file agree after a move exactly when the move settles on the
memory. -/
theorem agree_step_iff (hp : Sane json p) (h : stepConfig json p m = some p') :
    Agree json p' ↔ SettlesOnMemory json p m := by
  rcases configMove_cases h with ⟨c, rfl, rfl⟩ | ⟨i, o, c, t, rfl, ht, rfl, htype⟩ |
    ⟨i, o, c, before, rfl, ht, rfl⟩
  · refine iff_of_true (fun hquiet => absurd hquiet ?_) fun _ _ _ _ hm => nomatch hm
    -- A new call is in progress, so that nothing is asked.
    exact not_quiet (List.mem_append_right _ (List.mem_singleton_self _)) rfl
  · refine iff_of_true ?_ ?_
    · obtain ⟨hlt, -⟩ := List.getElem?_eq_some_iff.mp ht
      rcases htype with ⟨-, rfl⟩ | ⟨hpath, -⟩
      · exact fun hquiet => absurd hquiet (not_quiet (List.mem_set hlt _) rfl)
      · exact fun _ hne => absurd hpath hne
    · intro j o' c' before hm hj
      obtain ⟨rfl, -⟩ := Move.step.inj hm
      cases ht.symm.trans hj
  · -- A `SaveFile` ends its call. If it was the last in progress, memory and file have to agree.
    have hpath : p.shared.configPath ≠ "" := (hp _ (Pool.mem_of_get ht)).1
    constructor
    · intro hagree j o' c' before' hm hj hlast
      obtain ⟨rfl, rfl⟩ := Move.step.inj hm
      cases ht.symm.trans hj
      exact hagree ((quiet_set_returned ht).mpr hlast) hpath
    · intro hsettles hquiet _
      exact hsettles i o c before rfl ht ((quiet_set_returned ht).mp hquiet)

/-- An error leaves everything as it was exactly when the failed `SaveFile` did so and the
memory holds what it held before. -/
theorem undoneOnError_iff (h : stepConfig json p m = some p') :
    UndoneOnError json p m ↔ FailsUndone json p m := by
  refine forall₄_congr fun i o c before => ?_
  constructor
  · intro hundone hm ht herr
    -- The call at `i` is at its `SaveFile`, so that only the third case is left.
    have hp' := hundone p' hm ht herr h
    rcases configMove_cases h with ⟨c', rfl, rfl⟩ | ⟨j, o', c', t, rfl, hj, rfl, -⟩ |
      ⟨j, o', c', before', rfl, hj, rfl⟩
    · cases hm
    · obtain ⟨rfl, -⟩ := Move.step.inj hm
      cases hj.symm.trans ht
    · obtain ⟨rfl, rfl⟩ := Move.step.inj hm
      cases hj.symm.trans ht
      exact hp'
  · intro hundone p'' hm ht herr hstep
    have hleft := hundone hm ht herr
    rcases configMove_cases hstep with ⟨c', rfl, rfl⟩ | ⟨j, o', c', t, rfl, hj, rfl, -⟩ |
      ⟨j, o', c', before', rfl, hj, rfl⟩
    · cases hm
    · obtain ⟨rfl, -⟩ := Move.step.inj hm
      cases hj.symm.trans ht
    · obtain ⟨rfl, rfl⟩ := Move.step.inj hm
      cases hj.symm.trans ht
      exact hleft

/-- The two parts of the condition. -/
theorem orderly_iff (hp : Sane json p) :
    Orderly json p m ↔ SettlesOnMemory json p m ∧ FailsUndone json p m := by
  constructor
  · intro horderly
    refine ⟨fun i o c before hm ht hlast => ?_, fun i o c before hm ht herr =>
      ((horderly i o c before hm ht).2 herr).1⟩
    have hround : json.RoundTrips c := (hp _ (Pool.mem_of_get ht)).2
    obtain ⟨hok, hfail⟩ := horderly i o c before hm ht
    cases o with
    | ok => exact (hok rfl hlast) ▸ hround
    | failed written err =>
        obtain ⟨rfl, hagreed⟩ := hfail nofun
        exact hagreed hlast
  · rintro ⟨hsettles, hundone⟩ i o c before hm ht
    have hround : json.RoundTrips c := (hp _ (Pool.mem_of_get ht)).2
    refine ⟨?_, fun herr => ?_⟩
    · rintro rfl hlast
      -- The text that was written is read back as the configuration in memory.
      exact Option.some.inj (hround.symm.trans (hsettles i .ok c before hm ht hlast))
    · have hleft := hundone i o c before hm ht herr
      refine ⟨hleft, fun hlast => ?_⟩
      rw [← hleft]
      exact hsettles i o c before hm ht hlast

/-- Nothing is in progress at the start. -/
theorem agree_boot_iff (env : Environment) (readable : Bool) (file : Option Bytes) :
    Agree json (bootConfig json env readable file) ↔ TakenFromFile json env readable file :=
  ⟨fun hagree hpath => hagree nofun hpath, fun htaken _ hpath => htaken hpath⟩

/-- Where calls do not overlap, an orderly `SaveFile` fails only when the call stores what is in
memory already, and the bytes that reached the file have left it as it was. -/
theorem unchanged_of_fails {c : Config} {o : SaveFile} (hpath : p.shared.configPath ≠ "")
    (hrun : run (stepConfig json) p [.call (.store c), .step p.threads.length .ok] = some p')
    (horderly : Orderly json p' (.step p.threads.length o)) (herr : o.err ≠ none) :
    c = p.shared.cfg ∧ o.content (json.marshalIndent c) p.shared.file = p.shared.file := by
  have hcall : stepConfig json p (.call (.store c)) = some ⟨p.shared, p.threads ++ [.store c]⟩ :=
    rfl
  have hlast : (p.threads ++ [SetConfig.store c])[p.threads.length]? = some (.store c) := by simp
  rw [run, hcall, Option.bind_some, run] at hrun
  obtain ⟨p₁, hstep, hend⟩ := Option.bind_eq_some_iff.mp hrun
  obtain rfl := Option.some.inj hend
  rcases configMove_cases hstep with ⟨c', hm, -⟩ | ⟨i, o', c', t, hm, ht, rfl, htype⟩ |
    ⟨i, o', c', before, hm, ht, -⟩
  · cases hm
  · obtain ⟨rfl, -⟩ := Move.step.inj hm
    obtain rfl : c = c' := SetConfig.store.inj (Option.some.inj (hlast.symm.trans ht))
    rcases htype with ⟨-, rfl⟩ | ⟨hnone, -⟩
    · -- The call has just stored `c`, and remembers what it has replaced.
      have hsave : ((p.threads ++ [SetConfig.store c]).set p.threads.length
          (.save c (p.shared.cfg, p.shared.file)))[p.threads.length]?
            = some (.save c (p.shared.cfg, p.shared.file)) :=
        List.getElem?_set_self (by simp)
      obtain ⟨hsame, -⟩ := (horderly _ o c _ rfl hsave).2 herr
      exact Prod.mk.inj hsame
    · exact absurd hnone hpath
  · obtain ⟨rfl, -⟩ := Move.step.inj hm
    cases hlast.symm.trans ht

variable (json)

/-- **The extent of the law.** Along any interleaving of calls of `SetConfig`, memory and file
agree whenever no call is in progress and every error leaves both as they were, exactly when
the configuration was taken from the file at the start and every `SaveFile` is orderly. -/
theorem memoryIsFile_iff (env : Environment) (readable : Bool) (file : Option Bytes)
    {ms : List ConfigMove} (hround : ∀ m ∈ ms, ConfigMove.RoundTrips json m) :
    (Always (stepConfig json) (Agree json) (bootConfig json env readable file) ms ∧
      Each (stepConfig json) (UndoneOnError json) (bootConfig json env readable file) ms) ↔
    (TakenFromFile json env readable file ∧
      Each (stepConfig json) (Orderly json) (bootConfig json env readable file) ms) := by
  have hboot : Sane json (bootConfig json env readable file) := sane_boot env readable file
  have hsane : Always (stepConfig json) (Sane json) (bootConfig json env readable file) ms :=
    always_of_step (ConfigMove.RoundTrips json) (fun _ _ _ hm hp hstep => sane_step hm hp hstep)
      (fun _ hp => hp) hround hboot
  -- The agreement is a law of states and follows step by step; the law on errors is one on single
  -- steps. `Orderly` is the conjunction of what the two ask for.
  have hagree : Always (stepConfig json) (Agree json) (bootConfig json env readable file) ms ↔
      TakenFromFile json env readable file ∧
        Each (stepConfig json) (SettlesOnMemory json) (bootConfig json env readable file) ms := by
    rw [← agree_boot_iff]
    exact always_iff_head_and_each (I := Sane json) (ConfigMove.RoundTrips json)
      (fun _ _ _ hm hp _ hsettles hstep =>
        ⟨sane_step hm hp hstep, (agree_step_iff hp hstep).mpr hsettles⟩)
      (fun _ _ _ _ hp _ hnot hstep hagree => hnot ((agree_step_iff hp hstep).mp hagree))
      hround hboot
  have hundone := each_congr (G := UndoneOnError json) (H := FailsUndone json) (fun _ => True)
    (fun _ _ _ _ _ _ hstep => undoneOnError_iff hstep) (fun _ _ => trivial) hsane
  have horderly := each_congr (G := Orderly json)
    (H := fun p m => SettlesOnMemory json p m ∧ FailsUndone json p m) (fun _ => True)
    (fun _ _ _ _ hp _ _ => orderly_iff hp) (fun _ _ => trivial) hsane
  rw [hagree, hundone, horderly, each_and, and_assoc]

/-! ### Two runs -/

/-- The text of a configuration without mappings, in the layout of `json.MarshalIndent`. -/
def Config.text (c : Config) : Bytes :=
  ("\x7b\n  \"endpointUrl\": \"" ++ c.endpointURL ++ "\",\n  \"namespaceUri\": \""
    ++ c.namespaceURI ++ "\",\n  \"tcpPort\": " ++ toString c.tcpPort
    ++ ",\n  \"mappings\": null\n\x7d").toList.map (fun ch => UInt8.ofNat ch.toNat)

/-- A JSON library that prints configurations and reads these ones back. -/
def ConfigJson.knowing (known : List Config) : ConfigJson :=
  ⟨Config.text, fun text => known.find? (fun c => c.text = text)⟩

theorem marshalIndent_knowing (known : List Config) (c : Config) :
    (ConfigJson.knowing known).marshalIndent c = c.text := by
  rw [ConfigJson.knowing]

/-- The default configuration with another port. -/
def otherPort : Config := { defaultConfig with tcpPort := 9001 }

/-- The file is the default configuration, and nothing overrides it. -/
def bootDefault (json : ConfigJson) : ConfigPool :=
  bootConfig json ⟨"bridge.json", none, "", ""⟩ true (some defaultConfig.text)

theorem text_ne : defaultConfig.text ≠ otherPort.text := by
  intro htext
  -- The layout before and after the port is the same in both texts.
  simp only [Config.text, otherPort, String.toList_append, List.map_append,
    List.append_cancel_right_eq, List.append_cancel_left_eq] at htext
  exact absurd htext (by decide)

/-- The two configurations have different texts, so both are read back. -/
theorem roundTrips_knowing {c : Config} (hc : c ∈ [defaultConfig, otherPort]) :
    (ConfigJson.knowing [defaultConfig, otherPort]).RoundTrips c := by
  simp only [List.mem_cons, List.not_mem_nil, or_false] at hc
  rcases hc with rfl | rfl
  · simp [ConfigJson.RoundTrips, ConfigJson.knowing]
  · simp [ConfigJson.RoundTrips, ConfigJson.knowing, text_ne]

/-- The store that holds the default configuration, with a file of any content. -/
def holdsDefault (text : Bytes) : ConfigPool :=
  ⟨⟨defaultConfig, "bridge.json", some text⟩, []⟩

theorem loadFile_default :
    loadFile (ConfigJson.knowing [defaultConfig, otherPort]) (some defaultConfig.text) =
      some defaultConfig := by
  rw [loadFile, Option.bind_some, ← marshalIndent_knowing [defaultConfig, otherPort]]
  exact roundTrips_knowing (by simp)

/-- The default configuration is read back, so it is the one in memory. -/
theorem bootDefault_eq : bootDefault (ConfigJson.knowing [defaultConfig, otherPort]) =
    holdsDefault defaultConfig.text := by
  simp [bootDefault, bootConfig, mainConfig, loadFile_default, Environment.override, holdsDefault]

/-- A call of `SetConfig` on the goroutine `i`, whose `SaveFile` ends in the outcome. -/
def setConfigMoves (i : Nat) (c : Config) (o : SaveFile) : List ConfigMove :=
  [.call (.store c), .step i .ok, .step i o]

/-- The move is no `SaveFile`, or one that succeeds and writes the configuration in memory. -/
def savesMemory (p : ConfigPool) : ConfigMove → Bool
  | .call _ => true
  | .step i o =>
      match p.threads[i]? with
      | some (.save c _) => o = .ok && c = p.shared.cfg
      | _ => true

theorem orderly_of_savesMemory (h : savesMemory p m = true) : Orderly json p m := by
  rintro i o c before rfl ht
  simp only [savesMemory, ht, Bool.and_eq_true, decide_eq_true_eq] at h
  obtain ⟨rfl, hc⟩ := h
  exact ⟨fun _ _ => hc, fun herr => absurd rfl herr⟩

/-- Two calls that succeed one after the other save what is in memory. -/
theorem savesMemory_twoSaves (text : Bytes) :
    eachb (stepConfig json) savesMemory (holdsDefault text)
      (setConfigMoves 0 otherPort .ok ++ setConfigMoves 1 defaultConfig .ok) = true := rfl

/-- A call whose file cannot be opened changes the memory and nothing else. -/
theorem run_failedSave (text : Bytes) :
    run (stepConfig json) (holdsDefault text)
      (setConfigMoves 0 otherPort (.failed none "permission denied")) =
    some ⟨⟨otherPort, "bridge.json", some text⟩, [.returned (some "permission denied")]⟩ := rfl

/-- Two calls, one after the other, that succeed keep memory and file in agreement. -/
theorem memoryIsFile_twoSaves : let json := ConfigJson.knowing [defaultConfig, otherPort]
    Always (stepConfig json) (Agree json) (bootDefault json)
      (setConfigMoves 0 otherPort .ok ++ setConfigMoves 1 defaultConfig .ok) := by
  intro json
  refine ((memoryIsFile_iff json _ _ _ ?_).mpr ⟨fun _ => ?_, ?_⟩).1
  · simp only [setConfigMoves, List.mem_append, List.mem_cons, List.not_mem_nil, or_false]
    rintro m ((rfl | rfl | rfl) | (rfl | rfl | rfl))
    · exact roundTrips_knowing (by simp)
    · trivial
    · trivial
    · exact roundTrips_knowing (by simp)
    · trivial
    · trivial
  · have hcfg := congrArg (fun p => some p.shared.cfg) bootDefault_eq
    exact loadFile_default.trans hcfg.symm
  · have hcheck : ∀ p m, savesMemory p m = true → Orderly json p m :=
      fun _ _ => orderly_of_savesMemory json
    have heach : Each (stepConfig json) (Orderly json) (bootDefault json)
        (setConfigMoves 0 otherPort .ok ++ setConfigMoves 1 defaultConfig .ok) := by
      rw [bootDefault_eq]
      exact each_of_eachb hcheck (savesMemory_twoSaves json _)
    exact heach

/-- The `SaveFile` of a single call fails because the file cannot be opened. The call returns
the error, but `GetConfig` answers with the new configuration from then on. -/
theorem not_memoryIsFile_failedSave : let json := ConfigJson.knowing [defaultConfig, otherPort]
    ¬ Always (stepConfig json) (Agree json) (bootDefault json)
      (setConfigMoves 0 otherPort (.failed none "permission denied")) := by
  intro json hagree
  rw [bootDefault_eq] at hagree
  have hlast := hagree.last (run_failedSave _ defaultConfig.text)
  have hquiet : ∀ t ∈ [SetConfig.returned (some "permission denied")], t.isReturned = true := by
    intro t ht
    rw [List.mem_singleton] at ht
    rw [ht]
    rfl
  have hpath : "bridge.json" ≠ "" := by decide
  have hsame : some defaultConfig = some otherPort :=
    loadFile_default.symm.trans (hlast hquiet hpath)
  exact absurd hsame (by decide)

end SmartFactory.Bridge
