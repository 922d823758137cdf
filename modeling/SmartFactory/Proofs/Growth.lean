import SmartFactory.Proofs.Building

/-!
# `SmartFactory.Proofs.Growth`: the sensors array during the build

The build adds one sensor after the other to an empty array. The array grows when it is
full: for the first sensor, and whenever it holds 8, 16, 32, .. sensors
(`capacityAfter_le_iff`). What `realloc` does at these points decides what the build leaves
behind.

* `Allocates`: every growth succeeds. After the build, each simulated definition then has
  its sensor (`SensorsComplete`). If a growth fails, a sensor is missing for good.
* `StaysInPlace`: no growth moves an array in use. Each context then points at its own
  sensor. If a growth moves the array, the context of the first sensor is stale for good.

`BuildGrowth` is both. `allocates_of_start` and `buildGrowth_of_start` are the converses:
they read the growths back from the state after the build.
-/

set_option autoImplicit false

namespace SmartFactory.Server

/-- The capacity of the sensors array after `n` sensors were added to an empty one. -/
def capacityAfter : Nat → Nat
  | 0 => 0
  | n + 1 => if n < capacityAfter n then capacityAfter n else grownCapacity (capacityAfter n)

/-- An array that is not empty has a capacity of 8, 16, 32, .., and half of it was not
enough. -/
theorem exists_capacityAfter (n : Nat) : ∃ k, capacityAfter (n + 1) = 8 * 2 ^ k ∧
    n < 8 * 2 ^ k ∧ (k = 0 ∨ 8 * 2 ^ k ≤ 2 * n) := by
  induction n with
  | zero => exact ⟨0, by simp [capacityAfter, grownCapacity], by omega, Or.inl rfl⟩
  | succ n ih =>
      obtain ⟨k, hcap, hlt, hhalf⟩ := ih
      rw [capacityAfter, hcap]
      split
      · rename_i hroom
        exact ⟨k, rfl, hroom, hhalf.imp_right fun h => by omega⟩
      · -- A full array doubles its capacity.
        rename_i hfull
        have hpos : 0 < 2 ^ k := Nat.two_pow_pos k
        refine ⟨k + 1, ?_, ?_, Or.inr ?_⟩
        · rw [grownCapacity, if_pos (by omega), Nat.pow_succ, Nat.mul_assoc]
        · rw [Nat.pow_succ]
          omega
        · rw [Nat.pow_succ]
          omega

/-- The array is full when it is empty or holds 8, 16, 32, .. sensors. -/
theorem capacityAfter_le_iff (n : Nat) :
    capacityAfter n ≤ n ↔ n = 0 ∨ ∃ k, n = 8 * 2 ^ k := by
  cases n with
  | zero => simp [capacityAfter]
  | succ n =>
      obtain ⟨k, hcap, hlt, hhalf⟩ := exists_capacityAfter n
      rw [hcap]
      constructor
      · exact fun hle => Or.inr ⟨k, by omega⟩
      · rintro (hzero | ⟨j, hj⟩)
        · cases hzero
        · -- A smaller power of two would be at most half of the capacity.
          have hjk : k ≤ j := by
            by_contra hlt'
            have hle : 2 ^ (j + 1) ≤ 2 ^ k := Nat.pow_le_pow_right (by omega) (by omega)
            rw [Nat.pow_succ] at hle
            omega
          have hle : 2 ^ k ≤ 2 ^ j := Nat.pow_le_pow_right (by omega) hjk
          omega

/-! ### The growths -/

/-- When the definitions `ds` are built, the sensor of `d` comes to position `i` of the
array, and the array is full by then. -/
structure GrowsAt (ds : List ServerNodeDef) (i : Nat) (d : ServerNodeDef) : Prop where
  position : (ds.filter ServerNodeDef.isSimulated)[i]? = some d
  full : capacityAfter i ≤ i

/-- Every growth of the array succeeds. -/
def Allocates (host : Host) (ds : List ServerNodeDef) : Prop :=
  ∀ i d, GrowsAt ds i d → host.realloc d.browseName.chars ≠ .failed

/-- Only the first allocation of the array is a move. -/
def StaysInPlace (host : Host) (ds : List ServerNodeDef) : Prop :=
  ∀ i d, GrowsAt ds i d → host.realloc d.browseName.chars = .moved → i = 0

/-- The growths of the sensors array during a build are harmless. -/
structure BuildGrowth (host : Host) (cfg : ServerConfig) : Prop where
  allocates : Allocates host (sortNodesByDepth cfg)
  stays : StaysInPlace host (sortNodesByDepth cfg)

variable {host : Host} {nsIdx : Nat} {cfg : ServerConfig} {file : Option CString}
variable {w w' : World} {d : ServerNodeDef} {done : List ServerNodeDef}

/-- A simulated definition comes after the ones that are done. -/
theorem simulated_append (hsim : d.isSimulated = true) :
    (done ++ [d]).filter ServerNodeDef.isSimulated
      = done.filter ServerNodeDef.isSimulated ++ [d] := by
  rw [List.filter_append, List.filter_cons_of_pos hsim, List.filter_nil]

/-- A definition without a sensor does not count. -/
theorem simulated_append_of_not (hsim : d.isSimulated = false) :
    (done ++ [d]).filter ServerNodeDef.isSimulated
      = done.filter ServerNodeDef.isSimulated := by
  rw [List.filter_append, List.filter_cons_of_neg (by simp [hsim]), List.filter_nil,
    List.append_nil]

/-- A growth for one of the first definitions is a growth for all of them. -/
theorem GrowsAt.append {i : Nat} {x : ServerNodeDef} (h : GrowsAt done i x) :
    GrowsAt (done ++ [d]) i x := by
  refine ⟨?_, h.full⟩
  rw [List.filter_append, List.getElem?_append_left (List.getElem?_eq_some_iff.mp h.position).1]
  exact h.position

/-- One more definition adds at most the growth for its own sensor. -/
theorem growsAt_append {i : Nat} {x : ServerNodeDef} (h : GrowsAt (done ++ [d]) i x) :
    GrowsAt done i x ∨ (d.isSimulated = true ∧ x = d ∧
      i = (done.filter ServerNodeDef.isSimulated).length) := by
  have hpos := h.position
  cases hsim : d.isSimulated with
  | false =>
      rw [simulated_append_of_not hsim] at hpos
      exact Or.inl ⟨hpos, h.full⟩
  | true =>
      rw [simulated_append hsim, List.getElem?_append] at hpos
      split at hpos
      · exact Or.inl ⟨hpos, h.full⟩
      · rename_i hge
        obtain ⟨hi, hx⟩ := List.getElem?_eq_some_iff.mp hpos
        rw [List.getElem_singleton] at hx
        rw [List.length_singleton] at hi
        exact Or.inr ⟨rfl, hx.symm, by omega⟩

/-- The growth for the sensor of the next definition, if the array is full by then. -/
theorem growsAt_last (hsim : d.isSimulated = true)
    (hfull : capacityAfter (done.filter ServerNodeDef.isSimulated).length
      ≤ (done.filter ServerNodeDef.isSimulated).length) :
    GrowsAt (done ++ [d]) (done.filter ServerNodeDef.isSimulated).length d :=
  ⟨by rw [simulated_append hsim, List.getElem?_concat_length], hfull⟩

theorem Allocates.of_append (h : Allocates host (done ++ [d])) : Allocates host done :=
  fun i x hx => h i x hx.append

theorem StaysInPlace.of_append (h : StaysInPlace host (done ++ [d])) :
    StaysInPlace host done :=
  fun i x hx => h i x hx.append

/-! ### The sensors -/

/-- Every simulated definition that is done has its sensor. -/
structure SensorsComplete (done : List ServerNodeDef) (w : World) : Prop where
  names : w.nm.sensors.map (fun st => st.browseName)
    = (done.filter ServerNodeDef.isSimulated).map ServerNodeDef.browseName
  capacity : w.nm.sensorCapacity = capacityAfter w.nm.sensors.length

/-- The sensors are complete as long as the growths succeed. From the first failure on,
there is at least one too few. -/
inductive SensorsBuilt (host : Host) (done : List ServerNodeDef) (w : World) : Prop where
  | complete (hsensors : SensorsComplete done w) (halloc : Allocates host done)
  | missing (hlen : w.nm.sensors.length < (done.filter ServerNodeDef.isSimulated).length)
      (hfail : ¬ Allocates host done)

/-- There are as many sensors as simulated definitions. -/
theorem SensorsComplete.length_eq (h : SensorsComplete done w) :
    w.nm.sensors.length = (done.filter ServerNodeDef.isSimulated).length := by
  simpa using congrArg List.length h.names

/-- A definition without a sensor changes nothing. -/
theorem SensorsBuilt.plain (h : SensorsBuilt host done w) (hsim : d.isSimulated = false)
    (hsensors : w'.nm.sensors = w.nm.sensors)
    (hcap : w'.nm.sensorCapacity = w.nm.sensorCapacity) :
    SensorsBuilt host (done ++ [d]) w' := by
  cases h with
  | complete hcomplete halloc =>
      refine .complete ⟨?_, ?_⟩ fun i x hx => ?_
      · rw [hsensors, simulated_append_of_not hsim]
        exact hcomplete.names
      · rw [hcap, hsensors]
        exact hcomplete.capacity
      · rcases growsAt_append hx with hold | ⟨hself, -⟩
        · exact halloc i x hold
        · cases hsim.symm.trans hself
  | missing hlen hfail =>
      refine .missing ?_ fun halloc => hfail halloc.of_append
      rw [hsensors, simulated_append_of_not hsim]
      exact hlen

/-- The new sensor of a complete array has the capacity that the code computes. -/
theorem Grown.capacity {name : CString} (h : Grown host name w w')
    (hcap : w.nm.sensorCapacity = capacityAfter w.nm.sensors.length) :
    w'.nm.sensorCapacity = capacityAfter (w.nm.sensors.length + 1) := by
  rw [capacityAfter, ← hcap]
  cases h with
  | room hroom _ hsame => rw [if_pos hroom, hsame]
  | extended hfull _ _ hgrown => rw [if_neg (Nat.not_lt_of_le hfull), hgrown]
  | moved hfull _ _ hgrown => rw [if_neg (Nat.not_lt_of_le hfull), hgrown]

/-- A creation keeps the account of the sensors. -/
theorem Created.sensorsBuilt (hc : Created host d w w') (h : SensorsBuilt host done w) :
    SensorsBuilt host (done ++ [d]) w' := by
  obtain ⟨n, -, -, -, -, hwired⟩ := hc.self
  cases hwired with
  | plain hsim hsensors _ hcap => exact h.plain hsim hsensors hcap
  | failed hsim hfull hrealloc hsensors _ _ =>
      cases h with
      | complete hcomplete _ =>
          -- The array is full and stays so: from now on this sensor is missing.
          refine .missing ?_ fun halloc => ?_
          · rw [hsensors, simulated_append hsim, hcomplete.length_eq]
            simp
          · rw [hcomplete.capacity, hcomplete.length_eq] at hfull
            exact halloc _ d (growsAt_last hsim hfull) hrealloc
      | missing hlen hfail =>
          refine .missing ?_ fun halloc => hfail halloc.of_append
          rw [hsensors, simulated_append hsim, List.length_append]
          omega
  | connected hsim hsensors hgrown _ =>
      cases h with
      | complete hcomplete halloc =>
          refine .complete ⟨?_, ?_⟩ fun i x hx => ?_
          · rw [hsensors, simulated_append hsim, List.map_append, List.map_append,
              hcomplete.names, List.map_singleton, List.map_singleton, newSensor_browseName]
          · rw [hgrown.capacity hcomplete.capacity, hsensors, List.length_append,
              List.length_singleton]
          · rcases growsAt_append hx with hold | ⟨-, rfl, rfl⟩
            · exact halloc i x hold
            · rcases hgrown.canGrow with hroom | hrealloc
              · rw [hcomplete.capacity, hcomplete.length_eq] at hroom
                exact absurd hx.full (Nat.not_le_of_lt hroom)
              · exact hrealloc
      | missing hlen hfail =>
          refine .missing ?_ fun halloc => hfail halloc.of_append
          rw [hsensors, simulated_append hsim, List.length_append, List.length_append]
          exact Nat.add_lt_add_right hlen 1

/-- **The sensors after the build.** They are complete when every growth succeeds, and only
then. -/
theorem start_sensorsBuilt (h : start host nsIdx cfg file = some w) :
    SensorsBuilt host (sortNodesByDepth cfg) w := by
  refine start_induction (P := fun done w => SensorsBuilt host done w)
    (fun _ _ _ _ _ hP _ hc => hc.sensorsBuilt hP)
    (fun _ _ _ _ hP hother => hP.plain (isSimulated_of_other hother) rfl rfl) ?_ h
  refine .complete ⟨rfl, rfl⟩ fun i x hx => ?_
  cases hx.position

/-- With every growth succeeding, each simulated definition has its sensor. -/
theorem start_sensorsComplete (h : start host nsIdx cfg file = some w)
    (halloc : Allocates host (sortNodesByDepth cfg)) :
    SensorsComplete (sortNodesByDepth cfg) w := by
  cases start_sensorsBuilt h with
  | complete hcomplete _ => exact hcomplete
  | missing _ hfail => exact absurd halloc hfail

/-! ### The names of a configuration that was built -/

/-- After the build, the address space holds the nodes of the definitions in their order. -/
theorem start_ids (h : start host nsIdx cfg file = some w) :
    w.space.ids = ((sortNodesByDepth cfg).filter ServerNodeDef.isNode).map
      (fun d => NodeId.string nsIdx d.browseName.chars) := by
  have hdone := start_induction (P := fun done w => w.nm.nsIdx = nsIdx ∧
      w.space.ids = (done.filter ServerNodeDef.isNode).map
        (fun d => NodeId.string nsIdx d.browseName.chars)) ?_ ?_ ⟨rfl, rfl⟩ h
  · exact hdone.2
  · rintro done d w w' - ⟨hns, hids⟩ hnode hc
    refine ⟨hc.nsIdx.trans hns, ?_⟩
    rw [hc.ids, hids, List.filter_append, List.filter_cons_of_pos hnode, List.filter_nil,
      List.map_append, List.map_singleton, World.nodeIdOf, hns]
  · rintro done d w - ⟨hns, hids⟩ hother
    refine ⟨hns, ?_⟩
    rw [hids, List.filter_append, List.filter_cons_of_neg (by simp [hother]), List.filter_nil,
      List.append_nil]

/-- After the build, every node of the configuration is live. -/
theorem live_of_start (h : start host nsIdx cfg file = some w) (hd : d ∈ cfg.nodes)
    (hnode : d.isNode = true) : w.nodeIdOf d.browseName.chars ∈ w.space.ids := by
  rw [start_ids h, World.nodeIdOf, start_nsIdx h]
  exact List.mem_map.mpr ⟨d, List.mem_filter.mpr ⟨mem_sortNodesByDepth.mpr hd, hnode⟩, rfl⟩

/-- A simulated definition is one of a node. -/
theorem isNode_of_isSimulated (h : d.isSimulated = true) : d.isNode = true := by
  simp [ServerNodeDef.isNode, (isSimulated_iff.mp h).1]

/-- The build succeeded, so no two simulated definitions have the same name: the server
refuses an id that exists. -/
theorem nodup_simulated_of_start (h : start host nsIdx cfg file = some w) :
    (((sortNodesByDepth cfg).filter ServerNodeDef.isSimulated).map
      (fun d => d.browseName.chars)).Nodup := by
  have hids := (start_sound h).ids_nodup
  rw [start_ids h] at hids
  have hnodes : (((sortNodesByDepth cfg).filter ServerNodeDef.isNode).map
      (fun d => d.browseName.chars)).Nodup := by
    refine List.Nodup.of_map (NodeId.string nsIdx) ?_
    rw [List.map_map]
    exact hids
  refine List.Nodup.sublist (List.Sublist.map _ ?_) hnodes
  exact List.monotone_filter_right _ fun x => isNode_of_isSimulated

/-- With every growth succeeding, a browse name has a sensor exactly when a simulated
definition carries it. -/
theorem SensorsComplete.exists_sensor (h : SensorsComplete (sortNodesByDepth cfg) w)
    {b : CString} : (∃ st ∈ w.nm.sensors, st.browseName.chars = b) ↔
      ∃ d ∈ cfg.nodes, d.isSimulated = true ∧ d.browseName.chars = b := by
  have hmem : ∀ c, c ∈ w.nm.sensors.map (fun st => st.browseName) ↔
      c ∈ ((sortNodesByDepth cfg).filter ServerNodeDef.isSimulated).map
        ServerNodeDef.browseName := by
    rw [h.names]
    exact fun _ => Iff.rfl
  constructor
  · rintro ⟨st, hst, rfl⟩
    obtain ⟨d, hd, hname⟩ := List.mem_map.mp ((hmem _).mp (List.mem_map.mpr ⟨st, hst, rfl⟩))
    obtain ⟨hd, hsim⟩ := List.mem_filter.mp hd
    exact ⟨d, mem_sortNodesByDepth.mp hd, hsim, by rw [hname]⟩
  · rintro ⟨d, hd, hsim, rfl⟩
    have hd' := List.mem_filter.mpr ⟨mem_sortNodesByDepth.mpr hd, hsim⟩
    obtain ⟨st, hst, hname⟩ := List.mem_map.mp ((hmem _).mpr (List.mem_map.mpr ⟨d, hd', rfl⟩))
    exact ⟨st, hst, by rw [hname]⟩

/-- **The converse for the sensors.** If each simulated definition has its sensor after the
build, every growth succeeded. -/
theorem allocates_of_start (h : start host nsIdx cfg file = some w)
    (hall : ∀ d ∈ cfg.nodes, d.isSimulated = true →
      ∃ st ∈ w.nm.sensors, st.browseName.chars = d.browseName.chars) :
    Allocates host (sortNodesByDepth cfg) := by
  cases start_sensorsBuilt h with
  | complete _ halloc => exact halloc
  | missing hlen _ =>
      -- A growth has failed, so that there are fewer sensors than simulated definitions. But each
      -- of these has its own.
      have hsub : ((sortNodesByDepth cfg).filter ServerNodeDef.isSimulated).map
          (fun d => d.browseName.chars) ⊆ w.nm.sensors.map (fun st => st.browseName.chars) := by
        intro b hb
        obtain ⟨d, hd, rfl⟩ := List.mem_map.mp hb
        obtain ⟨hd, hsim⟩ := List.mem_filter.mp hd
        obtain ⟨st, hst, hname⟩ := hall d (mem_sortNodesByDepth.mp hd) hsim
        exact List.mem_map.mpr ⟨st, hst, hname⟩
      have hle := (List.subperm_of_subset (nodup_simulated_of_start h) hsub).length_le
      rw [List.length_map, List.length_map] at hle
      exact absurd hlen (Nat.not_lt_of_le hle)

/-! ### The contexts -/

/-- A creation that does not move an array in use keeps the contexts. -/
theorem Created.contextsOwn (hc : Created host d w w') (hw : Sound w)
    (hgrow : d.isSimulated = true → w.nm.sensorCapacity ≤ w.nm.sensors.length →
      host.realloc d.browseName.chars = .moved → w.nm.sensors = [])
    (h : ContextsOwn w) : ContextsOwn w' := by
  -- A sensor from before keeps its node and its context, if the array stays where it is.
  have hold : w'.nm.sensorsAlloc = w.nm.sensorsAlloc → ∀ i st, w.nm.sensors[i]? = some st →
      ∃ n v, w'.space.find st.nodeId = some n ∧ n.vAttr = some v ∧
        v.context = some ⟨w'.nm.sensorsAlloc, i⟩ := by
    intro halloc i st hi
    obtain ⟨n, v, hn, hv, hcontext⟩ := h i st hi
    have hlive := hw.live_of_sensor (List.mem_of_getElem? hi)
    exact ⟨n, v, (hc.find_of_mem hlive).trans hn, hv, by rw [halloc]; exact hcontext⟩
  obtain ⟨n, hn, -, -, -, hwired⟩ := hc.self
  intro i st hi
  cases hwired with
  | plain _ hsensors halloc => exact hold halloc i st (hsensors ▸ hi)
  | failed _ _ _ hsensors halloc => exact hold halloc i st (hsensors ▸ hi)
  | connected hsim hsensors hgrown hv =>
      rw [hsensors] at hi
      rcases Nat.lt_or_ge i w.nm.sensors.length with hlt | hge
      · rw [List.getElem?_append_left hlt] at hi
        cases hgrown with
        | room _ halloc => exact hold halloc i st hi
        | extended _ _ halloc => exact hold halloc i st hi
        | moved hfull hmoved =>
            rw [hgrow hsim hfull hmoved] at hlt
            exact absurd hlt (Nat.not_lt_zero i)
      -- The last position is the one of the new sensor.
      · rw [List.getElem?_append_right hge] at hi
        have hi0 : i - w.nm.sensors.length = 0 := by
          by_contra hne
          obtain ⟨k, hk⟩ := Nat.exists_eq_succ_of_ne_zero hne
          rw [hk] at hi
          cases hi
        rw [hi0, List.getElem?_cons_zero, Option.some.injEq] at hi
        have hi' : i = w.nm.sensors.length := by omega
        subst hi
        exact ⟨n, _, hn, hv, by rw [hi']⟩

/-- The context of the first sensor refers to an earlier allocation of the array. -/
def FirstStale (w : World) : Prop :=
  ∃ st n v ref, w.nm.sensors[0]? = some st ∧ w.space.find st.nodeId = some n ∧
    n.vAttr = some v ∧ v.context = some ref ∧ ref.alloc < w.nm.sensorsAlloc

/-- A stale context is not the one of the sensor. -/
theorem FirstStale.not_own (h : FirstStale w) : ¬ ContextsOwn w := by
  obtain ⟨st, n, v, ref, h0, hn, hv, hcontext, hlt⟩ := h
  intro hown
  obtain ⟨n', v', hn', hv', hcontext'⟩ := hown 0 st h0
  obtain ⟨rfl, rfl⟩ := attribute_unique hn hv hn' hv'
  obtain rfl := Option.some.inj (hcontext.symm.trans hcontext')
  exact Nat.lt_irrefl _ hlt

/-- The first sensor stays the first one. -/
theorem Created.first_sensor (hc : Created host d w w') {st : SimulatedSensor}
    (h0 : w.nm.sensors[0]? = some st) : w'.nm.sensors[0]? = some st := by
  rcases hc.sensors_cases with hsame | ⟨-, hnew, -⟩
  · rw [hsame]
    exact h0
  · rw [hnew, List.getElem?_append_left (List.getElem?_eq_some_iff.mp h0).1]
    exact h0

/-- The number of the allocation never falls. -/
theorem Created.alloc_le (hc : Created host d w w') :
    w.nm.sensorsAlloc ≤ w'.nm.sensorsAlloc := by
  obtain ⟨n, -, -, -, -, hwired⟩ := hc.self
  cases hwired with
  | plain _ _ halloc => exact Nat.le_of_eq halloc.symm
  | failed _ _ _ _ halloc => exact Nat.le_of_eq halloc.symm
  | connected _ _ hgrown _ =>
      cases hgrown with
      | room _ halloc => exact Nat.le_of_eq halloc.symm
      | extended _ _ halloc => exact Nat.le_of_eq halloc.symm
      | moved _ _ halloc => exact halloc ▸ Nat.le_succ _

/-- A growth that moves the array gives it the next number. -/
theorem Created.alloc_of_moved (hc : Created host d w w') (hsim : d.isSimulated = true)
    (hfull : w.nm.sensorCapacity ≤ w.nm.sensors.length)
    (hmoved : host.realloc d.browseName.chars = .moved) :
    w'.nm.sensorsAlloc = w.nm.sensorsAlloc + 1 := by
  obtain ⟨n, -, -, -, -, hwired⟩ := hc.self
  cases hwired with
  | plain hplain => cases hplain.symm.trans hsim
  | failed _ _ hfail => cases hfail.symm.trans hmoved
  | connected _ _ hgrown _ =>
      cases hgrown with
      | room hroom => exact absurd hroom (Nat.not_lt_of_le hfull)
      | extended _ hin => cases hin.symm.trans hmoved
      | moved _ _ halloc => exact halloc

/-- A stale context stays stale: a creation changes no context. -/
theorem Created.firstStale (hc : Created host d w w') (hw : Sound w) (h : FirstStale w) :
    FirstStale w' := by
  obtain ⟨st, n, v, ref, h0, hn, hv, hcontext, hlt⟩ := h
  have hlive := hw.live_of_sensor (List.mem_of_getElem? h0)
  exact ⟨st, n, v, ref, hc.first_sensor h0, (hc.find_of_mem hlive).trans hn, hv, hcontext,
    Nat.lt_of_lt_of_le hlt hc.alloc_le⟩

/-- A growth that moves an array in use makes the context of the first sensor stale. -/
theorem Created.firstStale_of_moved (hc : Created host d w w') (hw : Sound w)
    (hown : ContextsOwn w) (hne : w.nm.sensors ≠ [])
    (halloc : w'.nm.sensorsAlloc = w.nm.sensorsAlloc + 1) : FirstStale w' := by
  obtain ⟨st, rest, hcons⟩ := List.exists_cons_of_ne_nil hne
  have h0 : w.nm.sensors[0]? = some st := by rw [hcons, List.getElem?_cons_zero]
  obtain ⟨n, v, hn, hv, hcontext⟩ := hown 0 st h0
  have hlive := hw.live_of_sensor (List.mem_of_getElem? h0)
  exact ⟨st, n, v, _, hc.first_sensor h0, (hc.find_of_mem hlive).trans hn, hv, hcontext,
    halloc ▸ Nat.lt_succ_self _⟩

/-- The contexts point at their own sensors as long as the array is not moved while it is
in use. From the first such move on, one of them is stale. -/
inductive ContextsBuilt (host : Host) (done : List ServerNodeDef) (w : World) : Prop where
  | own (hown : ContextsOwn w) (hstays : StaysInPlace host done)
  | stale (hstale : FirstStale w) (hmoved : ¬ StaysInPlace host done)

/-- A creation after which a simulated definition lacks nothing keeps the account of the
contexts. -/
theorem Created.contextsBuilt (hc : Created host d w w') (hw : Sound w)
    (hcomplete : SensorsComplete done w) (h : ContextsBuilt host done w) :
    ContextsBuilt host (done ++ [d]) w' := by
  cases h with
  | stale hstale hmoved =>
      exact .stale (hc.firstStale hw hstale) fun hstays => hmoved hstays.of_append
  | own hown hstays =>
      -- Whether `d` makes the array grow, and `realloc` then moves it, decides.
      by_cases hstays' : StaysInPlace host (done ++ [d])
      · refine .own (hc.contextsOwn hw (fun hsim hfull hmoved => ?_) hown) hstays'
        rw [hcomplete.capacity, hcomplete.length_eq] at hfull
        have hzero := hstays' _ d (growsAt_last hsim hfull) hmoved
        exact List.eq_nil_of_length_eq_zero (hcomplete.length_eq.trans hzero)
      · refine .stale ?_ hstays'
        simp only [StaysInPlace, not_forall] at hstays'
        obtain ⟨i, x, hx, hmoved, hne⟩ := hstays'
        rcases growsAt_append hx with hold | ⟨hsim, rfl, rfl⟩
        · exact absurd (hstays i x hold hmoved) hne
        · rw [← hcomplete.length_eq] at hne
          have hfull := hx.full
          rw [← hcomplete.length_eq, ← hcomplete.capacity] at hfull
          refine hc.firstStale_of_moved hw hown (fun hnil => hne (by simp [hnil])) ?_
          exact hc.alloc_of_moved hsim hfull hmoved

/-- **The contexts after the build.** With every growth succeeding, they point at their own
sensors when no growth moves an array in use, and only then. -/
theorem start_contextsBuilt (h : start host nsIdx cfg file = some w)
    (halloc : Allocates host (sortNodesByDepth cfg)) :
    ContextsBuilt host (sortNodesByDepth cfg) w := by
  have hdone := start_induction (P := fun done w => Sound w ∧ SensorsBuilt host done w ∧
      (Allocates host done → ContextsBuilt host done w)) ?_ ?_ ⟨sound_create, ?_, ?_⟩ h
  · exact hdone.2.2 halloc
  · rintro done d w w' - ⟨hw, hbuilt, hcontexts⟩ - hc
    refine ⟨hc.sound hw, hc.sensorsBuilt hbuilt, fun halloc => ?_⟩
    -- When no growth has failed, the sensors are those of the simulated definitions that are done.
    cases hbuilt with
    | complete hcomplete halloc' => exact hc.contextsBuilt hw hcomplete (hcontexts halloc')
    | missing _ hfail => exact absurd halloc.of_append hfail
  · rintro done d w - ⟨hw, hbuilt, hcontexts⟩ hother
    have hsim := isSimulated_of_other hother
    refine ⟨hw, hbuilt.plain hsim rfl rfl, fun halloc => ?_⟩
    -- A definition without a sensor grows nothing and moves nothing.
    cases hcontexts halloc.of_append with
    | own hown hstays =>
        refine .own hown fun i x hx hmoved => ?_
        rcases growsAt_append hx with hold | ⟨hself, -⟩
        · exact hstays i x hold hmoved
        · cases hsim.symm.trans hself
    | stale hstale hmoved =>
        exact .stale hstale fun hstays => hmoved hstays.of_append
  · refine .complete ⟨rfl, rfl⟩ fun i x hx => ?_
    cases hx.position
  · refine fun _ => .own nofun fun i x hx => ?_
    cases hx.position

/-- After a build whose growths are harmless, each sensor node points at its own sensor. -/
theorem start_contextsOwn (hgrow : BuildGrowth host cfg)
    (h : start host nsIdx cfg file = some w) : ContextsOwn w := by
  cases start_contextsBuilt h hgrow.allocates with
  | own hown _ => exact hown
  | stale _ hmoved => exact absurd hgrow.stays hmoved

/-- **The converse for the contexts.** If each simulated definition has its sensor after the
build, and each context points at its own sensor, the growths were harmless. -/
theorem buildGrowth_of_start (h : start host nsIdx cfg file = some w)
    (hall : ∀ d ∈ cfg.nodes, d.isSimulated = true →
      ∃ st ∈ w.nm.sensors, st.browseName.chars = d.browseName.chars)
    (hown : ContextsOwn w) : BuildGrowth host cfg := by
  have halloc := allocates_of_start h hall
  refine ⟨halloc, ?_⟩
  cases start_contextsBuilt h halloc with
  | own _ hstays => exact hstays
  | stale hstale _ => exact absurd hown hstale.not_own

/-- An array that is always extended in place keeps every build harmless. -/
theorem buildGrowth_ok (cfg : ServerConfig) : BuildGrowth .ok cfg :=
  ⟨fun _ _ _ => nofun, fun _ _ _ => nofun⟩

end SmartFactory.Server
