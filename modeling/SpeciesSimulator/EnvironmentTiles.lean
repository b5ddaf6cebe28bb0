import SpeciesSimulator.EnvironmentStartup
import SpeciesSimulator.MapThreads

/-!
# Maps side by side

An environment of a certain width divides it by the number of its maps.  The
maps are placed side by side in one buffer of the size of the environment; what
is left over by the division stays empty at the right.

Main facts:
* `Tiled.instanciateMap_step`: each round of `m_instanciate_maps` makes the next
  map, which the constructor does not move;
* `apart_tileConfig`: the rectangles of the maps have nothing in common;
* `tiles_do_not_interfere`: the threads of the maps leave the buffer that they
  leave one after the other.
-/

namespace SpeciesSimulator

open Interleaving ListSlots Transition

namespace MapConfig

/-- The constructor does not move a map that fits the console where it is. -/
theorem clampTo_of_le
    {config : MapConfig} {layout : WinConsoleLayout}
    (hx : config.width.toNat + config.x.toNat ≤ layout.nScreenWidth.toNat)
    (hy : config.height.toNat + config.y.toNat ≤ layout.nScreenHeight.toNat) :
    config.clampTo layout = config := by
  simp only [clampTo, Nat.not_lt.mpr hx, Nat.not_lt.mpr hy, if_false]

end MapConfig

namespace Environment

section Model

/-- The configuration of the `i`-th of the maps side by side. -/
def tileConfig (config : MapConfig) (nmaps i : Nat) : MapConfig where
  x := UInt16.ofNat (i * (config.width.toNat / nmaps))
  y := 0
  width := UInt16.ofNat (config.width.toNat / nmaps)
  height := config.height
  wallOne := MapType.bottomWall.code
  wallTwo := MapType.topWall.code
  wallThree :=
    if 0 < i % 2 then MapType.rightWall.code else MapType.leftWall.code

/-- An environment at the offset `(0, 0)` that fits the console, and is wide
enough for its maps. -/
structure Tileable
    (console : WinConsole) (config : MapConfig) (nmaps : Nat) : Prop where
  x : config.x = 0
  y : config.y = 0
  pos : 1 ≤ nmaps
  wide : nmaps ≤ config.width.toNat
  high : 1 ≤ config.height.toNat
  area : config.width.toNat * config.height.toNat < 2 ^ 31
  screenWidth : config.width.toNat ≤ console.layout.nScreenWidth.toNat
  screenHeight : config.height.toNat ≤ console.layout.nScreenHeight.toNat

/-- What the constructor has computed, and the maps that are made so far. -/
structure Tiled
    (config : MapConfig) (nmaps : Nat) (env : Environment) : Prop where
  mapCount : env.mapCount = nmaps
  mapWidth : env.mapWidth = (config.width.toNat / nmaps : Nat)
  mapHeight : env.mapHeight = config.height.toNat
  base : env.base.config = config
  sized : env.buffer.Sized
  bufferWidth : env.buffer.width = config.width.toNat
  bufferHeight : env.buffer.height = config.height.toNat
  tiles : Every (fun i m => m.config = tileConfig config nmaps i) env.maps

end Model

section Sizes

variable {console : WinConsole} {config : MapConfig} {nmaps i : Nat}

theorem Tileable.width_pos
    (h : Tileable console config nmaps) :
    1 ≤ config.width.toNat / nmaps :=
  (Nat.one_le_div_iff h.pos).mpr h.wide

/-- The maps up to one of them are not wider than the environment. -/
theorem row_le
    (config : MapConfig)
    (hi : i < nmaps) :
    i * (config.width.toNat / nmaps) + config.width.toNat / nmaps ≤
      config.width.toNat := by
  calc
    i * (config.width.toNat / nmaps) + config.width.toNat / nmaps =
        (i + 1) * (config.width.toNat / nmaps) := by rw [Nat.succ_mul]
    _ ≤ nmaps * (config.width.toNat / nmaps) := Nat.mul_le_mul_right _ hi
    _ ≤ config.width.toNat := Nat.mul_div_le _ _

@[simp] theorem tileConfig_width
    (config : MapConfig) (nmaps i : Nat) :
    (tileConfig config nmaps i).width.toNat = config.width.toNat / nmaps := by
  have hle := Nat.div_le_self config.width.toNat nmaps
  exact UInt16.toNat_ofNat_of_lt' (lt_of_le_of_lt hle config.width.toNat_lt)

@[simp] theorem tileConfig_height
    (config : MapConfig) (nmaps i : Nat) :
    (tileConfig config nmaps i).height = config.height := by
  rfl

@[simp] theorem tileConfig_y
    (config : MapConfig) (nmaps i : Nat) :
    (tileConfig config nmaps i).y = 0 := by
  rfl

theorem tileConfig_x
    (config : MapConfig)
    (hi : i < nmaps) :
    (tileConfig config nmaps i).x.toNat =
      i * (config.width.toNat / nmaps) := by
  have hle := le_of_add_le_left (row_le config hi)
  exact UInt16.toNat_ofNat_of_lt' (lt_of_le_of_lt hle config.width.toNat_lt)

/-- The constructor does not move a map that is in its place. -/
theorem Tileable.clampTo_tileConfig
    (h : Tileable console config nmaps)
    (hi : i < nmaps) :
    (tileConfig config nmaps i).clampTo console.layout =
      tileConfig config nmaps i := by
  refine MapConfig.clampTo_of_le ?_ ?_
  · rw [tileConfig_x config hi, tileConfig_width, Nat.add_comm]
    exact (row_le config hi).trans h.screenWidth
  · simpa using h.screenHeight

/-- Different maps have nothing in common. -/
theorem Tileable.apart
    (h : Tileable console config nmaps)
    {j : Nat}
    (hi : i < nmaps)
    (hj : j < nmaps)
    (hne : i ≠ j) :
    MapThread.Apart (tileConfig config nmaps i) (tileConfig config nmaps j) := by
  rintro px py ⟨hleft, hright, -, -⟩ ⟨hleft', hright', -, -⟩
  rw [tileConfig_x config hi, tileConfig_width] at hright
  rw [tileConfig_x config hi] at hleft
  rw [tileConfig_x config hj, tileConfig_width] at hright'
  rw [tileConfig_x config hj] at hleft'
  have hpos := h.width_pos
  have hdiv : px / (config.width.toNat / nmaps) = i := by
    exact Nat.div_eq_of_lt_le (by omega) (by rw [Nat.succ_mul]; omega)
  have hdiv' : px / (config.width.toNat / nmaps) = j := by
    exact Nat.div_eq_of_lt_le (by omega) (by rw [Nat.succ_mul]; omega)
  exact hne (hdiv.symm.trans hdiv')

/-- A map lies inside the buffer of its environment. -/
theorem Tiled.covers
    {env : Environment}
    (ht : Tiled config nmaps env)
    (hi : i < nmaps) :
    Map.Covers (tileConfig config nmaps i) env.buffer := by
  have hrow := row_le config hi
  refine ⟨ht.sized, ?_, ?_⟩
  · rw [tileConfig_x config hi, tileConfig_width, ht.bufferWidth]
    exact hrow
  · rw [tileConfig_y, tileConfig_height, ht.bufferHeight]
    simp

end Sizes

section Steps

variable {console : WinConsole} {config : MapConfig} {nmaps : Nat}
  {env : Environment} {vectors : List (List Entity)}

/-- What the constructor computes. -/
theorem Tileable.exists_make
    (h : Tileable console config nmaps) :
    ∃ env, make console config nmaps = .ok env ∧ Tiled config nmaps env ∧
      env.idCount = 0 ∧ env.maps = [] := by
  obtain ⟨base, buffer, hmake, hsized, hbase, _⟩ :=
    Map.exists_makeWithBuffer console none h.area
  obtain ⟨buffer', hbuffer, hrest⟩ := exists_of_bind_ok hmake
  obtain ⟨base', _, hpair⟩ := exists_of_bind_ok hrest
  cases hpair
  obtain ⟨_, hwidth, hheight⟩ := TSConsoleBuffer.sized_of_make hbuffer
  have hcount : Int.bmod nmaps (2 ^ 32) = nmaps := by
    have hwide := h.wide
    have hlt := config.width.toNat_lt
    exact Int.bmod_eq_of_le (by omega) (by omega)
  have hne : ¬ (nmaps : Int) = 0 := by
    have hpos := h.pos
    omega
  have hconfig : base.config = config := by
    rw [hbase]
    refine MapConfig.clampTo_of_le ?_ ?_
    · simpa [h.x] using h.screenWidth
    · simpa [h.y] using h.screenHeight
  refine
    ⟨{ base := base
       buffer := buffer
       mapWidth := Int.tdiv base.config.width.toNat nmaps
       mapHeight := base.config.height.toNat
       mapCount := nmaps }, ?_, ?_, rfl, rfl⟩
  · simp only [make, hmake, hcount, hne, if_false, bind_ok, pure_eq_ok]
  · refine
      { mapCount := rfl
        mapWidth := ?_
        mapHeight := ?_
        base := hconfig
        sized := hsized
        bufferWidth := hwidth
        bufferHeight := hheight
        tiles := every_nil }
    · change Int.tdiv base.config.width.toNat nmaps = _
      rw [hconfig, Int.natCast_ediv]
      exact Int.tdiv_eq_ediv_of_nonneg (Int.natCast_nonneg _)
    · rw [hconfig]

theorem ofInt_natCast
    {n : Nat}
    (h : n < 2 ^ 16) :
    UInt16.ofInt n = UInt16.ofNat n := by
  unfold UInt16.ofInt
  rw [Int.emod_eq_of_lt (by omega) (by omega), Int.toNat_natCast]

/-- The configuration that a round of `m_instanciate_maps` puts together. -/
theorem Tiled.tempConfig_eq
    (ht : Tiled config nmaps env)
    {i : Nat}
    (hi : i < nmaps) :
    env.tempConfig i = .ok (tileConfig config nmaps i) := by
  have hle := le_of_add_le_left (row_le config hi)
  have hle' := Nat.div_le_self config.width.toNat nmaps
  have hlt := config.width.toNat_lt
  have hx :
      (i : Int) * env.mapWidth = (i * (config.width.toNat / nmaps) : Nat) := by
    rw [ht.mapWidth, Int.natCast_mul]
  have hrange : i * (config.width.toNat / nmaps) < 2 ^ 16 :=
    lt_of_le_of_lt hle hlt
  have hcheck :
      checkInt (i * (config.width.toNat / nmaps) : Nat) =
        .ok ((i * (config.width.toNat / nmaps) : Nat) : Int) :=
    checkInt_of_range (by omega) (by omega)
  unfold tempConfig
  rw [hx, hcheck, bind_ok, pure_eq_ok, ht.mapWidth, ht.mapHeight,
    ofInt_natCast hrange, ofInt_natCast (lt_of_le_of_lt hle' hlt),
    ofInt_natCast config.height.toNat_lt, UInt16.ofNat_toNat]
  rfl

/-- The thread draws the walls of the environment and scales the buffer. -/
theorem Tiled.startUp_step
    (vectors : List (List Entity))
    (ht : Tiled config nmaps env)
    (h : Tileable console config nmaps)
    (hpc : env.pc = .startUp) :
    ∃ env', Tiled config nmaps env' ∧ env'.pc = .instanciateMaps 0 ∧
      env'.maps = env.maps ∧ env'.idCount = env.idCount ∧
      ∀ randx randy,
        env.step console vectors randx randy =
          some (.ok (env', vectors)) := by
  obtain ⟨b, hstart, _⟩ :=
    Map.startUp_inside (m := env.base) ht.sized
      (by rw [ht.base]; exact h.pos.trans h.wide) (by rw [ht.base]; exact h.high)
  obtain ⟨buffer, hbuffer⟩ :
      ∃ buffer,
        TSConsoleBuffer.make config.width.toNat config.height.toNat =
          .ok buffer :=
    ⟨_, if_pos h.area⟩
  obtain ⟨hsized, hwidth, hheight⟩ := TSConsoleBuffer.sized_of_make hbuffer
  refine
    ⟨{ env with buffer := buffer, pc := .instanciateMaps 0 },
      { ht with sized := hsized, bufferWidth := hwidth, bufferHeight := hheight },
      rfl, rfl, rfl, fun randx randy => ?_⟩
  simp only [step, hpc, hstart, ht.base, hbuffer, bind_ok, pure_eq_ok]

/-- A round of `m_instanciate_maps` makes the next map, which is empty. -/
theorem Tiled.instanciateMap_step
    {i : Nat}
    (ht : Tiled config nmaps env)
    (h : Tileable console config nmaps)
    (hpc : env.pc = .instanciateMaps i)
    (hi : i < nmaps)
    (hmaps : env.maps.length = i)
    (hvectors : i < vectors.length) :
    ∃ m env', Tiled config nmaps env' ∧ env'.pc = .instanciateMaps (i + 1) ∧
      env'.maps = env.maps ++ [m] ∧ (∀ cell, m.lookup cell = none) ∧
      env'.idCount = env.idCount ∧
      ∀ randx randy,
        env.step console vectors randx randy =
          some (.ok (env', vectors)) := by
  have hsize :
      (tileConfig config nmaps i).width.toNat *
        (tileConfig config nmaps i).height.toNat < 2 ^ 31 := by
    rw [tileConfig_width, tileConfig_height]
    exact
      lt_of_le_of_lt (Nat.mul_le_mul_right _ (Nat.div_le_self _ _)) h.area
  obtain ⟨m, hmake, hconfig, _⟩ := Map.exists_make console (some i) hsize
  rw [h.clampTo_tileConfig hi] at hconfig
  have hlt : (i : Int) < env.mapCount := by
    rw [ht.mapCount]
    exact Int.ofNat_lt.mpr hi
  refine
    ⟨m, { env with
          maps := env.maps ++ [m]
          pc := .instanciateMaps (i + 1) },
      { ht with tiles := ht.tiles.concat ?_ }, rfl, rfl,
      Map.lookup_of_make hmake, rfl, fun randx randy => ?_⟩
  · rw [hmaps]
    exact hconfig
  · simp only [step, hpc, hlt, hvectors, if_true, instanciateMap,
      ht.tempConfig_eq hi, hmake, bind_ok, pure_eq_ok]

/-- When all maps are made, the thread goes on. -/
theorem Tiled.mapsDone_step
    (console : WinConsole) (vectors : List (List Entity))
    {i : Nat}
    (ht : Tiled config nmaps env)
    (hpc : env.pc = .instanciateMaps i)
    (hi : ¬ i < nmaps) :
    ∃ env', Tiled config nmaps env' ∧ env'.pc = .createEntities 0 0 ∧
      env'.maps = env.maps ∧ env'.idCount = env.idCount ∧
      ∀ randx randy,
        env.step console vectors randx randy =
          some (.ok (env', vectors)) := by
  have hnot : ¬ (i : Int) < env.mapCount := by
    rw [ht.mapCount]
    exact fun hlt => hi (Int.ofNat_lt.mp hlt)
  refine
    ⟨{ env with pc := .createEntities 0 0 }, { ht with }, rfl, rfl, rfl,
      fun randx randy => ?_⟩
  simp only [step, hpc, hnot, if_false]

end Steps

section Building

variable {console : WinConsole} {config : MapConfig} {nmaps : Nat}
  {p q : Environment × List (List Entity)} {r : Int × Int}

/-- The maps made so far are empty. -/
structure Built
    (config : MapConfig) (nmaps : Nat)
    (p : Environment × List (List Entity)) : Prop where
  tiled : Tiled config nmaps p.1
  maps_length : p.1.maps.length = p.1.rounds
  maps_le : p.1.maps.length ≤ nmaps
  vectors_length : p.2.length = nmaps
  empty : ∀ m ∈ p.1.maps, ∀ cell, m.lookup cell = none

/-- The thread makes the maps before it places the first entity. -/
theorem Built.step
    (hp : Built config nmaps p)
    (h : Tileable console config nmaps)
    (hunfed : p.1.pc.Unfed)
    (hpc : p.1.pc ≠ .createEntities 0 0) :
    ∃ q, (∀ r, advance console p r = some q) ∧ Built config nmaps q ∧
      q.1.pc.Unfed ∧ distance nmaps q < distance nmaps p := by
  obtain ⟨env, vectors⟩ := p
  obtain ⟨ht, hmaps, hle, hvectors, hempty⟩ := hp
  dsimp only at hunfed hpc ht hmaps hle hvectors hempty
  unfold rounds at hmaps
  cases hcase : env.pc with
  | created =>
      rw [hcase] at hunfed
      exact hunfed.elim
  | startUp =>
      obtain ⟨env', ht', hpc', hmaps', _, hstep⟩ :=
        ht.startUp_step vectors h hcase
      rw [hcase, EnvPc.rounds] at hmaps
      rw [← hmaps'] at hmaps hle hempty
      refine ⟨(env', vectors), ?_, ⟨ht', ?_, hle, hvectors, hempty⟩, ?_, ?_⟩
      · exact fun r => by simp only [advance, hstep]
      · simpa only [rounds, hpc', EnvPc.rounds] using hmaps
      · simp only [hpc', EnvPc.Unfed]
      · simp only [distance, hpc', hcase]
        omega
  | instanciateMaps i =>
      rw [hcase, EnvPc.rounds] at hmaps
      by_cases hi : i < nmaps
      · obtain ⟨m, env', ht', hpc', hmaps', hm, _, hstep⟩ :=
          ht.instanciateMap_step h hcase hi hmaps (hvectors ▸ hi)
        have hlength : env'.maps.length = i + 1 := by
          rw [hmaps', List.length_append, hmaps]
          rfl
        have hempty' : ∀ m' ∈ env'.maps, ∀ cell, m'.lookup cell = none := by
          rw [hmaps']
          intro m' hm'
          rcases List.mem_append.mp hm' with hm' | hm'
          · exact hempty m' hm'
          · obtain rfl := List.mem_singleton.mp hm'
            exact hm
        refine
          ⟨(env', vectors), ?_, ⟨ht', ?_, ?_, hvectors, hempty'⟩, ?_, ?_⟩
        · exact fun r => by simp only [advance, hstep]
        · simpa only [rounds, hpc', EnvPc.rounds] using hlength
        · dsimp only
          omega
        · simp only [hpc', EnvPc.Unfed]
        · simp only [distance, hpc', hcase]
          omega
      · obtain ⟨env', ht', hpc', hmaps', _, hstep⟩ :=
          ht.mapsDone_step console vectors hcase hi
        have hcount := ht'.mapCount
        rw [← hmaps'] at hmaps hle hempty
        refine ⟨(env', vectors), ?_, ⟨ht', ?_, hle, hvectors, hempty⟩, ?_, ?_⟩
        · exact fun r => by simp only [advance, hstep]
        · simp only [rounds, hpc', EnvPc.rounds]
          omega
        · simp only [hpc', EnvPc.Unfed, and_self]
        · simp only [distance, hpc', hcase, maxFoodPerMap]
          omega
  | createEntities mapCounter i =>
      rw [hcase] at hunfed hpc
      obtain ⟨rfl, rfl⟩ := hunfed
      exact absurd rfl hpc
  | updateEntities mapCounter =>
      rw [hcase] at hunfed
      exact hunfed.elim
  | running =>
      rw [hcase] at hunfed
      exact hunfed.elim

/-- The thread does not come back to making maps. -/
theorem unfed_of_step
    {env env' : Environment} {vectors vectors' : List (List Entity)}
    (hstep : EnvironmentStep console env vectors env' vectors')
    (h : env'.pc.Unfed) :
    env.pc.Unfed ∧ env.pc ≠ .createEntities 0 0 := by
  cases hstep with
  | startUp hpc => simp [hpc, EnvPc.Unfed]
  | instanciateMap hpc => simp [hpc, EnvPc.Unfed]
  | mapsDone hpc => simp [hpc, EnvPc.Unfed]
  | createEntity => cases h.2
  | mapFed => exact h.elim
  | entitiesDone => exact h.elim
  | updateEntities => cases h.1

/-- All maps are made and empty when the first entity is about to be placed. -/
theorem Built.of_run
    {rs : List (Int × Int)}
    (hp : Built config nmaps p)
    (h : Tileable console config nmaps)
    (hrun : run (advance console) p rs = some q)
    (hunfed : q.1.pc.Unfed) :
    Built config nmaps q := by
  refine
    reachable_invariant
      (I := fun p => p.1.pc.Unfed → Built config nmaps p) ?_
      (fun _ => hp) ⟨rs, hrun⟩ hunfed
  intro p r q hp hadvance hq
  obtain ⟨hunfed, hpc⟩ := unfed_of_step (environmentStep_of_advance hadvance) hq
  obtain ⟨q', hadvance', hq', -, -⟩ := (hp hunfed).step h hunfed hpc
  obtain rfl := Option.some.inj ((hadvance' r).symm.trans hadvance)
  exact hq'

/-- The thread comes to the point where all maps are made. -/
theorem Built.exists_run
    (hp : Built config nmaps p)
    (h : Tileable console config nmaps)
    (hunfed : p.1.pc.Unfed) :
    ∃ rs q, run (advance console) p rs = some q ∧
      q.1.pc = .createEntities 0 0 := by
  have hprogress :
      ∀ p : Environment × List (List Entity),
        Built config nmaps p ∧ p.1.pc.Unfed →
          ¬ p.1.pc = .createEntities 0 0 →
            ∃ r q, advance console p r = some q ∧
              (Built config nmaps q ∧ q.1.pc.Unfed) ∧
              distance nmaps q < distance nmaps p := by
    rintro p ⟨hp, hunfed⟩ hpc
    obtain ⟨q, hadvance, hq, hunfed', hlt⟩ := hp.step h hunfed hpc
    exact ⟨(1, 1), q, hadvance (1, 1), ⟨hq, hunfed'⟩, hlt⟩
  obtain ⟨rs, q, hrun, _, hgoal⟩ :=
    exists_run_of_progress (distance nmaps) hprogress ⟨hp, hunfed⟩
  exact ⟨rs, q, hrun, hgoal⟩

end Building

section Interference

/-- What is drawn stays in the rectangle of a map. -/
def DrawsInside
    (config : MapConfig)
    (draw : TSConsoleBuffer → Except Fault TSConsoleBuffer) : Prop :=
  ∀ b, b.Sized →
    ∃ b', draw b = .ok b' ∧
      ∀ px py, ¬ Map.InRectangle config px py →
        b'.charAt px py = b.charAt px py

/-- The maps are where they should be, inside the buffer, and apart from each
other. -/
structure SideBySide
    (config : MapConfig) (nmaps : Nat) (env : Environment) : Prop where
  length : env.maps.length = nmaps
  place : ∀ i m, env.maps[i]? = some m →
    m.config.x.toNat = i * (config.width.toNat / nmaps) ∧ m.config.y = 0 ∧
      m.config.width.toNat = config.width.toNat / nmaps ∧
      m.config.height = config.height
  covers : ∀ m ∈ env.maps, Map.Covers m.config env.buffer
  apart : env.maps.Pairwise fun m m' => MapThread.Apart m.config m'.config

variable {console : WinConsole} {config : MapConfig} {nmaps : Nat}
  {p : Environment × List (List Entity)}

theorem Built.sideBySide
    (hp : Built config nmaps p)
    (h : Tileable console config nmaps)
    (hpc : p.1.pc = .createEntities 0 0) :
    SideBySide config nmaps p.1 := by
  have hlength : p.1.maps.length = nmaps := by
    have hmaps := hp.maps_length
    have hcount := hp.tiled.mapCount
    simp only [rounds, hpc, EnvPc.rounds] at hmaps
    omega
  have hlt {i : Nat} {m : Map} (hm : p.1.maps[i]? = some m) : i < nmaps := by
    rw [← hlength]
    exact (List.getElem?_eq_some_iff.mp hm).1
  refine ⟨hlength, ?_, ?_, ?_⟩
  · intro i m hm
    rw [hp.tiled.tiles i m hm, tileConfig_x config (hlt hm)]
    exact ⟨rfl, rfl, tileConfig_width config nmaps i, rfl⟩
  · intro m hm
    obtain ⟨i, hi⟩ := List.mem_iff_getElem?.mp hm
    rw [hp.tiled.tiles i m hi]
    exact hp.tiled.covers (hlt hi)
  · rw [List.pairwise_iff_getElem]
    intro i j hi hj hij
    have hm := List.getElem?_eq_getElem hi
    have hm' := List.getElem?_eq_getElem hj
    rw [hp.tiled.tiles i _ hm, hp.tiled.tiles j _ hm']
    exact h.apart (hlt hm) (hlt hm') (by omega)

/-- The threads of the maps, when the entities in the grids and those of the
vectors to come are at cells of the maps. -/
structure ThreadsOf (maps : List Map) (threads : List MapThread) : Prop where
  configs : threads.map (fun t => t.map.config) = maps.map (fun m => m.config)
  grids : ∀ t ∈ threads, t.map.GridInside
  calls : ∀ t ∈ threads, ∀ call ∈ t.calls, ∀ e ∈ call.2,
    t.map.config.Contains e.cell

/-- The threads of maps side by side stay in bounds, and apart. -/
theorem SideBySide.threads
    {env : Environment} {threads : List MapThread}
    (hs : SideBySide config nmaps env)
    (h : Tileable console config nmaps)
    (hthreads : ThreadsOf env.maps threads) :
    (∀ t ∈ threads, t.InBounds) ∧
      threads.Pairwise fun t t' =>
        MapThread.Apart t.map.config t'.map.config := by
  constructor
  · intro t ht
    have hconfig : t.map.config ∈ env.maps.map fun m => m.config := by
      rw [← hthreads.configs]
      exact List.mem_map_of_mem ht
    obtain ⟨m, hm, heq⟩ := List.mem_map.mp hconfig
    obtain ⟨i, hi⟩ := List.mem_iff_getElem?.mp hm
    obtain ⟨_, _, hwidth, hheight⟩ := hs.place i m hi
    rw [heq] at hwidth hheight
    refine ⟨?_, ?_, hthreads.grids t ht, hthreads.calls t ht⟩
    · rw [hwidth]
      exact h.width_pos
    · rw [hheight]
      exact h.high
  · have hapart := hs.apart
    rw [← List.pairwise_map, ← hthreads.configs, List.pairwise_map] at hapart
    exact hapart

/-- The maps of an environment are apart from each other and inside the buffer,
what is drawn for one of them stays in its rectangle, and their threads leave the
buffer that they leave one after the other, however they interleave. -/
theorem tiles_do_not_interfere
    {vectors : List (List Entity)}
    (h : Tileable console config nmaps)
    (hvectors : vectors.length = nmaps) :
    ∃ env, make console config nmaps = .ok env ∧
      (∃ rs q,
        run (advance console) ({ env with pc := .startUp }, vectors) rs =
          some q ∧
        q.1.pc = .createEntities 0 0) ∧
      ∀ rs q,
        run (advance console) ({ env with pc := .startUp }, vectors) rs =
          some q →
        q.1.pc = .createEntities 0 0 →
          SideBySide config nmaps q.1 ∧
          (∀ m ∈ q.1.maps,
            DrawsInside m.config m.startUp ∧
              ∀ m' : Map, m'.config = m.config → m'.GridInside →
                DrawsInside m.config m'.render) ∧
          ∀ threads, ThreadsOf q.1.maps threads →
            ((∀ t ∈ threads, ∀ call ∈ t.calls, call.2.length < 2 ^ 31 ∧
                ∀ e ∈ call.2, e.Inside t.map.config) →
              ∃ wss,
                List.Forall₂ (fun t ws => t.writes = .ok ws) threads wss) ∧
            ∀ wss,
              List.Forall₂ (fun t ws => t.writes = .ok ws) threads wss →
              ∀ b is r,
                run (Pool.step TSConsoleBuffer.writeOp) ⟨b, wss⟩ is = some r →
                r.Done →
                  MapThread.runInTurn threads b = .ok r.shared := by
  obtain ⟨env, hmake, htiled, _, hmaps⟩ := h.exists_make
  have hstart : Built config nmaps ({ env with pc := .startUp }, vectors) :=
    { tiled := { htiled with }
      maps_length := by simp [rounds, EnvPc.rounds, hmaps]
      maps_le := by simp [hmaps]
      vectors_length := hvectors
      empty := by simp [hmaps] }
  refine ⟨env, hmake, hstart.exists_run h trivial, ?_⟩
  intro rs q hrun hpc
  have hunfed : q.1.pc.Unfed := by
    rw [hpc]
    exact ⟨rfl, rfl⟩
  have hside := (hstart.of_run h hrun hunfed).sideBySide h hpc
  refine ⟨hside, ?_, ?_⟩
  · intro m hm
    obtain ⟨i, hi⟩ := List.mem_iff_getElem?.mp hm
    obtain ⟨_, _, hwidth, hheight⟩ := hside.place i m hi
    have hwidth' : 1 ≤ m.config.width.toNat := by
      rw [hwidth]
      exact h.width_pos
    have hheight' : 1 ≤ m.config.height.toNat := by
      rw [hheight]
      exact h.high
    constructor
    · intro b hsized
      obtain ⟨b', hdraw, _, hout⟩ := Map.startUp_inside hsized hwidth' hheight'
      exact ⟨b', hdraw, hout⟩
    · intro m' hconfig hgrid b hsized
      obtain ⟨b', hdraw, _, hout⟩ := hgrid.render_inside hsized
      rw [hconfig] at hout
      exact ⟨b', hdraw, hout⟩
  · intro threads hthreads
    refine ⟨MapThread.exists_writes, fun wss hwrites b is r hpool hdone => ?_⟩
    obtain ⟨hbounds, hapart⟩ := hside.threads h hthreads
    exact
      MapThread.runInTurn_eq_of_interleaving hbounds hapart hwrites hpool hdone

/-- Two maps of two columns each. -/
theorem tiles_do_not_interfere_two :
    ∃ env rs q, make ⟨{}⟩ { width := 5, height := 3 } 2 = .ok env ∧
      run (advance ⟨{}⟩) ({ env with pc := .startUp }, [[], []]) rs = some q ∧
      SideBySide { width := 5, height := 3 } 2 q.1 := by
  have hfits : Tileable ⟨{}⟩ { width := 5, height := 3 } 2 := by
    constructor <;> decide
  obtain ⟨env, hmake, ⟨rs, q, hrun, hpc⟩, hall⟩ :=
    @tiles_do_not_interfere _ _ _ [[], []] hfits rfl
  exact ⟨env, rs, q, hmake, hrun, (hall rs q hrun hpc).1⟩

end Interference

end Environment

end SpeciesSimulator
