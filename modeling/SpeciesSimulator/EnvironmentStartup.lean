import SpeciesSimulator.Environment
import SpeciesSimulator.Lib.ListSlots
import SpeciesSimulator.Lib.Transition
import SpeciesSimulator.MapGrid

/-!
# How the environment starts up

What the environment's thread has built so far can be read off its position:
after `i` rounds of the loop of `m_instanciate_maps` there are `i` maps, the
`i`-th of which shows the `i`-th entity vector, and the loop of
`m_create_entities` says how long each vector is.  A vector only ever grows at
its end, by one entity at a time.

Main facts:
* `EnvironmentStep.startupInv`: every step keeps what is built in line with the
  position;
* `EnvironmentStep.vector`: what a step does to one vector;
* `exists_run_running`: the start-up can always be finished.
-/

namespace SpeciesSimulator

open ListSlots Transition

namespace MapConfig

/-- No side of the map has a wall. -/
def NoWalls (config : MapConfig) : Prop :=
  config.wallOne = 0 ∧ config.wallTwo = 0 ∧ config.wallThree = 0 ∧
    config.wallFour = 0

instance (config : MapConfig) : Decidable config.NoWalls :=
  inferInstanceAs (Decidable (_ ∧ _))

theorem NoWalls.clampTo
    {config : MapConfig}
    (h : config.NoWalls)
    (layout : WinConsoleLayout) :
    (config.clampTo layout).NoWalls := by
  simp only [MapConfig.clampTo]
  split
  · split
    · exact h
    · exact h
  · split
    · exact h
    · exact h

end MapConfig

namespace Map

/-- A map is where it was asked to be and shows the vector it was made for. -/
theorem frame_of_make
    {console : WinConsole} {config : MapConfig} {vecptr : Option VecPtr}
    {m : Map}
    (h : make console config vecptr = .ok m) :
    m.config = config.clampTo console.layout ∧
      m.entitiesExternal = vecptr := by
  unfold make at h
  split at h
  · cases h
    exact ⟨rfl, rfl⟩
  · cases h

theorem placeEntity_entitiesExternal
    {m m' : Map} {e : Entity}
    (h : m.placeEntity e = .ok m') :
    m'.entitiesExternal = m.entitiesExternal := by
  obtain ⟨_, _, h⟩ := exists_of_bind_ok h
  obtain ⟨_, _, h⟩ := exists_of_bind_ok h
  obtain ⟨_, _, h⟩ := exists_of_bind_ok h
  obtain ⟨_, _, h⟩ := exists_of_bind_ok h
  cases h
  rfl

theorem foldlM_placeEntity_entitiesExternal
    {m m' : Map} {es : List Entity}
    (h : es.foldlM placeEntity m = .ok m') :
    m'.entitiesExternal = m.entitiesExternal := by
  induction es generalizing m with
  | nil =>
      cases h
      rfl
  | cons e es ih =>
      rw [List.foldlM_cons] at h
      obtain ⟨m₁, hplace, hrest⟩ := exists_of_bind_ok h
      exact (ih hrest).trans (placeEntity_entitiesExternal hplace)

/-- Afterwards the map shows the vector that it was updated with. -/
theorem entitiesExternal_of_updateEntities
    {m m' : Map} {vecptr : VecPtr} {es : List Entity}
    {buffer buffer' : TSConsoleBuffer}
    (h : m.updateEntities vecptr es buffer = .ok (m', buffer')) :
    m'.entitiesExternal = some vecptr := by
  obtain ⟨m₁, hplace, h⟩ := exists_of_bind_ok h
  obtain ⟨b₁, _, h⟩ := exists_of_bind_ok h
  cases h
  obtain ⟨m₂, hfold, hplace⟩ := exists_of_bind_ok hplace
  split at hplace
  · cases hplace
    exact foldlM_placeEntity_entitiesExternal hfold
  · cases hplace

/-- Nothing is drawn for a map without walls. -/
theorem startUp_of_noWalls
    {m : Map}
    (h : m.config.NoWalls)
    (buffer : TSConsoleBuffer) :
    m.startUp buffer = .ok buffer := by
  have hzero : m.drawWall buffer 0 = .ok buffer := rfl
  obtain ⟨hone, htwo, hthree, hfour⟩ := h
  simp only [startUp, drawWalls, hone, htwo, hthree, hfour, List.foldlM_cons,
    List.foldlM_nil, hzero, bind_ok, pure_eq_ok]

end Map

namespace EnvPc

/-- How many rounds of the loop of `m_instanciate_maps` are over, when there
are `mapCount` in all. -/
def rounds (mapCount : Int) : EnvPc → Nat
  | .created => 0
  | .startUp => 0
  | .instanciateMaps i => i
  | .createEntities _ _ => mapCount.toNat
  | .updateEntities _ => mapCount.toNat
  | .running => mapCount.toNat

/-- How many entities the vector at a place has been given. -/
def fed (place : Nat) : EnvPc → Nat
  | .created => 0
  | .startUp => 0
  | .instanciateMaps _ => 0
  | .createEntities mapCounter i =>
      if place < mapCounter then maxFoodPerMap
      else if place = mapCounter then i
      else 0
  | .updateEntities mapCounter =>
      if place ≤ mapCounter then maxFoodPerMap else 0
  | .running => maxFoodPerMap

/-- The thread is at most about to place its first entity. -/
def Unfed : EnvPc → Prop
  | .startUp => True
  | .instanciateMaps _ => True
  | .createEntities mapCounter i => mapCounter = 0 ∧ i = 0
  | _ => False

/-- The thread is about to push an entity to the vector at a place. -/
def Feeds (place : Nat) (pc : EnvPc) : Prop :=
  ∃ i, pc = .createEntities place i ∧ i < maxFoodPerMap

end EnvPc

namespace Environment

/-- How many rounds of the loop of `m_instanciate_maps` are over. -/
def rounds (env : Environment) : Nat :=
  env.pc.rounds env.mapCount

/-- What is built is in line with the position of the thread. -/
structure StartupInv
    (nmaps : Nat) (env : Environment) (vectors : List (List Entity)) :
    Prop where
  maps_length : env.maps.length = env.rounds
  rounds_le : env.rounds ≤ env.mapCount.toNat
  pointers : Every (fun i map => map.entitiesExternal = some i) env.maps
  vectors_length : vectors.length = nmaps
  fed : Every (fun i vector => vector.length = env.pc.fed i) vectors
  fed_le : ∀ mapCounter i, env.pc = .createEntities mapCounter i →
    i ≤ maxFoodPerMap

/-- A new environment has no thread yet. -/
theorem pc_of_make
    {console : WinConsole} {config : MapConfig} {nmaps : Nat} {env : Environment}
    (h : make console config nmaps = .ok env) :
    env.pc = .created := by
  obtain ⟨_, _, hrest⟩ := exists_of_bind_ok h
  simp only at hrest
  split at hrest
  · cases hrest
  · cases hrest
    rfl

section StepLemma

variable {console : WinConsole} {env env' : Environment}
variable {vectors vectors' : List (List Entity)} {nmaps : Nat}

/-- Every step keeps what is built in line with the position. -/
theorem EnvironmentStep.startupInv
    (hstep : EnvironmentStep console env vectors env' vectors')
    (h : StartupInv nmaps env vectors) :
    StartupInv nmaps env' vectors' := by
  have hmaps := h.maps_length
  have hrounds := h.rounds_le
  have hfed := h.fed
  have hfed_le := h.fed_le
  unfold rounds at hmaps hrounds
  cases hstep with
  | startUp hpc =>
      rw [hpc] at hmaps hfed
      exact ⟨hmaps, Nat.zero_le _, h.pointers, h.vectors_length, hfed,
        fun _ _ hpc' => by cases hpc'⟩
  | @instanciateMap i config map hpc hlt hmake =>
      rw [hpc] at hmaps hfed
      simp only [EnvPc.rounds] at hmaps
      refine ⟨?_, ?_, ?_, h.vectors_length, hfed,
        fun _ _ hpc' => by cases hpc'⟩
      · simp [rounds, EnvPc.rounds, hmaps]
      · simp only [rounds, EnvPc.rounds]
        omega
      · refine h.pointers.concat ?_
        rw [hmaps]
        exact (Map.frame_of_make hmake).2
  | @mapsDone i hpc hdone =>
      rw [hpc] at hmaps hrounds hfed
      simp only [EnvPc.rounds] at hmaps hrounds
      refine ⟨?_, Nat.le_refl _, h.pointers, h.vectors_length, ?_, ?_⟩
      · simp only [rounds, EnvPc.rounds]
        omega
      · refine hfed.mono ?_
        intro j vector _ hlen
        simpa [EnvPc.fed] using hlen
      · intro mapCounter j hpc'
        cases hpc'
        exact Nat.zero_le _
  | @createEntity mapCounter i randx randy hpc hlt =>
      rw [hpc] at hmaps hrounds hfed
      refine ⟨hmaps, hrounds, h.pointers, ?_, ?_, ?_⟩
      · rw [List.length_modify]
        exact h.vectors_length
      · intro j vector hj
        rw [List.getElem?_modify] at hj
        obtain ⟨old, hold, rfl⟩ := Option.map_eq_some_iff.mp hj
        have hlen := hfed j old hold
        simp only [EnvPc.fed] at hlen ⊢
        by_cases hjc : mapCounter = j
        · subst j
          simp only [Nat.lt_irrefl, if_true, if_false] at hlen ⊢
          simp [hlen]
        · have hjc' : ¬ j = mapCounter := fun heq => hjc heq.symm
          simp only [hjc, hjc', if_false] at hlen ⊢
          exact hlen
      · intro mapCounter' j hpc'
        cases hpc'
        omega
  | @mapFed mapCounter i hpc hfull =>
      rw [hpc] at hmaps hrounds hfed
      have hle := hfed_le mapCounter i hpc
      refine ⟨hmaps, hrounds, h.pointers, h.vectors_length, ?_,
        fun _ _ hpc' => by cases hpc'⟩
      refine hfed.mono ?_
      intro j vector _ hlen
      simp only [EnvPc.fed] at hlen ⊢
      split_ifs at hlen ⊢ <;> omega
  | @entitiesDone mapCounter i hpc hdone =>
      rw [hpc] at hmaps hrounds hfed
      refine ⟨hmaps, hrounds, h.pointers, h.vectors_length, ?_,
        fun _ _ hpc' => by cases hpc'⟩
      refine hfed.mono ?_
      intro j vector hj hlen
      have hlt : j < vectors.length := (List.getElem?_eq_some_iff.mp hj).1
      have hlt' : j < mapCounter := by omega
      simpa [EnvPc.fed, hlt'] using hlen
  | @updateEntities mapCounter map map' vector buffer hpc hupdate =>
      rw [hpc] at hmaps hrounds hfed
      refine ⟨?_, hrounds, ?_, h.vectors_length, ?_, ?_⟩
      · rw [List.length_set]
        exact hmaps
      · refine h.pointers.set fun _ => ?_
        exact Map.entitiesExternal_of_updateEntities hupdate
      · refine hfed.mono ?_
        intro j vector _ hlen
        simp only [EnvPc.fed] at hlen ⊢
        split_ifs at hlen ⊢ <;> omega
      · intro mapCounter' j hpc'
        cases hpc'
        exact Nat.zero_le _

/-- No step takes back a round. -/
theorem EnvironmentStep.rounds_le
    (hstep : EnvironmentStep console env vectors env' vectors')
    (h : StartupInv nmaps env vectors) :
    env.rounds ≤ env'.rounds := by
  have hrounds := h.rounds_le
  unfold rounds at hrounds ⊢
  cases hstep with
  | startUp hpc => simp [hpc, EnvPc.rounds]
  | instanciateMap hpc hlt hmake => simp [hpc, EnvPc.rounds]
  | mapsDone hpc hdone =>
      rw [hpc] at hrounds ⊢
      exact hrounds
  | createEntity hpc hlt => simp [hpc, EnvPc.rounds]
  | mapFed hpc hfull => simp [hpc, EnvPc.rounds]
  | entitiesDone hpc hdone => simp [hpc, EnvPc.rounds]
  | updateEntities hpc hupdate => simp [hpc, EnvPc.rounds]

/-- A step leaves a vector alone, or it pushes one entity to it. -/
theorem EnvironmentStep.vector
    (hstep : EnvironmentStep console env vectors env' vectors')
    {place : Nat} {vector : List Entity}
    (hv : vectors[place]? = some vector) :
    vectors'[place]? = some vector ∨
      env.pc.Feeds place ∧ ∃ e, vectors'[place]? = some (vector ++ [e]) := by
  cases hstep with
  | startUp => exact Or.inl hv
  | instanciateMap => exact Or.inl hv
  | mapsDone => exact Or.inl hv
  | @createEntity mapCounter i randx randy hpc hlt =>
      rw [List.getElem?_modify, hv]
      by_cases hplace : mapCounter = place
      · subst place
        refine Or.inr ⟨⟨i, hpc, hlt⟩, env.tempEntity randx randy, ?_⟩
        simp
      · left
        simp [hplace]
  | mapFed => exact Or.inl hv
  | entitiesDone => exact Or.inl hv
  | updateEntities => exact Or.inl hv

/-- A thread that is about to push an entity pushes it. -/
theorem EnvironmentStep.pushed
    (hstep : EnvironmentStep console env vectors env' vectors')
    {place : Nat} {vector : List Entity}
    (hfeeds : env.pc.Feeds place)
    (hv : vectors[place]? = some vector) :
    ∃ e, vectors'[place]? = some (vector ++ [e]) := by
  obtain ⟨i, hfeeding, hlt⟩ := hfeeds
  cases hstep with
  | startUp hpc => cases hfeeding.symm.trans hpc
  | instanciateMap hpc => cases hfeeding.symm.trans hpc
  | mapsDone hpc => cases hfeeding.symm.trans hpc
  | @createEntity mapCounter j randx randy hpc _ =>
      cases hfeeding.symm.trans hpc
      refine ⟨env.tempEntity randx randy, ?_⟩
      rw [List.getElem?_modify, hv]
      simp
  | mapFed hpc hfull =>
      cases hfeeding.symm.trans hpc
      exact absurd hlt hfull
  | entitiesDone hpc hdone =>
      cases hfeeding.symm.trans hpc
      exact absurd (List.getElem?_eq_some_iff.mp hv).1 hdone
  | updateEntities hpc => cases hfeeding.symm.trans hpc

/-- Pushing an entity does not fail. -/
theorem step_ne_error_of_feeds
    {place : Nat} {vector : List Entity} {randx randy : Int} {fault : Fault}
    (hfeeds : env.pc.Feeds place)
    (hv : vectors[place]? = some vector) :
    env.step console vectors randx randy ≠ some (.error fault) := by
  obtain ⟨i, hpc, hlt⟩ := hfeeds
  have hplace : place < vectors.length := (List.getElem?_eq_some_iff.mp hv).1
  simp only [step, hpc, hplace, hlt, if_true]
  split
  · simp
  · simp

/-- No vector is longer than what is put on a map. -/
theorem StartupInv.vector_length
    (h : StartupInv nmaps env vectors)
    {place : Nat} {vector : List Entity}
    (hv : vectors[place]? = some vector) :
    vector.length ≤ maxFoodPerMap := by
  rw [h.fed place vector hv]
  have hle := h.fed_le
  cases hpc : env.pc with
  | createEntities mapCounter i =>
      have hi := hle mapCounter i hpc
      simp only [EnvPc.fed]
      split_ifs <;> omega
  | updateEntities mapCounter =>
      simp only [EnvPc.fed]
      split_ifs <;> omega
  | running => exact Nat.le_refl _
  | created => exact Nat.zero_le _
  | startUp => exact Nat.zero_le _
  | instanciateMaps i => exact Nat.zero_le _

end StepLemma

section Progress

/-- One step without a fault. -/
def advance
    (console : WinConsole) (p : Environment × List (List Entity))
    (r : Int × Int) : Option (Environment × List (List Entity)) :=
  match p.1.step console p.2 r.1 r.2 with
  | some (.ok q) => some q
  | _ => none

theorem environmentStep_of_advance
    {console : WinConsole} {p q : Environment × List (List Entity)}
    {r : Int × Int}
    (h : advance console p r = some q) :
    EnvironmentStep console p.1 p.2 q.1 q.2 := by
  unfold advance at h
  split at h
  · next hstep =>
    cases h
    exact step_cases hstep
  · cases h

/-- How far the thread is from the end of the start-up. -/
def distance (nmaps : Nat) (p : Environment × List (List Entity)) : Nat :=
  match p.1.pc with
  | .created => 0
  | .startUp => nmaps * (maxFoodPerMap + 3) + maxFoodPerMap + nmaps + 3
  | .instanciateMaps i =>
      nmaps * (maxFoodPerMap + 3) + maxFoodPerMap + 2 + (nmaps - i)
  | .createEntities mapCounter i =>
      (nmaps - mapCounter) * (maxFoodPerMap + 3) + (maxFoodPerMap + 1 - i)
  | .updateEntities mapCounter => (nmaps - mapCounter) * (maxFoodPerMap + 3)
  | .running => 0

/-- The entity stands on the cell next to the corner. -/
def AtHome (e : Entity) : Prop :=
  e.cell = (1, 1) ∧ e.prevCell = (1, 1)

/-- Every map has its place in the environment and room for an entity next to
its corner; the environment itself has no walls. -/
structure Fits
    (nmaps : Nat) (mapCount mapWidth mapHeight : Int) (base : Map) :
    Prop where
  mapCount : mapCount = nmaps
  width : 2 ≤ mapWidth
  height : 2 ≤ mapHeight
  row : nmaps * mapWidth < 2 ^ 16
  column : mapHeight < 2 ^ 16
  area : mapWidth * mapHeight < 2 ^ 31
  walls : ∀ buffer, base.startUp buffer = .ok buffer

/-- A start-up that is under way, with all entities next to the corners. -/
structure Roomy
    (nmaps : Nat) (p : Environment × List (List Entity)) : Prop where
  started : p.1.pc ≠ .created
  fits : Fits nmaps p.1.mapCount p.1.mapWidth p.1.mapHeight p.1.base
  sized : p.1.buffer.Sized
  maps : ∀ m ∈ p.1.maps, 2 ≤ m.config.width.toNat ∧ 2 ≤ m.config.height.toNat
  entities : ∀ vector ∈ p.2, ∀ e ∈ vector, AtHome e
  updating : ∀ mapCounter, p.1.pc = .updateEntities mapCounter →
    mapCounter < nmaps

variable {console : WinConsole} {env : Environment}
variable {vectors : List (List Entity)} {nmaps : Nat}

theorem toNat_ofInt
    {n : Int}
    (hlow : 0 ≤ n)
    (hhigh : n < 2 ^ 16) :
    (UInt16.ofInt n).toNat = n.toNat := by
  unfold UInt16.ofInt
  rw [Int.emod_eq_of_lt hlow hhigh]
  have hlt : n.toNat < 2 ^ 16 := by omega
  exact UInt16.toNat_ofNat_of_lt' hlt

/-- A map as wide and as high as it should be. -/
theorem exists_tempConfig
    (h : Fits nmaps env.mapCount env.mapWidth env.mapHeight env.base)
    {i : Nat}
    (hi : i < nmaps) :
    ∃ config, env.tempConfig i = .ok config ∧
      config.width.toNat = env.mapWidth.toNat ∧
      config.height.toNat = env.mapHeight.toNat := by
  have hwidth := h.width
  have hheight := h.height
  have hrow := h.row
  have hle : (i : Int) * env.mapWidth ≤ nmaps * env.mapWidth :=
    Int.mul_le_mul_of_nonneg_right (by omega) (by omega)
  have hnonneg : 0 ≤ (i : Int) * env.mapWidth :=
    Int.mul_nonneg (by omega) (by omega)
  have hone : 1 * env.mapWidth ≤ nmaps * env.mapWidth :=
    Int.mul_le_mul_of_nonneg_right (by omega) (by omega)
  have hcheck : checkInt (i * env.mapWidth) = .ok (i * env.mapWidth) :=
    checkInt_of_range (by omega) (by omega)
  have hw : (UInt16.ofInt env.mapWidth).toNat = env.mapWidth.toNat :=
    toNat_ofInt (by omega) (by omega)
  have hh : (UInt16.ofInt env.mapHeight).toNat = env.mapHeight.toNat :=
    toNat_ofInt (by omega) h.column
  unfold tempConfig
  rw [hcheck]
  exact ⟨_, rfl, hw, hh⟩

/-- What the constructor computes fits, if the environment is wide and high
enough for the number of maps. -/
theorem fits_of_make
    {config : MapConfig}
    (hpos : 1 ≤ nmaps)
    (hwide : 2 * nmaps ≤ config.width.toNat)
    (hhigh : 2 ≤ config.height.toNat)
    (hwalls : config.NoWalls)
    (h : make console config nmaps = .ok env) :
    Fits nmaps env.mapCount env.mapWidth env.mapHeight env.base ∧
      env.buffer.Sized := by
  obtain ⟨⟨base, buffer⟩, hbase, h⟩ := exists_of_bind_ok h
  have hlt : config.width.toNat < 2 ^ 16 := config.width.toNat_lt
  have hcount : Int.bmod nmaps (2 ^ 32) = nmaps :=
    Int.bmod_eq_of_le (by omega) (by omega)
  obtain ⟨buffer', hbuffer, hrest⟩ := exists_of_bind_ok hbase
  obtain ⟨base', hmap, hpair⟩ := exists_of_bind_ok hrest
  cases hpair
  have hconfig := (Map.frame_of_make hmap).1
  have hwidth : base.config.width = config.width := by
    rw [hconfig, MapConfig.clampTo_width]
  have hheight : base.config.height = config.height := by
    rw [hconfig, MapConfig.clampTo_height]
  have hclamped : base.config.NoWalls := by
    rw [hconfig]
    exact hwalls.clampTo _
  simp only [hcount, hwidth, hheight] at h
  split at h
  · cases h
  · cases h
    refine ⟨?_, (TSConsoleBuffer.sized_of_make hbuffer).1⟩
    have hdiv :
        Int.tdiv config.width.toNat nmaps = config.width.toNat / nmaps :=
      Int.tdiv_eq_ediv_of_nonneg (by omega)
    have hle : (config.width.toNat : Int) / nmaps ≤ config.width.toNat :=
      Int.ediv_le_self _ (by omega)
    have hrow :
        (nmaps : Int) * (config.width.toNat / nmaps) ≤ config.width.toNat :=
      Int.mul_ediv_self_le (by omega)
    have htwo : 2 ≤ (config.width.toNat : Int) / nmaps :=
      Int.le_ediv_of_mul_le (by omega) (by omega)
    have hcells :
        (config.width.toNat : Int) * config.height.toNat < 2 ^ 31 := by
      have hlength := base.length_lt
      rw [base.length_eq, hwidth, hheight] at hlength
      exact_mod_cast hlength
    have harea :
        (config.width.toNat : Int) / nmaps * config.height.toNat ≤
          config.width.toNat * config.height.toNat :=
      Int.mul_le_mul_of_nonneg_right hle (by omega)
    have hcolumn : config.height.toNat < 2 ^ 16 := config.height.toNat_lt
    rw [hdiv]
    show
      Fits nmaps nmaps (config.width.toNat / nmaps) config.height.toNat base
    exact
      { mapCount := rfl
        width := htwo
        height := by omega
        row := by omega
        column := by omega
        area := by omega
        walls := Map.startUp_of_noWalls hclamped }

/-- Every step comes closer to the end of the start-up. -/
theorem EnvironmentStep.distance_lt
    {env' : Environment} {vectors' : List (List Entity)}
    (hstep : EnvironmentStep console env vectors env' vectors')
    (h : StartupInv nmaps env vectors)
    (hcount : env.mapCount = nmaps)
    (hupdating : ∀ mapCounter, env.pc = .updateEntities mapCounter →
      mapCounter < nmaps) :
    distance nmaps (env', vectors') < distance nmaps (env, vectors) := by
  cases hstep with
  | startUp hpc =>
      simp only [distance, hpc]
      omega
  | instanciateMap hpc hlt =>
      simp only [distance, hpc]
      omega
  | mapsDone hpc =>
      simp only [distance, hpc, maxFoodPerMap]
      omega
  | createEntity hpc hlt =>
      simp only [distance, hpc]
      omega
  | @mapFed mapCounter i hpc hfull =>
      have hle := h.fed_le mapCounter i hpc
      simp only [distance, hpc]
      omega
  | @entitiesDone mapCounter i hpc =>
      have hle := h.fed_le mapCounter i hpc
      simp only [distance, hpc]
      omega
  | @updateEntities mapCounter _ _ _ _ hpc =>
      have hlt := hupdating mapCounter hpc
      simp only [distance, hpc, maxFoodPerMap]
      omega

/-- The first step of `m_instanciate_maps` scales the buffer. -/
theorem startUp_progress
    (h : Roomy nmaps (env, vectors))
    (hpc : env.pc = .startUp) :
    ∃ q, env.step console vectors 1 1 = some (.ok q) ∧
      Roomy nmaps q := by
  have hsize :
      env.base.config.width.toNat * env.base.config.height.toNat <
        2 ^ 31 := by
    rw [← env.base.length_eq]
    exact env.base.length_lt
  obtain ⟨buffer, hbuffer⟩ :
      ∃ buffer,
        TSConsoleBuffer.make env.base.config.width.toNat
          env.base.config.height.toNat = .ok buffer :=
    ⟨_, if_pos hsize⟩
  have hwalls : env.base.startUp env.buffer = .ok env.buffer :=
    h.fits.walls env.buffer
  refine
    ⟨({ env with buffer := buffer, pc := .instanciateMaps 0 }, vectors),
      ?_, ⟨by simp, h.fits, ?_, h.maps, h.entities, by simp⟩⟩
  · simp only [step, hpc, hwalls, hbuffer, bind_ok, pure_eq_ok]
  · exact (TSConsoleBuffer.sized_of_make hbuffer).1

/-- A round of `m_instanciate_maps` makes a map. -/
theorem instanciateMap_progress
    (hinv : StartupInv nmaps env vectors)
    (h : Roomy nmaps (env, vectors))
    {i : Nat}
    (hpc : env.pc = .instanciateMaps i) :
    ∃ q, env.step console vectors 1 1 = some (.ok q) ∧
      Roomy nmaps q := by
  have hfits :
      Fits nmaps env.mapCount env.mapWidth env.mapHeight env.base := h.fits
  have hcount := hfits.mapCount
  have hw := hfits.width
  have hh := hfits.height
  by_cases hlt : i < nmaps
  · obtain ⟨config, hconfig, hwidth, hheight⟩ := exists_tempConfig hfits hlt
    have hsize : config.width.toNat * config.height.toNat < 2 ^ 31 := by
      have harea := hfits.area
      rw [hwidth, hheight, ← Int.toNat_mul (by omega) (by omega)]
      omega
    obtain ⟨m, hmake, hm, _⟩ := Map.exists_make console (some i) hsize
    have hlt' : (i : Int) < env.mapCount := by omega
    have hvectors : i < vectors.length := by
      rw [hinv.vectors_length]
      exact hlt
    refine
      ⟨({ env with
            maps := env.maps ++ [m]
            pc := .instanciateMaps (i + 1) }, vectors),
        ?_, ⟨by simp, h.fits, h.sized, ?_, h.entities, by simp⟩⟩
    · simp only [step, hpc, hlt', hvectors, if_true, instanciateMap, hconfig,
        hmake, bind_ok, pure_eq_ok]
    · intro m' hm'
      rcases List.mem_append.mp hm' with hm' | hm'
      · exact h.maps m' hm'
      · obtain rfl := List.mem_singleton.mp hm'
        rw [hm, MapConfig.clampTo_width, MapConfig.clampTo_height, hwidth,
          hheight]
        omega
  · have hnot : ¬ (i : Int) < env.mapCount := by omega
    refine
      ⟨({ env with pc := .createEntities 0 0 }, vectors),
        ?_, ⟨by simp, h.fits, h.sized, h.maps, h.entities, by simp⟩⟩
    · simp only [step, hpc, hnot, if_false]

/-- A round of `m_create_entities` pushes an entity or ends a loop. -/
theorem createEntities_progress
    (hinv : StartupInv nmaps env vectors)
    (h : Roomy nmaps (env, vectors))
    {mapCounter i : Nat}
    (hpc : env.pc = .createEntities mapCounter i) :
    ∃ q, env.step console vectors 1 1 = some (.ok q) ∧
      Roomy nmaps q := by
  have hle := hinv.fed_le mapCounter i hpc
  have hlen := hinv.vectors_length
  by_cases hmap : mapCounter < vectors.length
  · by_cases hlt : i < maxFoodPerMap
    · have hdrawn : ∀ max, Drawn 1 max 1 := by
        intro max hmax
        exact ⟨Int.le_refl 1, Or.inr rfl⟩
      refine
        ⟨({ env with
              idCount := env.idCount + 1
              pc := .createEntities mapCounter (i + 1) },
            vectors.modify mapCounter (· ++ [env.tempEntity 1 1])),
          ?_, ⟨by simp, h.fits, h.sized, h.maps, ?_, by simp⟩⟩
      · simp only [step, hpc, hmap, hlt, if_true]
        rw [if_pos ⟨hdrawn _, hdrawn _⟩]
      · intro vector hvector e he
        obtain ⟨j, hj⟩ := List.mem_iff_getElem?.mp hvector
        rw [List.getElem?_modify] at hj
        obtain ⟨old, hold, rfl⟩ := Option.map_eq_some_iff.mp hj
        have hmem := List.mem_of_getElem? hold
        split at he
        · rcases List.mem_append.mp he with he | he
          · exact h.entities old hmem e he
          · obtain rfl := List.mem_singleton.mp he
            exact ⟨rfl, rfl⟩
        · exact h.entities old hmem e he
    · refine
        ⟨({ env with pc := .updateEntities mapCounter }, vectors),
          ?_, ⟨by simp, h.fits, h.sized, h.maps, h.entities, ?_⟩⟩
      · simp only [step, hpc, hmap, hlt, if_true, if_false]
      · intro mapCounter' hpc'
        cases hpc'
        omega
  · refine
      ⟨({ env with pc := .running }, vectors),
        ?_, ⟨by simp, h.fits, h.sized, h.maps, h.entities, by simp⟩⟩
    · simp only [step, hpc, hmap, if_false]

/-- Updating a map with its entities works. -/
theorem updateEntities_progress
    (hinv : StartupInv nmaps env vectors)
    (h : Roomy nmaps (env, vectors))
    {mapCounter : Nat}
    (hpc : env.pc = .updateEntities mapCounter) :
    ∃ q, env.step console vectors 1 1 = some (.ok q) ∧
      Roomy nmaps q := by
  have hlt : mapCounter < nmaps := h.updating mapCounter hpc
  have hmaps : env.maps.length = nmaps := by
    have hlen := hinv.maps_length
    have hcount : env.mapCount = nmaps := h.fits.mapCount
    simp only [rounds, hpc, EnvPc.rounds] at hlen
    omega
  have hvectors := hinv.vectors_length
  have hm := List.getElem?_eq_getElem (hmaps ▸ hlt)
  have hv := List.getElem?_eq_getElem (hvectors ▸ hlt)
  generalize env.maps[mapCounter] = m at hm
  generalize vectors[mapCounter] = vector at hv
  obtain ⟨hw, hh⟩ := h.maps m (List.mem_of_getElem? hm)
  have hinside : ∀ e ∈ vector, e.Inside m.config := by
    intro e he
    obtain ⟨hcell, hprev⟩ :=
      h.entities vector (List.mem_of_getElem? hv) e he
    have hcontains : m.config.Contains (1, 1) :=
      ⟨by decide, by show (1 : Int) < _; omega, by decide,
        by show (1 : Int) < _; omega⟩
    refine ⟨?_, ?_⟩
    · rw [hcell]
      exact hcontains
    · rw [hprev]
      exact hcontains
  have hshort : vector.length < 2 ^ 31 :=
    lt_of_le_of_lt (hinv.vector_length hv) (by decide)
  obtain ⟨m', buffer', hupdate, hconfig, hsized, _⟩ :=
    Map.updateEntities_refines mapCounter h.sized hinside hshort
  refine
    ⟨({ env with
          maps := env.maps.set mapCounter m'
          buffer := buffer'
          pc := .createEntities (mapCounter + 1) 0 }, vectors),
      ?_, ⟨by simp, h.fits, hsized, ?_, h.entities, by simp⟩⟩
  · simp only [step, hpc, hm, hv, hupdate, bind_ok, pure_eq_ok]
  · intro m₁ hm₁
    rcases List.mem_or_eq_of_mem_set hm₁ with hm₁ | rfl
    · exact h.maps m₁ hm₁
    · rw [hconfig]
      exact ⟨hw, hh⟩

/-- The start-up comes closer to its end with every step. -/
theorem advance_progress
    (console : WinConsole) (p : Environment × List (List Entity))
    (h : StartupInv nmaps p.1 p.2 ∧ Roomy nmaps p)
    (hgoal : ¬ p.1.pc = .running) :
    ∃ r q, advance console p r = some q ∧
      (StartupInv nmaps q.1 q.2 ∧ Roomy nmaps q) ∧
      distance nmaps q < distance nmaps p := by
  obtain ⟨hinv, hroomy⟩ := h
  obtain ⟨q, hstep, hq⟩ :
      ∃ q, p.1.step console p.2 1 1 = some (.ok q) ∧ Roomy nmaps q := by
    cases hpc : p.1.pc with
    | created => exact absurd hpc hroomy.started
    | startUp => exact startUp_progress hroomy hpc
    | instanciateMaps i => exact instanciateMap_progress hinv hroomy hpc
    | createEntities mapCounter i =>
        exact createEntities_progress hinv hroomy hpc
    | updateEntities mapCounter =>
        exact updateEntities_progress hinv hroomy hpc
    | running => exact absurd hpc hgoal
  have hcases := step_cases hstep
  have hcount : p.1.mapCount = nmaps := hroomy.fits.mapCount
  refine ⟨(1, 1), q, ?_, ⟨hcases.startupInv hinv, hq⟩, ?_⟩
  · simp only [advance, hstep]
  · exact hcases.distance_lt hinv hcount hroomy.updating

/-- A start-up that has room can be finished, and then there are all maps. -/
theorem exists_run_running
    (console : WinConsole) {p : Environment × List (List Entity)}
    (hinv : StartupInv nmaps p.1 p.2)
    (h : Roomy nmaps p) :
    ∃ rs q, run (advance console) p rs = some q ∧
      StartupInv nmaps q.1 q.2 ∧ q.1.pc = .running ∧
      q.1.maps.length = nmaps := by
  obtain ⟨rs, q, hrun, ⟨hinv', hroomy⟩, hgoal⟩ :=
    exists_run_of_progress (distance nmaps) (advance_progress console)
      ⟨hinv, h⟩
  refine ⟨rs, q, hrun, hinv', hgoal, ?_⟩
  have hcount : q.1.mapCount = nmaps := hroomy.fits.mapCount
  have hlength := hinv'.maps_length
  simp only [rounds, hgoal, EnvPc.rounds, hcount] at hlength
  exact hlength

/-- Before the first entity is placed, the thread comes to that point. -/
theorem EnvironmentStep.unfed
    {env' : Environment} {vectors' : List (List Entity)}
    (hstep : EnvironmentStep console env vectors env' vectors')
    (h : env.pc.Unfed)
    (hpc : env.pc ≠ .createEntities 0 0) :
    env'.pc.Unfed := by
  have hnot {mapCounter i : Nat}
      (hpc' : env.pc = .createEntities mapCounter i) : False := by
    rw [hpc'] at h hpc
    obtain ⟨rfl, rfl⟩ := h
    exact hpc rfl
  cases hstep with
  | startUp => trivial
  | instanciateMap => trivial
  | mapsDone => exact ⟨rfl, rfl⟩
  | createEntity hpc' => exact (hnot hpc').elim
  | mapFed hpc' => exact (hnot hpc').elim
  | entitiesDone hpc' => exact (hnot hpc').elim
  | updateEntities hpc' =>
      rw [hpc'] at h
      exact h.elim

/-- A start-up that has room comes to the point where all maps are there and
no entity is. -/
theorem exists_run_unfed
    (console : WinConsole) {p : Environment × List (List Entity)}
    (hinv : StartupInv nmaps p.1 p.2)
    (h : Roomy nmaps p)
    (hunfed : p.1.pc.Unfed) :
    ∃ rs q, run (advance console) p rs = some q ∧
      StartupInv nmaps q.1 q.2 ∧ Roomy nmaps q ∧
      q.1.pc = .createEntities 0 0 ∧ q.1.maps.length = nmaps := by
  have hprogress (p : Environment × List (List Entity))
      (hp : (StartupInv nmaps p.1 p.2 ∧ Roomy nmaps p) ∧ p.1.pc.Unfed)
      (hgoal : ¬ p.1.pc = .createEntities 0 0) :
      ∃ r q, advance console p r = some q ∧
        ((StartupInv nmaps q.1 q.2 ∧ Roomy nmaps q) ∧ q.1.pc.Unfed) ∧
        distance nmaps q < distance nmaps p := by
    have hrunning : ¬ p.1.pc = .running := by
      intro hpc
      have hfed := hp.2
      rw [hpc] at hfed
      exact hfed
    obtain ⟨r, q, hadvance, hq, hlt⟩ :=
      advance_progress console p hp.1 hrunning
    exact
      ⟨r, q, hadvance,
        ⟨hq, (environmentStep_of_advance hadvance).unfed hp.2 hgoal⟩, hlt⟩
  obtain ⟨rs, q, hrun, ⟨⟨hinv', hroomy⟩, _⟩, hgoal⟩ :=
    exists_run_of_progress (distance nmaps) hprogress ⟨⟨hinv, h⟩, hunfed⟩
  refine ⟨rs, q, hrun, hinv', hroomy, hgoal, ?_⟩
  have hcount : q.1.mapCount = nmaps := hroomy.fits.mapCount
  have hlength := hinv'.maps_length
  simp only [rounds, hgoal, EnvPc.rounds, hcount] at hlength
  exact hlength

end Progress

end Environment

end SpeciesSimulator
