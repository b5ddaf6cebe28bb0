import SpeciesSimulator.Map

/-!
# The environment

The class `Environment`: a map whose thread builds the maps of the clients and
fills the entity vectors of the server.  The thread runs concurrently with
everything else, so `run` is a state machine: a step is one round of a loop or
one statement between two loops, and `EnvPc` says which one comes next.

Drawing a random position is an input of the step.  The threads that keep the
maps up to date afterwards are left out; they change grids and buffers only.

Main fact: `step_cases`, what a step without a fault does.
-/

namespace SpeciesSimulator

def maxFoodPerMap : Nat := 500

/-- The next statement of `Environment::run`. -/
inductive EnvPc where
  | created
  | startUp
  | instanciateMaps (i : Nat)
  | createEntities (mapCounter i : Nat)
  | updateEntities (mapCounter : Nat)
  | running
deriving DecidableEq

structure Environment where
  base : Map
  buffer : TSConsoleBuffer
  mapWidth : Int
  mapHeight : Int
  mapCount : Int
  idCount : UInt64 := 0
  maps : List Map := []
  pc : EnvPc := .created

namespace Environment

/-- The constructor; the number of maps is converted to `int`. -/
def make
    (console : WinConsole) (config : MapConfig) (nmaps : Nat) :
    Except Fault Environment := do
  let (base, buffer) ← Map.makeWithBuffer console config none
  let mapCount := Int.bmod nmaps (2 ^ 32)
  if mapCount = 0 then .error .divisionByZero
  else
    pure
      { base := base
        buffer := buffer
        mapWidth := Int.tdiv base.config.width.toNat mapCount
        mapHeight := base.config.height.toNat
        mapCount := mapCount }

/-- A number that `rand` can return: drawn from `[min, max)` and truncated. -/
def Drawn (min max r : Int) : Prop :=
  min ≤ max → min ≤ r ∧ (r < max ∨ r = min)

instance (min max r : Int) : Decidable (Drawn min max r) :=
  inferInstanceAs (Decidable (_ → _))

/-- The configuration of the `i`-th map. -/
def tempConfig (env : Environment) (i : Nat) : Except Fault MapConfig := do
  let x ← checkInt (i * env.mapWidth)
  pure
    { x := UInt16.ofInt x
      y := 0
      width := UInt16.ofInt env.mapWidth
      height := UInt16.ofInt env.mapHeight
      wallOne := MapType.bottomWall.code
      wallTwo := MapType.topWall.code
      wallThree :=
        if 0 < i % 2 then MapType.rightWall.code
        else MapType.leftWall.code }

/-- One round of the loop of `m_instanciate_maps`. -/
def instanciateMap (env : Environment) (console : WinConsole) (i : Nat) :
    Except Fault Environment := do
  let config ← env.tempConfig i
  let map ← Map.make console config (some i)
  pure { env with maps := env.maps ++ [map], pc := .instanciateMaps (i + 1) }

/-- The entity that `m_create_entities` places next. -/
def tempEntity (env : Environment) (randx randy : Int) : Entity where
  id := env.idCount
  x := UInt16.ofInt randx
  y := UInt16.ofInt randy
  char := .food
  type := .food

/-- The next step of the environment's thread, which also changes the entity
vectors; there is none before the thread starts and after it is done. -/
def step
    (env : Environment) (console : WinConsole)
    (vectors : List (List Entity)) (randx randy : Int) :
    Option (Except Fault (Environment × List (List Entity))) :=
  match env.pc with
  | .created => none
  | .startUp =>
      some do
        let _ ← env.base.startUp env.buffer
        let buffer ←
          TSConsoleBuffer.make env.base.config.width.toNat
            env.base.config.height.toNat
        pure ({ env with buffer := buffer, pc := .instanciateMaps 0 }, vectors)
  | .instanciateMaps i =>
      if (i : Int) < env.mapCount then
        if i < vectors.length then
          some do
            let env' ← env.instanciateMap console i
            pure (env', vectors)
        else
          some (.error .outOfRange)
      else
        some (.ok ({ env with pc := .createEntities 0 0 }, vectors))
  | .createEntities mapCounter i =>
      if mapCounter < vectors.length then
        if i < maxFoodPerMap then
          if Drawn 1 (env.mapWidth - 1) randx ∧
              Drawn 1 (env.mapHeight - 1) randy then
            some
              (.ok
                ({ env with
                    idCount := env.idCount + 1
                    pc := .createEntities mapCounter (i + 1) },
                  vectors.modify mapCounter
                    (· ++ [env.tempEntity randx randy])))
          else none
        else
          some (.ok ({ env with pc := .updateEntities mapCounter }, vectors))
      else
        some (.ok ({ env with pc := .running }, vectors))
  | .updateEntities mapCounter =>
      match env.maps[mapCounter]?, vectors[mapCounter]? with
      | some map, some vector =>
          some do
            let (map', buffer') ←
              map.updateEntities mapCounter vector env.buffer
            pure
              ({ env with
                  maps := env.maps.set mapCounter map'
                  buffer := buffer'
                  pc := .createEntities (mapCounter + 1) 0 },
                vectors)
      | _, _ => some (.error .outOfRange)
  | .running => none

section Inversion

variable {console : WinConsole}

/-- What a step of the environment's thread does. -/
inductive EnvironmentStep
    (console : WinConsole) (env : Environment)
    (vectors : List (List Entity)) :
    Environment → List (List Entity) → Prop
  | startUp {buffer : TSConsoleBuffer}
      (hpc : env.pc = .startUp) :
      EnvironmentStep console env vectors
        { env with buffer := buffer, pc := .instanciateMaps 0 } vectors
  | instanciateMap {i : Nat} {config : MapConfig} {map : Map}
      (hpc : env.pc = .instanciateMaps i)
      (hlt : (i : Int) < env.mapCount)
      (hmake : Map.make console config (some i) = .ok map) :
      EnvironmentStep console env vectors
        { env with
          maps := env.maps ++ [map]
          pc := .instanciateMaps (i + 1) } vectors
  | mapsDone {i : Nat}
      (hpc : env.pc = .instanciateMaps i)
      (hdone : ¬ (i : Int) < env.mapCount) :
      EnvironmentStep console env vectors
        { env with pc := .createEntities 0 0 } vectors
  | createEntity {mapCounter i : Nat} {randx randy : Int}
      (hpc : env.pc = .createEntities mapCounter i)
      (hlt : i < maxFoodPerMap) :
      EnvironmentStep console env vectors
        { env with
          idCount := env.idCount + 1
          pc := .createEntities mapCounter (i + 1) }
        (vectors.modify mapCounter (· ++ [env.tempEntity randx randy]))
  | mapFed {mapCounter i : Nat}
      (hpc : env.pc = .createEntities mapCounter i)
      (hfull : ¬ i < maxFoodPerMap) :
      EnvironmentStep console env vectors
        { env with pc := .updateEntities mapCounter } vectors
  | entitiesDone {mapCounter i : Nat}
      (hpc : env.pc = .createEntities mapCounter i)
      (hdone : ¬ mapCounter < vectors.length) :
      EnvironmentStep console env vectors
        { env with pc := .running } vectors
  | updateEntities {mapCounter : Nat} {map map' : Map}
      {vector : List Entity} {buffer : TSConsoleBuffer}
      (hpc : env.pc = .updateEntities mapCounter)
      (hupdate :
        map.updateEntities mapCounter vector env.buffer =
          .ok (map', buffer)) :
      EnvironmentStep console env vectors
        { env with
          maps := env.maps.set mapCounter map'
          buffer := buffer
          pc := .createEntities (mapCounter + 1) 0 } vectors

theorem step_cases
    {env env' : Environment} {vectors vectors' : List (List Entity)}
    {randx randy : Int}
    (hstep :
      env.step console vectors randx randy = some (.ok (env', vectors'))) :
    EnvironmentStep console env vectors env' vectors' := by
  unfold step at hstep
  split at hstep
  · cases hstep
  · next hpc =>
    obtain ⟨_, _, hrest⟩ := exists_of_bind_ok (Option.some.inj hstep)
    obtain ⟨buffer, _, hrest⟩ := exists_of_bind_ok hrest
    cases hrest
    exact .startUp hpc
  · next i hpc =>
    split at hstep
    · next hlt =>
      split at hstep
      · obtain ⟨env₁, hmap, hrest⟩ :=
          exists_of_bind_ok (Option.some.inj hstep)
        obtain ⟨config, _, hmap⟩ := exists_of_bind_ok hmap
        obtain ⟨map, hmake, hmap⟩ := exists_of_bind_ok hmap
        cases hmap
        cases hrest
        exact .instanciateMap hpc hlt hmake
      · cases hstep
    · next hdone =>
      cases hstep
      exact .mapsDone hpc hdone
  · next mapCounter i hpc =>
    split at hstep
    · split at hstep
      · next hlt =>
        split at hstep
        · cases hstep
          exact .createEntity hpc hlt
        · cases hstep
      · next hfull =>
        cases hstep
        exact .mapFed hpc hfull
    · next hdone =>
      cases hstep
      exact .entitiesDone hpc hdone
  · next mapCounter hpc =>
    split at hstep
    · obtain ⟨⟨map', buffer⟩, hupdate, hrest⟩ :=
        exists_of_bind_ok (Option.some.inj hstep)
      cases hrest
      exact .updateEntities hpc hupdate
    · cases hstep
  · cases hstep

end Inversion

end Environment

end SpeciesSimulator
