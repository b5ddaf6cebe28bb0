import SpeciesSimulator.Entity
import SpeciesSimulator.WinConsole

/-!
# Maps

The class `Map`: a grid with one cell for every position, each empty or
holding a copy of an entity, and the place of the map in a console buffer.
The buffer may be shared by several maps, so the functions that draw take it
and give it back.

Positions and velocities are 16-bit unsigned and are promoted to `int`, whose
overflow has no result; `at` takes the index as a `size_t`, so that a negative
one is out of range like one that is too large.

A map carries the proof that its grid has the size the constructor gave it.
-/

namespace SpeciesSimulator

/-- A vector of entities that a map shows, by its place. -/
abbrev VecPtr := Nat

structure Map where
  config : MapConfig
  conLay : WinConsoleLayout
  entitiesExternal : Option VecPtr
  entitiesInternalMap : List (Option Entity)
  length_eq :
    entitiesInternalMap.length = config.width.toNat * config.height.toNat
  length_lt : entitiesInternalMap.length < 2 ^ 31

namespace Entity

/-- Where an entity is. -/
def cell (e : Entity) : Int × Int :=
  (e.x.toNat, e.y.toNat)

/-- Where an entity was before its last move. -/
def prevCell (e : Entity) : Int × Int :=
  ((e.x.toNat : Int) - e.veloX.toNat, (e.y.toNat : Int) - e.veloY.toNat)

end Entity

namespace MapConfig

/-- Move an offset that leaves the console. -/
def clampTo (config : MapConfig) (layout : WinConsoleLayout) : MapConfig :=
  let config :=
    if layout.nScreenWidth.toNat < config.width.toNat + config.x.toNat then
      { config with x := layout.nScreenWidth - config.width }
    else config
  if layout.nScreenHeight.toNat < config.height.toNat + config.y.toNat then
    { config with y := layout.nScreenHeight - config.height }
  else config

@[simp] theorem clampTo_width
    (config : MapConfig) (layout : WinConsoleLayout) :
    (config.clampTo layout).width = config.width := by
  simp only [clampTo]
  split <;> split <;> rfl

@[simp] theorem clampTo_height
    (config : MapConfig) (layout : WinConsoleLayout) :
    (config.clampTo layout).height = config.height := by
  simp only [clampTo]
  split <;> split <;> rfl

/-- Index of a cell, computed with `int`. -/
def index (config : MapConfig) (cell : Int × Int) : Except Fault Int := do
  let row ← checkInt (cell.2 * config.width.toNat)
  checkInt (row + cell.1)

/-- The cell is one of the map. -/
def Contains (config : MapConfig) (cell : Int × Int) : Prop :=
  0 ≤ cell.1 ∧ cell.1 < config.width.toNat ∧
    0 ≤ cell.2 ∧ cell.2 < config.height.toNat

instance (config : MapConfig) (cell : Int × Int) :
    Decidable (config.Contains cell) :=
  inferInstanceAs (Decidable (_ ∧ _))

end MapConfig

namespace Map

section Construction

/-- The constructor that is given a buffer. -/
def make (console : WinConsole) (config : MapConfig) (vecptr : Option VecPtr) :
    Except Fault Map :=
  if h : config.width.toNat * config.height.toNat < 2 ^ 31 then
    .ok
      { config := config.clampTo console.layout
        conLay :=
          { nScreenWidth := config.width
            nScreenHeight := config.height }
        entitiesExternal := vecptr
        entitiesInternalMap :=
          List.replicate (config.width.toNat * config.height.toNat) none
        length_eq := by simp
        length_lt := by simpa using h }
  else
    .error .overflow

/-- The constructor that makes its own buffer. -/
def makeWithBuffer
    (console : WinConsole) (config : MapConfig) (vecptr : Option VecPtr) :
    Except Fault (Map × TSConsoleBuffer) := do
  let buffer ← TSConsoleBuffer.make config.width.toNat config.height.toNat
  let map ← make console config vecptr
  pure (map, buffer)

end Construction

section Grid

/-- Replace the content of one cell. -/
def setCell (m : Map) (i : Nat) (entity : Option Entity) : Map :=
  { m with
    entitiesInternalMap := m.entitiesInternalMap.set i entity
    length_eq := by rw [List.length_set]; exact m.length_eq
    length_lt := by rw [List.length_set]; exact m.length_lt }

/-- `m_entities_internal_map.at(i)`. -/
def gridAt (m : Map) (i : Int) : Except Fault Nat :=
  if 0 ≤ i ∧ i < m.entitiesInternalMap.length then
    .ok i.toNat
  else
    .error .outOfRange

/-- Delete an entity at its previous position, write it to the new one. -/
def placeEntity (m : Map) (e : Entity) : Except Fault Map := do
  let prev ← m.config.index e.prevCell
  let prevPos ← m.gridAt prev
  let pos ← m.config.index e.cell
  let newPos ← m.gridAt pos
  pure ((m.setCell prevPos none).setCell newPos (some e))

/-- The loop of `update_entities`, with a counter of type `int`. -/
def placeEntities (m : Map) (newEntities : List Entity) :
    Except Fault Map := do
  let m' ← newEntities.foldlM placeEntity m
  if newEntities.length < 2 ^ 31 then pure m' else .error .overflow

/-- Draw one cell of the grid. -/
def renderCell (m : Map) (buffer : TSConsoleBuffer) :
    Option Entity → Except Fault TSConsoleBuffer
  | some e =>
      buffer.writeCharacter (e.x.toNat + m.config.x.toNat)
        (e.y.toNat + m.config.y.toNat) e.char.toByte
  | none => .ok buffer

/-- Draw every entity of the grid into the buffer. -/
def render (m : Map) (buffer : TSConsoleBuffer) :
    Except Fault TSConsoleBuffer :=
  m.entitiesInternalMap.foldlM m.renderCell buffer

def updateEntities
    (m : Map) (vecptr : VecPtr) (newEntities : List Entity)
    (buffer : TSConsoleBuffer) :
    Except Fault (Map × TSConsoleBuffer) := do
  let m' ← placeEntities { m with entitiesExternal := some vecptr } newEntities
  let buffer' ← m'.render buffer
  pure (m', buffer')

/-- The index is computed with `size_t`. -/
def checkPos (m : Map) (x y : Nat) : Except Fault (Option Entity) :=
  let pos := (y * m.config.width.toNat + x) % 2 ^ 64
  match m.entitiesInternalMap[pos]? with
  | some entity => .ok entity
  | none => .error .outOfRange

end Grid

section Walls

/-- Draw a line between two points of a row or of a column. -/
def drawLine
    (m : Map) (x y w h : Int) (symb : UInt8) (buffer : TSConsoleBuffer) :
    Except Fault TSConsoleBuffer := do
  let x := if w < x then w else x
  let y := if h < y then h else y
  let y := if x ≠ w ∧ y ≠ h then h else y
  let difX ← checkInt (w - x)
  let difY ← checkInt (h - y)
  let difX ←
    if (m.config.width.toNat : Int) - 1 < x + difX then
      checkInt ((m.config.width.toNat : Int) - 1 - x)
    else pure difX
  let difY ←
    if (m.config.height.toNat : Int) - 1 < y + difY then
      checkInt ((m.config.height.toNat : Int) - 1 - y)
    else pure difY
  let countX ← checkInt (difX + 1)
  let countY ← checkInt (difY + 1)
  let buffer ←
    (List.range countX.toNat).foldlM
      (fun buffer r => do
        let xpos ← checkInt (x + r + m.config.x.toNat)
        let ypos ← checkInt (y + m.config.y.toNat)
        buffer.writeCharacter (toSize xpos) (toSize ypos) symb)
      buffer
  (List.range countY.toNat).foldlM
    (fun buffer c => do
      let xpos ← checkInt (x + m.config.x.toNat)
      let ypos ← checkInt (y + c + m.config.y.toNat)
      buffer.writeCharacter (toSize xpos) (toSize ypos) symb)
    buffer

/-- Draw the wall that one of the four wall fields asks for. -/
def drawWall (m : Map) (buffer : TSConsoleBuffer) (wall : UInt16) :
    Except Fault TSConsoleBuffer :=
  let right : Int := (m.config.width.toNat : Int) - 1
  let bottom : Int := (m.config.height.toNat : Int) - 1
  match MapType.ofCode wall with
  | some .rightWall => m.drawLine right 0 right bottom 124 buffer
  | some .leftWall => m.drawLine 0 0 0 bottom 124 buffer
  | some .topWall => m.drawLine 0 0 right 0 45 buffer
  | some .bottomWall => m.drawLine 0 bottom right bottom 45 buffer
  | some .noWalls => .ok buffer
  | some .hasFill => .ok buffer
  | none => .ok buffer

def drawWalls (m : Map) (buffer : TSConsoleBuffer) :
    Except Fault TSConsoleBuffer :=
  [m.config.wallOne, m.config.wallTwo, m.config.wallThree,
    m.config.wallFour].foldlM m.drawWall buffer

def startUp (m : Map) (buffer : TSConsoleBuffer) :
    Except Fault TSConsoleBuffer :=
  m.drawWalls buffer

end Walls

end Map

end SpeciesSimulator
