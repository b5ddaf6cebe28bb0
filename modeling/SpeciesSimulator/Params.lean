import SpeciesSimulator.Lib.ByteLayout

/-!
# Parameters shared by server and client

The enumerations and records of `Params.h`.  Server and client exchange them
as raw bytes, so an enumeration with a fixed underlying type has, besides its
named values, every other value of that type: a byte received from the network
need not be a named one.

The records are laid out as the compiler lays them out: members in order, no
padding between 16-bit members.
-/

namespace SpeciesSimulator

open ByteLayout

section Enumerations

/-- Message header type. -/
inductive MessageType where
  | clientAssigneID
  | clientRegisterWithServer
  | clientUnregisterWithServer
  | serverGetStatus
  | serverGetPing
  | serverMessage
  | serverAccept
  | serverDenial
  | serverPing
  | sendMapConsoleLayout
  | sendMapLayout
  | sendEntitiesSize
  | sendEntities
  | unnamed (k : Fin 243)
deriving DecidableEq

namespace MessageType

/-- Underlying `uint8_t` value. -/
def toByte : MessageType → UInt8
  | clientAssigneID => 0
  | clientRegisterWithServer => 1
  | clientUnregisterWithServer => 2
  | serverGetStatus => 3
  | serverGetPing => 4
  | serverMessage => 5
  | serverAccept => 6
  | serverDenial => 7
  | serverPing => 8
  | sendMapConsoleLayout => 9
  | sendMapLayout => 10
  | sendEntitiesSize => 11
  | sendEntities => 12
  | unnamed k => UInt8.ofNat (k.val + 13)

/-- The value a received byte stands for. -/
def ofByte (b : UInt8) : MessageType :=
  if h : 13 ≤ b.toNat then
    unnamed ⟨b.toNat - 13, by have := b.toNat_lt; omega⟩
  else
    match b.toNat with
    | 0 => clientAssigneID
    | 1 => clientRegisterWithServer
    | 2 => clientUnregisterWithServer
    | 3 => serverGetStatus
    | 4 => serverGetPing
    | 5 => serverMessage
    | 6 => serverAccept
    | 7 => serverDenial
    | 8 => serverPing
    | 9 => sendMapConsoleLayout
    | 10 => sendMapLayout
    | 11 => sendEntitiesSize
    | _ => sendEntities

theorem ofByte_toByte (t : MessageType) :
    ofByte (toByte t) = t := by
  cases t with
  | unnamed k =>
      have hk : (k.val + 13) % 256 = k.val + 13 := by
        have := k.isLt
        omega
      simp [ofByte, toByte, hk]
  | _ => rfl

instance : Inhabited MessageType where
  default := clientAssigneID

instance : Layout MessageType :=
  Layout.retract toByte ofByte ofByte_toByte

end MessageType

/-- Type used by a map for its walls. -/
inductive MapType where
  | noWalls
  | rightWall
  | leftWall
  | topWall
  | bottomWall
  | hasFill
deriving DecidableEq

namespace MapType

/-- Value stored in the 16-bit wall fields of a map configuration. -/
def code : MapType → UInt16
  | noWalls => 0
  | rightWall => 1
  | leftWall => 2
  | topWall => 3
  | bottomWall => 4
  | hasFill => 5

/-- The enumerator a wall field holds, if it holds one. -/
def ofCode (c : UInt16) : Option MapType :=
  [noWalls, rightWall, leftWall, topWall, bottomWall, hasFill].find?
    fun t => t.code = c

end MapType

/-- Type of entity. -/
inductive EntityType where
  | entity
  | gameobject
  | food
  | wall
  | area
  | deathzone
  | farmzone
  | playerobject
  | unnamed (k : Fin 248)
deriving DecidableEq

namespace EntityType

/-- Underlying `uint8_t` value. -/
def toByte : EntityType → UInt8
  | entity => 0
  | gameobject => 1
  | food => 2
  | wall => 3
  | area => 4
  | deathzone => 5
  | farmzone => 6
  | playerobject => 7
  | unnamed k => UInt8.ofNat (k.val + 8)

/-- The value a received byte stands for. -/
def ofByte (b : UInt8) : EntityType :=
  if h : 8 ≤ b.toNat then
    unnamed ⟨b.toNat - 8, by have := b.toNat_lt; omega⟩
  else
    match b.toNat with
    | 0 => entity
    | 1 => gameobject
    | 2 => food
    | 3 => wall
    | 4 => area
    | 5 => deathzone
    | 6 => farmzone
    | _ => playerobject

theorem ofByte_toByte (t : EntityType) :
    ofByte (toByte t) = t := by
  cases t with
  | unnamed k =>
      have hk : (k.val + 8) % 256 = k.val + 8 := by
        have := k.isLt
        omega
      simp [ofByte, toByte, hk]
  | _ => rfl

instance : Layout EntityType :=
  Layout.retract toByte ofByte ofByte_toByte

end EntityType

/-- Type of entity style; the value is the character that is drawn. -/
inductive EntityStyle where
  | empty
  | food
  | player
  | unnamed (b : {b : UInt8 // b ≠ 0 ∧ b ≠ 46 ∧ b ≠ 35})
deriving DecidableEq

namespace EntityStyle

/-- Underlying `uint8_t` value. -/
def toByte : EntityStyle → UInt8
  | empty => 0
  | food => 46
  | player => 35
  | unnamed b => b.val

/-- The value a received byte stands for. -/
def ofByte (b : UInt8) : EntityStyle :=
  if h : b ≠ 0 ∧ b ≠ 46 ∧ b ≠ 35 then
    unnamed ⟨b, h⟩
  else if b = 46 then
    food
  else if b = 35 then
    player
  else
    empty

theorem ofByte_toByte (t : EntityStyle) :
    ofByte (toByte t) = t := by
  cases t with
  | unnamed b =>
      simp [ofByte, toByte, b.property.1, b.property.2.1, b.property.2.2]
  | _ => rfl

instance : Layout EntityStyle :=
  Layout.retract toByte ofByte ofByte_toByte

end EntityStyle

end Enumerations

section Records

/-- Position, size and font of a console window. -/
structure WinConsoleLayout where
  nxpos : UInt16 := 0
  nypos : UInt16 := 0
  nScreenWidth : UInt16 := 60
  nScreenHeight : UInt16 := 60
  fontw : UInt16 := 8
  fonth : UInt16 := 16
deriving DecidableEq

instance : Layout WinConsoleLayout :=
  Layout.retract
    (fun l =>
      (l.nxpos, l.nypos, l.nScreenWidth, l.nScreenHeight, l.fontw, l.fonth))
    (fun
      | (xpos, ypos, width, height, fontw, fonth) =>
          ⟨xpos, ypos, width, height, fontw, fonth⟩)
    (fun _ => rfl)

/-- Offset, size and walls of a map; the walls are converted to `MapType`. -/
structure MapConfig where
  x : UInt16 := 0
  y : UInt16 := 0
  width : UInt16 := 0
  height : UInt16 := 0
  wallOne : UInt16 := 0
  wallTwo : UInt16 := 0
  wallThree : UInt16 := 0
  wallFour : UInt16 := 0
deriving DecidableEq

instance : Layout MapConfig :=
  Layout.retract
    (fun c =>
      (c.x, c.y, c.width, c.height,
        c.wallOne, c.wallTwo, c.wallThree, c.wallFour))
    (fun
      | (x, y, width, height, one, two, three, four) =>
          ⟨x, y, width, height, one, two, three, four⟩)
    (fun _ => rfl)

end Records

end SpeciesSimulator
