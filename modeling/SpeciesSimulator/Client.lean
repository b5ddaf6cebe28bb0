import Mathlib.Data.List.TakeDrop
import SpeciesSimulator.Lib.Transition
import SpeciesSimulator.ClientMap
import SpeciesSimulator.MapWrap

/-!
# Clients

The class `Client`.  `m_start` takes messages from the queue until start-up is
complete: as long as the connection is up and a message is there, an iteration
of its loop processes one, otherwise it does nothing.  Three of its four flags
are not initialised.

The io thread pushes messages at any time, so `Starting` is a transition
system in which messages come in and the loop iterates, in any order.
-/

namespace SpeciesSimulator

open ByteLayout Transition

structure Client where
  startupOkay : Bool := false
  consoleLayout : WinConsoleLayout := {}
  console : WinConsole
  mapConfig : MapConfig := {}
  map : Option ClientMap := none
  entBuffer : List Entity := []
  nentitiesSize : UInt64 := 0
  entities : List Entity := []

/-- The local variables of `m_start`. -/
structure StartFlags where
  gotConsole : Bool
  gotMap : Bool
  gotEntitiesSize : Bool
  gotEntities : Bool := false
deriving DecidableEq

namespace Client

/-- The address of `m_entities`. -/
def entitiesAddress : VecPtr := 0

/-- The constructor. -/
def make : Client where
  console :=
    { layout :=
        { nxpos := 0
          nypos := 0
          nScreenWidth := 60
          nScreenHeight := 30
          fontw := 8
          fonth := 16 } }

section Messages

/-- `msg >> m_console_layout`, with space for stats. -/
def onConsoleLayout (c : Client) (msg : Message MessageType) :
    Except Fault Client := do
  let (layout, _) ← orWild (msg.extract WinConsoleLayout)
  let layout := { layout with nScreenHeight := layout.nScreenHeight + 5 }
  pure
    { c with
      consoleLayout := layout
      console := c.console.createConsole layout }

/-- `msg >> m_map_config`, then a new map. -/
def onMapLayout (c : Client) (msg : Message MessageType) :
    Except Fault Client := do
  let (config, _) ← orWild (msg.extract MapConfig)
  let map ← ClientMap.make c.console config entitiesAddress
  pure { c with mapConfig := config, map := some map }

/-- `sizeof(HelperType<Entity>)`: an entity with a mutex of its own, of eight
bytes. -/
def helperSize : Nat :=
  8 + byteSize Entity

/-- `resize` of a vector whose elements have so many bytes. -/
def resize (elementSize : Nat) (entities : List Entity) (size : UInt64) :
    Except Fault (List Entity) :=
  if elementSize * size.toNat < 2 ^ 63 then
    .ok (entities.takeD size.toNat default)
  else
    .error .lengthError

/-- `msg >> m_nentities_size`, then room for the entities. -/
def onEntitiesSize (c : Client) (msg : Message MessageType) :
    Except Fault Client := do
  let (size, _) ← orWild (msg.extract UInt64)
  let entities ← resize helperSize c.entities size
  let entBuffer ← resize (byteSize Entity) c.entBuffer size
  pure
    { c with
      nentitiesSize := size
      entities := entities
      entBuffer := entBuffer }

/-- `pull_complex` into the buffer, which has to have room; then
`m_entities = m_ent_buffer`, with a counter of type `unsigned int`. -/
def pullEntities (c : Client) (msg : Message MessageType) :
    Except Fault Client := do
  let (pulled, _) ← orWild (msg.pullComplex Entity c.nentitiesSize.toNat)
  if pulled.length ≤ c.entBuffer.length then
    let entBuffer := pulled ++ c.entBuffer.drop pulled.length
    if entBuffer.length < 2 ^ 32 then
      pure { c with entBuffer := entBuffer, entities := entBuffer }
    else
      .error .endlessLoop
  else
    .error .wildAccess

/-- `m_map->update_entities(&m_entities)`.  An overflow does not end the
process. -/
def updateMap (c : Client) : Except Fault Client :=
  match c.map with
  | none => .error .nullPointer
  | some cm => do
      let (map, buffer) ←
        cm.map.updateEntitiesWrapped entitiesAddress c.entities cm.buffer
      pure { c with map := some { cm with map := map, buffer := buffer } }

/-- The switch of `m_start`. -/
def startMessage (s : Client × StartFlags) (msg : Message MessageType) :
    Except Fault (Client × StartFlags) :=
  let (c, flags) := s
  match msg.header.id with
  | .sendMapConsoleLayout => do
      let c ← c.onConsoleLayout msg
      pure (c, { flags with gotConsole := true })
  | .sendMapLayout => do
      let c ← c.onMapLayout msg
      pure (c, { flags with gotMap := true })
  | .sendEntitiesSize => do
      let c ← c.onEntitiesSize msg
      pure (c, { flags with gotEntitiesSize := true })
  | .sendEntities => do
      let c ← c.pullEntities msg
      let c ← c.updateMap
      let flags := { flags with gotEntities := true }
      if flags.gotConsole ∧ flags.gotMap ∧ flags.gotEntitiesSize ∧
          flags.gotEntities then
        pure ({ c with startupOkay := true }, flags)
      else
        pure (c, flags)
  | _ => .ok (c, flags)

/-- `on_message`, once `m_start` has returned. -/
def onMessage (c : Client) (msg : Message MessageType) :
    Except Fault Client :=
  match msg.header.id with
  | .sendEntities => c.pullEntities msg
  | _ => .ok c

end Messages

end Client

/-- A client in `m_start`, with the messages that came in. -/
structure Starting where
  client : Client
  flags : StartFlags
  incoming : List (Message MessageType) := []
  fault : Option Fault := none

/-- A message comes in, or the loop of `m_start` goes round once, finding the
connection up or not. -/
inductive StartEvent where
  | push (msg : Message MessageType)
  | iterate (connected : Bool)

namespace Starting

def step (s : Starting) : StartEvent → Option Starting
  | .push msg => some { s with incoming := s.incoming ++ [msg] }
  | .iterate connected =>
      if s.client.startupOkay ∨ s.fault.isSome then none
      else if connected then
        match s.incoming with
        | [] => some s
        | msg :: rest =>
            match Client.startMessage (s.client, s.flags) msg with
            | .ok (client, flags) =>
                some
                  { s with
                    client := client
                    flags := flags
                    incoming := rest }
            | .error fault =>
                some { s with incoming := rest, fault := some fault }
      else some s

/-- The messages that came in during a run. -/
def arrivals (es : List StartEvent) : List (Message MessageType) :=
  es.filterMap fun
    | .push msg => some msg
    | .iterate _ => none

/-- `m_start` of a client whose connection has just been asked for. -/
def start (flags : StartFlags) : Starting where
  client := Client.make
  flags := { flags with gotEntities := false }

end Starting

end SpeciesSimulator
