import SpeciesSimulator.MapPainting
import SpeciesSimulator.ServerWorld

/-!
# The threads of the maps

Once the environment is running, `Environment::run` starts a thread for each of
its maps.  The thread draws the walls of the map and then, whenever it wakes up,
updates the map with its vector and draws the entities again.  It waits without
a condition, so it may wake up for no reason at any time; nobody changes the
vectors any more, so nobody notifies it.  All threads draw into one buffer, one
call of `write_character` at a time, while the other threads of the server go on.

Main facts:
* `step_setBuffer`: once its environment is running, the server does not look at the
  buffer;
* `DrawsInv.settled`, `DrawsInv.board`: the maps of a running environment have been
  updated with their vectors; they are side by side, and no food is at a wall.
-/

namespace SpeciesSimulator

open ListSlots Transition

/-- A server process with the threads of the maps.  Of each thread, the calls of
`write_character` that it makes before it waits for its entities to change. -/
structure ServerProcess where
  server : Server
  mapThreads : List (List TSConsoleBuffer.Write) := []

/-- What can happen next in a server process, threads of maps included. -/
inductive ProcessEvent where
  | server (e : ServerEvent)
  | startThread
  | write (i : Nat)
  | wakeUp (i : Nat)

namespace Server

/-- Something was drawn into the buffer of the environment. -/
def setBuffer (s : Server) (b : TSConsoleBuffer) : Server :=
  { s with environment := { s.environment with buffer := b } }

def setMap (s : Server) (i : Nat) (map : Map) : Server :=
  { s with
    environment := { s.environment with maps := s.environment.maps.set i map } }

end Server

namespace ServerProcess

section Model

/-- The loop at the end of `Environment::run` starts the next thread, which calls
`start_up`. -/
def startThread (p : ServerProcess) : Option ServerProcess :=
  if p.server.environment.pc = .running then
    match p.server.environment.maps[p.mapThreads.length]? with
    | some map =>
        some
          { p with
            mapThreads := p.mapThreads ++ [Map.startUpWrites map.config] }
    | none => none
  else none

/-- The next call of `write_character` of a thread. -/
def write (p : ServerProcess) (i : Nat) : Option ServerProcess :=
  match p.mapThreads[i]? with
  | some (w :: ws) =>
      match p.server.environment.buffer.write w with
      | .ok b =>
          some
            { server := p.server.setBuffer b
              mapThreads := p.mapThreads.set i ws }
      | .error fault => some { p with server := p.server.fail fault }
  | _ => none

/-- `Map::run`, from where it wakes up. -/
def wakeUp (p : ServerProcess) (i : Nat) : Option ServerProcess :=
  match p.mapThreads[i]?, p.server.environment.maps[i]? with
  | some [], some map =>
      match map.entitiesExternal with
      | none => some { p with server := p.server.fail .nullPointer }
      | some vecptr =>
          match p.server.incommingEntities[vecptr]? with
          | none => some { p with server := p.server.fail .wildAccess }
          | some vector =>
              match
                Map.placeEntities { map with entitiesExternal := some vecptr }
                  vector
              with
              | .ok map' =>
                  some
                    { server := p.server.setMap i map'
                      mapThreads := p.mapThreads.set i map'.renderWrites }
              | .error fault => some { p with server := p.server.fail fault }
  | _, _ => none

def step (p : ServerProcess) : ProcessEvent → Option ServerProcess
  | .server e =>
      match p.server.step e with
      | some s => some { p with server := s }
      | none => none
  | .startThread => if p.server.crash.isSome then none else p.startThread
  | .write i => if p.server.crash.isSome then none else p.write i
  | .wakeUp i => if p.server.crash.isSome then none else p.wakeUp i

/-- A server process that has just been started. -/
def start (s : Server) : ServerProcess where
  server := s

/-- What ends the process on a thread of a map. -/
inductive ThreadFault (p : ServerProcess) : ProcessEvent → Fault → Prop
  | write {i : Nat} {w : TSConsoleBuffer.Write}
      {ws : List TSConsoleBuffer.Write} {fault : Fault}
      (hws : p.mapThreads[i]? = some (w :: ws))
      (hwrite : p.server.environment.buffer.write w = .error fault) :
      ThreadFault p (.write i) fault
  | noVector {i : Nat} {map : Map}
      (hws : p.mapThreads[i]? = some [])
      (hmap : p.server.environment.maps[i]? = some map)
      (hpointer : map.entitiesExternal = none) :
      ThreadFault p (.wakeUp i) .nullPointer
  | strayVector {i : Nat} {map : Map} {vecptr : VecPtr}
      (hws : p.mapThreads[i]? = some [])
      (hmap : p.server.environment.maps[i]? = some map)
      (hpointer : map.entitiesExternal = some vecptr)
      (hvector : p.server.incommingEntities[vecptr]? = none) :
      ThreadFault p (.wakeUp i) .wildAccess
  | place {i : Nat} {map : Map} {vecptr : VecPtr} {vector : List Entity}
      {fault : Fault}
      (hws : p.mapThreads[i]? = some [])
      (hmap : p.server.environment.maps[i]? = some map)
      (hpointer : map.entitiesExternal = some vecptr)
      (hvector : p.server.incommingEntities[vecptr]? = some vector)
      (hplace :
        Map.placeEntities { map with entitiesExternal := some vecptr } vector =
          .error fault) :
      ThreadFault p (.wakeUp i) fault

/-- What a step of the process does, event by event. -/
inductive ProcessStep (p : ServerProcess) :
    ProcessEvent → ServerProcess → Prop
  | server {e : ServerEvent} {s : Server}
      (hserver : p.server.step e = some s) :
      ProcessStep p (.server e) { p with server := s }
  | startThread {map : Map}
      (hpc : p.server.environment.pc = .running)
      (hmap : p.server.environment.maps[p.mapThreads.length]? = some map) :
      ProcessStep p .startThread
        { p with
          mapThreads := p.mapThreads ++ [Map.startUpWrites map.config] }
  | write {i : Nat} {w : TSConsoleBuffer.Write}
      {ws : List TSConsoleBuffer.Write} {b : TSConsoleBuffer}
      (hws : p.mapThreads[i]? = some (w :: ws))
      (hwrite : p.server.environment.buffer.write w = .ok b) :
      ProcessStep p (.write i)
        { server := p.server.setBuffer b
          mapThreads := p.mapThreads.set i ws }
  | wakeUp {i : Nat} {map map' : Map} {vecptr : VecPtr} {vector : List Entity}
      (hws : p.mapThreads[i]? = some [])
      (hmap : p.server.environment.maps[i]? = some map)
      (hpointer : map.entitiesExternal = some vecptr)
      (hvector : p.server.incommingEntities[vecptr]? = some vector)
      (hplace :
        Map.placeEntities { map with entitiesExternal := some vecptr } vector =
          .ok map') :
      ProcessStep p (.wakeUp i)
        { server := p.server.setMap i map'
          mapThreads := p.mapThreads.set i map'.renderWrites }
  | fault {e : ProcessEvent} {fault : Fault}
      (hcause : ThreadFault p e fault) :
      ProcessStep p e { p with server := p.server.fail fault }

end Model

section Inversion

variable {p p' : ServerProcess} {i : Nat}

theorem write_cases
    (hstep : p.write i = some p') :
    p.ProcessStep (.write i) p' := by
  unfold write at hstep
  split at hstep
  · next w ws hws =>
    split at hstep
    · next b hwrite =>
      cases hstep
      exact .write hws hwrite
    · next fault hwrite =>
      cases hstep
      exact .fault (.write hws hwrite)
  · cases hstep

theorem wakeUp_cases
    (hstep : p.wakeUp i = some p') :
    p.ProcessStep (.wakeUp i) p' := by
  unfold wakeUp at hstep
  split at hstep
  · next _ _ map hws hmap =>
    split at hstep
    · next hpointer =>
      cases hstep
      exact .fault (.noVector hws hmap hpointer)
    · next vecptr hpointer =>
      split at hstep
      · next hvector =>
        cases hstep
        exact .fault (.strayVector hws hmap hpointer hvector)
      · next vector hvector =>
        split at hstep
        · next map' hplace =>
          cases hstep
          exact .wakeUp hws hmap hpointer hvector hplace
        · next fault hplace =>
          cases hstep
          exact .fault (.place hws hmap hpointer hvector hplace)
  · cases hstep

theorem step_cases
    {e : ProcessEvent}
    (hstep : p.step e = some p') :
    p.ProcessStep e p' := by
  cases e with
  | server e =>
      simp only [step] at hstep
      split at hstep
      · next s hserver =>
        cases hstep
        exact .server hserver
      · cases hstep
  | startThread =>
      simp only [step, startThread] at hstep
      split_ifs at hstep with _ hpc
      split at hstep
      · next map hmap =>
        cases hstep
        exact .startThread hpc hmap
      · cases hstep
  | write i =>
      simp only [step] at hstep
      split_ifs at hstep
      exact write_cases hstep
  | wakeUp i =>
      simp only [step] at hstep
      split_ifs at hstep
      exact wakeUp_cases hstep

end Inversion

end ServerProcess

namespace Server

section Buffer

variable {s s' : Server} {e : ServerEvent} {b : TSConsoleBuffer}

@[simp] theorem setBuffer_setBuffer (b b' : TSConsoleBuffer) :
    (s.setBuffer b).setBuffer b' = s.setBuffer b' := by
  rfl

theorem withMap_setBuffer
    {f : Server → Map → Server}
    (hf : ∀ s map, f (s.setBuffer b) map = (f s map).setBuffer b) :
    (s.setBuffer b).withMap f = (s.withMap f).setBuffer b := by
  cases hmap : s.environment.maps[s.slot]? with
  | none =>
      have hnone :
          (s.setBuffer b).environment.maps[(s.setBuffer b).slot]? = none := hmap
      rw [withMap_of_none hmap, withMap_of_none hnone]
      rfl
  | some map =>
      have hsome :
          (s.setBuffer b).environment.maps[(s.setBuffer b).slot]? = some map :=
        hmap
      rw [withMap_of_some hmap, withMap_of_some hsome]
      exact hf (s.noteAccess s.environment.maps.length) map

theorem withVector_setBuffer
    {f : Server → List Entity → Server}
    (hf : ∀ s vector, f (s.setBuffer b) vector = (f s vector).setBuffer b) :
    (s.setBuffer b).withVector f = (s.withVector f).setBuffer b := by
  cases hvector : s.incommingEntities[s.slot]? with
  | none =>
      have hnone :
          (s.setBuffer b).incommingEntities[(s.setBuffer b).slot]? = none :=
        hvector
      rw [withVector_of_none hvector, withVector_of_none hnone]
      rfl
  | some vector =>
      have hsome :
          (s.setBuffer b).incommingEntities[(s.setBuffer b).slot]? =
            some vector := hvector
      rw [withVector_of_some hvector, withVector_of_some hsome]
      exact hf (s.noteAccess s.incommingEntities.length) vector

/-- `on_client_validated` does not look at the buffer. -/
theorem handlerStep_setBuffer (h : Handler) (e : HandlerEvent) :
    (s.setBuffer b).handlerStep h e =
      (s.handlerStep h e).map (·.setBuffer b) := by
  obtain ⟨client, stage⟩ := h
  cases e with
  | sendLayout =>
      cases stage with
      | layout => exact congrArg some (withMap_setBuffer fun _ _ => rfl)
      | config => rfl
      | entitiesSize => rfl
      | entities => rfl
  | sendConfig =>
      cases stage with
      | config => exact congrArg some (withMap_setBuffer fun _ _ => rfl)
      | layout => rfl
      | entitiesSize => rfl
      | entities => rfl
  | sendEntitiesSize =>
      cases stage with
      | entitiesSize =>
          refine congrArg some (withMap_setBuffer fun s map => ?_)
          cases map.entitiesExternal with
          | none => rfl
          | some vecptr =>
              have hsame :
                  (s.setBuffer b).incommingEntities = s.incommingEntities := rfl
              simp only [hsame]
              cases s.incommingEntities[vecptr]? with
              | none => rfl
              | some vector => rfl
      | layout => rfl
      | config => rfl
      | entities => rfl
  | getVector =>
      cases stage with
      | entities announced entMsg vector counted =>
          cases vector with
          | none => exact congrArg some (withVector_setBuffer fun _ _ => rfl)
          | some _ => rfl
      | layout => rfl
      | config => rfl
      | entitiesSize => rfl
  | getSize =>
      cases stage with
      | entities announced entMsg vector counted =>
          cases counted with
          | none => exact congrArg some (withVector_setBuffer fun _ _ => rfl)
          | some _ => rfl
      | layout => rfl
      | config => rfl
      | entitiesSize => rfl
  | sendEntities =>
      cases stage with
      | entities announced entMsg vector counted =>
          cases vector with
          | none => rfl
          | some vector =>
              cases counted with
              | none => rfl
              | some counted =>
                  refine congrArg some ?_
                  unfold sendEntities
                  cases entitiesMessage entMsg vector counted.length with
                  | none => rfl
                  | some msg => rfl
      | layout => rfl
      | config => rfl
      | entitiesSize => rfl

theorem accept_setBuffer (now : UInt64) :
    (s.setBuffer b).accept now = (s.accept now).setBuffer b := by
  unfold accept
  by_cases hroom : s.deqConnections.length < s.nMapsCount.toNat
  · rw [if_pos hroom]
    exact if_pos hroom
  · rw [if_neg hroom]
    exact if_neg hroom

theorem afterIo_setBuffer
    (c : ConnId) (conn : Connection MessageType) (u : Upcall MessageType) :
    (s.setBuffer b).afterIo c conn u = (s.afterIo c conn u).setBuffer b := by
  cases u with
  | none => rfl
  | incoming msg => rfl
  | validated => rfl

/-- Once its environment is running, the server does not look at the buffer. -/
theorem step_setBuffer
    (hpc : s.environment.pc = .running)
    (e : ServerEvent) :
    (s.setBuffer b).step e = (s.step e).map (·.setBuffer b) := by
  unfold step
  by_cases hcrash : s.crash.isSome
  · rw [if_pos hcrash]
    exact if_pos hcrash
  · rw [if_neg hcrash]
    refine (if_neg hcrash).trans ?_
    cases e with
    | startServer =>
        by_cases hlistening : s.listening
        · simp [setBuffer, hlistening]
        · simp [setBuffer, hlistening]
    | startEnvironment => simp [setBuffer, hpc]
    | environment randx randy => simp [setBuffer, Environment.step, hpc]
    | accept now =>
        by_cases hguard : s.listening ∧ s.handler.isNone
        · simp only [hguard, and_self, if_true, Option.map_some]
          refine (if_pos hguard).trans ?_
          rw [accept_setBuffer]
        · simp only [hguard, if_false, Option.map_none]
          exact if_neg hguard
    | acceptFailed =>
        by_cases hguard : s.listening ∧ s.handler.isNone
        · simp only [hguard, and_self, if_true, Option.map_some]
          exact if_pos hguard
        · simp only [hguard, if_false, Option.map_none]
          exact if_neg hguard
    | io c e =>
        by_cases hguard : e.movesBytes ∨ s.handler.isNone
        · simp only [hguard, if_true]
          refine (if_pos hguard).trans ?_
          have hsame : (s.setBuffer b).connections = s.connections := rfl
          simp only [hsame]
          cases s.connections[c]? with
          | none => rfl
          | some conn =>
              dsimp only
              cases conn.ioStep e with
              | none => rfl
              | some result =>
                  dsimp only
                  rw [afterIo_setBuffer, Option.map_some]
        · simp only [hguard, if_false, Option.map_none]
          exact if_neg hguard
    | acceptReset =>
        by_cases hguard : s.listening ∧ s.handler.isNone
        · simp only [hguard, and_self, if_true, Option.map_some]
          exact if_pos hguard
        · simp only [hguard, if_false, Option.map_none]
          exact if_neg hguard
    | freed c =>
        have hsame :
            (s.setBuffer b).handler = s.handler ∧
              (s.setBuffer b).deqConnections = s.deqConnections ∧
              (s.setBuffer b).connections = s.connections :=
          ⟨rfl, rfl, rfl⟩
        simp only [hsame]
        split
        · cases s.connections[c]? with
          | none => rfl
          | some conn =>
              dsimp only
              split
              · rfl
              · rfl
        · rfl
    | handler e =>
        have hsame : (s.setBuffer b).handler = s.handler := rfl
        simp only [hsame]
        cases s.handler with
        | none => rfl
        | some h => exact handlerStep_setBuffer h e
    | update =>
        cases hq : s.qMessagesIn with
        | nil => simp [setBuffer, hq]
        | cons msg rest => simp [setBuffer, hq]

/-- Once the environment is running, it stays as it is. -/
theorem environment_of_running
    (hpc : s.environment.pc = .running)
    (hstep : s.step e = some s') :
    s'.environment = s.environment ∧
      s'.incommingEntities = s.incommingEntities := by
  cases step_cases hstep with
  | startServer => exact ⟨rfl, rfl⟩
  | startEnvironment hcreated =>
      rw [hpc] at hcreated
      cases hcreated
  | environment henv => simp [Environment.step, hpc] at henv
  | fault => exact ⟨rfl, rfl⟩
  | approve => exact ⟨rfl, rfl⟩
  | refuse => exact ⟨rfl, rfl⟩
  | acceptFailed => exact ⟨rfl, rfl⟩
  | @io c e conn conn' u =>
      obtain ⟨_, henv, hvec, _⟩ := afterIo_world s c conn' u
      exact ⟨henv, hvec⟩
  | handler hh hhandler =>
      have hworld := hhandler.sameWorld
      exact ⟨hworld.environment, hworld.incommingEntities⟩
  | update => exact ⟨rfl, rfl⟩

end Buffer

end Server

namespace Server

section Board

variable {s s' : Server} {e : ServerEvent} {n : UInt64}

/-- What the environment's thread has drawn. -/
def DrawsInv (s : Server) : Prop :=
  s.environment.pc ≠ .created →
    Environment.DrawnInv envConfig s.nMapsCount.toNat
      (s.environment, s.incommingEntities)

/-- The environment's thread draws what it puts on the maps. -/
theorem step_drawsInv
    (hfew : FewMaps s.nMapsCount)
    (hworld : WorldInv s)
    (h : DrawsInv s)
    (hstep : s.step e = some s') :
    DrawsInv s' := by
  cases step_cases hstep with
  | startServer => exact h
  | startEnvironment hpc =>
      intro _
      cases hworld.thread with
      | created _ hstart => exact Environment.drawnInv_start hstart rfl
      | started hfood => exact absurd hpc hfood.started
  | @environment randx randy environment vectors henv =>
      intro _
      have hcreated : s.environment.pc ≠ .created := by
        intro hpc
        simp [Environment.step, hpc] at henv
      rw [hworld.console] at henv
      obtain ⟨hfits, hwide⟩ := hfew.tileable
      exact (h hcreated).step hfits hwide (by decide) henv
  | fault => exact h
  | approve => exact h
  | refuse => exact h
  | acceptFailed => exact h
  | @io c e conn conn' u =>
      obtain ⟨hcount, henv, hvec, _⟩ := afterIo_world s c conn' u
      unfold DrawsInv
      rw [hcount, henv, hvec]
      exact h
  | handler hh hhandler =>
      have hsame := hhandler.sameWorld
      unfold DrawsInv
      rw [hsame.nMapsCount, hsame.environment, hsame.incommingEntities]
      exact h
  | update => exact h

/-- Each map of a running environment has been updated with its vector. -/
theorem DrawsInv.settled
    {i : Nat} {map : Map} {vector : List Entity}
    (h : DrawsInv s)
    (hpc : s.environment.pc = .running)
    (hmap : s.environment.maps[i]? = some map)
    (hvector : s.incommingEntities[i]? = some vector) :
    map.Settled i vector := by
  refine (h (by simp [hpc])).settled i map hmap ?_ vector hvector
  show EnvPc.Updated i s.environment.pc
  rw [hpc]
  trivial

/-- The vector of a map. -/
theorem DrawsInv.exists_vector
    {i : Nat} {map : Map}
    (h : DrawsInv s)
    (hpc : s.environment.pc = .running)
    (hmap : s.environment.maps[i]? = some map) :
    ∃ vector, s.incommingEntities[i]? = some vector := by
  have hfood := (h (by simp [hpc])).food
  have hlt : i < s.incommingEntities.length := by
    rw [hfood.startup.vectors_length]
    exact hfood.index_lt hmap
  exact ⟨_, List.getElem?_eq_getElem hlt⟩

/-- The maps of a running environment are side by side, and the food is inside of
their walls. -/
theorem DrawsInv.board
    (h : DrawsInv s)
    (hfew : FewMaps s.nMapsCount)
    (hpc : s.environment.pc = .running) :
    Map.Board s.environment.maps := by
  have hfood := (h (by simp [hpc])).food
  obtain ⟨hfits, hwide⟩ := hfew.tileable
  have hsettled :
      ∀ map ∈ s.environment.maps, ∃ i vector,
        s.environment.maps[i]? = some map ∧
          s.incommingEntities[i]? = some vector ∧ map.Settled i vector := by
    intro map hmap
    obtain ⟨i, hi⟩ := List.mem_iff_getElem?.mp hmap
    obtain ⟨vector, hvector⟩ := h.exists_vector hpc hi
    exact ⟨i, vector, hi, hvector, h.settled hpc hi hvector⟩
  refine
    { placed := ?_
      clear := ?_
      width := ?_
      height := ?_
      apart := fun i j m m' hi hj hne => hfood.apart hfits hi hj hne }
  · intro map hmap
    obtain ⟨_, _, _, _, hset⟩ := hsettled map hmap
    exact hset.placed
  · intro map hmap cell e he
    obtain ⟨i, vector, hi, hvector, hset⟩ := hsettled map hmap
    have hown := hset.placed cell e he
    rw [hset.lookup] at he
    have hmem : e ∈ vector := by
      rcases PointMoves.applyAll_mem he with hnone | ⟨move, hmove, _, hval⟩
      · cases hnone
      · obtain ⟨e', he', rfl⟩ := List.mem_map.mp hmove
        obtain rfl : e' = e := hval
        exact he'
    obtain ⟨hinside, hborder⟩ := hfood.inside hi hvector e hmem
    rw [hown] at hborder
    refine Map.wallAt_eq_none ?_ hborder
    rw [← hown]
    exact hinside.1
  · intro map hmap
    obtain ⟨i, hi⟩ := List.mem_iff_getElem?.mp hmap
    rw [hfood.tiled.tiles i map hi, Environment.tileConfig_width]
    omega
  · intro map hmap
    obtain ⟨i, hi⟩ := List.mem_iff_getElem?.mp hmap
    rw [hfood.tiled.tiles i map hi, Environment.tileConfig_height]
    decide

end Board

end Server

end SpeciesSimulator
