import SpeciesSimulator.Environment
import SpeciesSimulator.Lib.Transition
import SpeciesSimulator.NetHandshakeWrite
import SpeciesSimulator.ServerMessages

/-!
# The server

The classes `Server` and `Server_Interface` with everything that runs
concurrently in a server process: the main thread, the environment's thread,
and the io thread with the handlers of all connections.

Connections are known by their place in the list of all connections that were
ever made; `m_deqConnections` holds the places of the approved ones.  A refused
connection is freed once the accept handler returns, which closes its socket.
The handler that it has posted still runs, on freed memory: the process may end
there, which is the event `freed`, or go on with what that memory still holds.
The accept handler asks for the `remote_endpoint` of its client, which throws if
the client is gone already.

The handler that finds a client's reply to be right calls
`on_client_validated`, which reads what the environment's thread writes.  It is
split into its reads, and until it returns the io thread runs no other handler;
bytes may still move.  A fault on any thread ends the process.

The last fields of `Server` record the history of a run.
-/

namespace SpeciesSimulator

open ByteLayout

/-- Which connection, by its place among all connections. -/
abbrev ConnId := Nat

/-- An element that `on_client_validated` looks up by the number of
connections, with the size of the container at that moment. -/
structure Access where
  connections : Nat
  size : Nat
deriving DecidableEq

/-- The entities that one run of `on_client_validated` announced and sent: the
vector when its size was announced with `sizeMessage`, the vector when its size
was read again, and the message, if it is defined. -/
structure Transfer where
  client : ConnId
  announced : List Entity
  sizeMessage : Message MessageType
  counted : List Entity
  message : Option (Message MessageType)

/-- The next statement of `on_client_validated`; the last call of
`push_back_complex` reads a copy of the vector and the size in either order. -/
inductive Stage where
  | layout
  | config
  | entitiesSize
  | entities (announced : List Entity) (entMsg : Message MessageType)
      (vector counted : Option (List Entity))

/-- A run of `on_client_validated`. -/
structure Handler where
  client : ConnId
  stage : Stage

/-- A step of `on_client_validated`. -/
inductive HandlerEvent where
  | sendLayout
  | sendConfig
  | sendEntitiesSize
  | getVector
  | getSize
  | sendEntities
deriving DecidableEq

structure Server where
  nMapsCount : UInt64
  console : WinConsole
  environment : Environment
  incommingEntities : List (List Entity)
  listening : Bool := false
  connections : List (Connection MessageType) := []
  deqConnections : List ConnId := []
  nIDCounter : UInt32 := 10000
  qMessagesIn : List (ConnId × Message MessageType) := []
  handler : Option Handler := none
  crash : Option Fault := none
  validated : List ConnId := []
  connectionsAtValidation : Nat := 0
  accesses : List Access := []
  served : List (ConnId × Nat) := []
  transfers : List Transfer := []

/-- What can happen next in a server process. -/
inductive ServerEvent where
  | startServer
  | startEnvironment
  | environment (randx randy : Int)
  | accept (now : UInt64)
  | acceptFailed
  | acceptReset
  | io (c : ConnId) (e : IoEvent)
  | freed (c : ConnId)
  | handler (e : HandlerEvent)
  | update
deriving DecidableEq

/-- Bytes that move, which needs no handler. -/
def IoEvent.movesBytes : IoEvent → Bool
  | .recv _ _ => true
  | .transfer _ _ => true
  | _ => false

namespace Server

section Construction

/-- `m_console`, as its constructor leaves it. -/
def initialConsole : WinConsole where
  layout :=
    { nxpos := 0
      nypos := 0
      nScreenWidth := 120
      nScreenHeight := 44
      fontw := 8
      fonth := 16 }

/-- `m_envConfig`. -/
def envConfig : MapConfig :=
  { width := 120, height := 30 }

/-- The constructor, with one entity vector for each map. -/
def make (nmapSize : UInt64) : Except Fault Server := do
  let environment ←
    Environment.make initialConsole envConfig nmapSize.toNat
  pure
    { nMapsCount := nmapSize
      console := initialConsole
      environment := environment
      incommingEntities := List.replicate nmapSize.toNat [] }

/-- A new server has no connections and no history. -/
theorem exists_of_make
    {nmapSize : UInt64} {s : Server}
    (h : make nmapSize = .ok s) :
    ∃ environment,
      Environment.make initialConsole envConfig nmapSize.toNat =
        .ok environment ∧
      s =
        { nMapsCount := nmapSize
          console := initialConsole
          environment := environment
          incommingEntities := List.replicate nmapSize.toNat [] } := by
  obtain ⟨environment, henv, hs⟩ := exists_of_bind_ok h
  exact ⟨environment, henv, (Except.ok.inj hs).symm⟩

end Construction

section OnClientValidated

/-- `get_connections() - 1`, a `size_t`. -/
def slot (s : Server) : Nat :=
  (s.deqConnections.length + (2 ^ 64 - 1)) % 2 ^ 64

/-- `client->send(msg)`. -/
def sendTo (s : Server) (c : ConnId) (msg : Message MessageType) : Server :=
  { s with connections := s.connections.modify c (·.send msg) }

/-- Look up an element of a container with `at(get_connections() - 1)`. -/
def noteAccess (s : Server) (size : Nat) : Server :=
  { s with
    accesses := s.accesses ++ [⟨s.deqConnections.length, size⟩] }

/-- Data of the map with the current index is sent to the client. -/
def noteServed (s : Server) (c : ConnId) : Server :=
  { s with served := s.served ++ [(c, s.slot)] }

def fail (s : Server) (fault : Fault) : Server :=
  { s with crash := some fault }

/-- `m_environment->at_get_map(get_connections() - 1)`, used by `f`. -/
def withMap (s : Server) (f : Server → Map → Server) : Server :=
  let s := s.noteAccess s.environment.maps.length
  match s.environment.maps[s.slot]? with
  | none => s.fail .outOfRange
  | some map => f s map

/-- `m_incomming_entities.at(get_connections() - 1)`, used by `f`. -/
def withVector (s : Server) (f : Server → List Entity → Server) : Server :=
  let s := s.noteAccess s.incommingEntities.length
  match s.incommingEntities[s.slot]? with
  | none => s.fail .outOfRange
  | some vector => f s vector

def atStage (s : Server) (c : ConnId) (stage : Stage) : Server :=
  { s with handler := some ⟨c, stage⟩ }

def sendLayout (s : Server) (c : ConnId) : Server :=
  s.withMap fun s map =>
    ((s.sendTo c (layoutMessage map.conLay)).noteServed c).atStage c .config

def sendConfig (s : Server) (c : ConnId) : Server :=
  s.withMap fun s map =>
    ((s.sendTo c (configMessage map.config)).noteServed c).atStage c
      .entitiesSize

/-- `get_entities_size()` follows the map's pointer to its vector. -/
def sendEntitiesSize (s : Server) (c : ConnId) : Server :=
  s.withMap fun s map =>
    match map.entitiesExternal with
    | none => s.fail .nullPointer
    | some vecptr =>
        match s.incommingEntities[vecptr]? with
        | none => s.fail .wildAccess
        | some vector =>
            let msg := entitiesSizeMessage (UInt64.ofNat vector.length)
            ((s.sendTo c msg).noteServed c).atStage c
              (.entities vector msg none none)

/-- The entities that were sent, or that could not be copied. -/
def noteTransfer (s : Server) (transfer : Transfer) : Server :=
  { s with transfers := s.transfers ++ [transfer] }

/-- `on_client_validated` returns, its caller goes on with `mf_read_header`. -/
def finish (s : Server) (c : ConnId) : Server :=
  { s with
    connections := s.connections.modify c (·.mfReadHeader)
    handler := none }

/-- `push_back_complex` and `send`. -/
def sendEntities
    (s : Server) (c : ConnId) (announced : List Entity)
    (entMsg : Message MessageType) (vector counted : List Entity) : Server :=
  let message := entitiesMessage entMsg vector counted.length
  let s := s.noteTransfer ⟨c, announced, entMsg, counted, message⟩
  match message with
  | none => s.fail .wildAccess
  | some msg => ((s.sendTo c msg).noteServed c).finish c

/-- The next step of `on_client_validated`. -/
def handlerStep (s : Server) (h : Handler) : HandlerEvent → Option Server
  | .sendLayout =>
      match h.stage with
      | .layout => some (s.sendLayout h.client)
      | _ => none
  | .sendConfig =>
      match h.stage with
      | .config => some (s.sendConfig h.client)
      | _ => none
  | .sendEntitiesSize =>
      match h.stage with
      | .entitiesSize => some (s.sendEntitiesSize h.client)
      | _ => none
  | .getVector =>
      match h.stage with
      | .entities announced entMsg none counted =>
          some
            (s.withVector fun s vector =>
              s.atStage h.client
                (.entities announced entMsg (some vector) counted))
      | _ => none
  | .getSize =>
      match h.stage with
      | .entities announced entMsg vector none =>
          some
            (s.withVector fun s counted =>
              s.atStage h.client
                (.entities announced entMsg vector (some counted)))
      | _ => none
  | .sendEntities =>
      match h.stage with
      | .entities announced entMsg (some vector) (some counted) =>
          some (s.sendEntities h.client announced entMsg vector counted)
      | _ => none

end OnClientValidated

section Steps

/-- The accept handler, with `on_client_connect`. -/
def accept (s : Server) (now : UInt64) : Server :=
  if s.deqConnections.length < s.nMapsCount.toNat then
    { s with
      connections :=
        s.connections ++
          [Connection.acceptConnection acceptMessage now s.nIDCounter]
      deqConnections := s.deqConnections ++ [s.connections.length]
      nIDCounter := s.nIDCounter + 1 }
  else
    { s with
      connections :=
        s.connections ++
          [((Connection.make .server now true).send denialMessage).close] }

/-- What a handler of a connection leaves behind. -/
def afterIo
    (s : Server) (c : ConnId) (conn : Connection MessageType) :
    Upcall MessageType → Server
  | .none =>
      { s with connections := s.connections.set c conn }
  | .incoming msg =>
      { s with
        connections := s.connections.set c conn
        qMessagesIn := s.qMessagesIn ++ [(c, msg)] }
  | .validated =>
      { s with
        connections := s.connections.set c conn
        handler := some ⟨c, .layout⟩
        validated := s.validated ++ [c]
        connectionsAtValidation := s.deqConnections.length }

theorem afterIo_connections
    (s : Server) (c : ConnId) (conn : Connection MessageType)
    (u : Upcall MessageType) :
    (s.afterIo c conn u).connections = s.connections.set c conn := by
  cases u with
  | none => rfl
  | incoming msg => rfl
  | validated => rfl

theorem afterIo_deqConnections
    (s : Server) (c : ConnId) (conn : Connection MessageType)
    (u : Upcall MessageType) :
    (s.afterIo c conn u).deqConnections = s.deqConnections := by
  cases u with
  | none => rfl
  | incoming msg => rfl
  | validated => rfl

def step (s : Server) (e : ServerEvent) : Option Server :=
  if s.crash.isSome then none
  else
    match e with
    | .startServer =>
        if s.listening then none else some { s with listening := true }
    | .startEnvironment =>
        if s.listening ∧ s.environment.pc = .created then
          some
            { s with
              environment := { s.environment with pc := .startUp } }
        else none
    | .environment randx randy =>
        match s.environment.step s.console s.incommingEntities randx randy with
        | none => none
        | some (.error fault) => some (s.fail fault)
        | some (.ok (environment, vectors)) =>
            some
              { s with
                environment := environment
                incommingEntities := vectors }
    | .accept now =>
        if s.listening ∧ s.handler.isNone then some (s.accept now) else none
    | .acceptFailed =>
        if s.listening ∧ s.handler.isNone then some s else none
    | .acceptReset =>
        if s.listening ∧ s.handler.isNone then some (s.fail .systemError)
        else none
    | .io c e =>
        if e.movesBytes ∨ s.handler.isNone then
          match s.connections[c]? with
          | none => none
          | some conn =>
              match conn.ioStep e with
              | none => none
              | some (conn', u) => some (s.afterIo c conn' u)
        else none
    | .freed c =>
        if s.handler.isNone ∧ c ∉ s.deqConnections then
          match s.connections[c]? with
          | none => none
          | some conn =>
              if conn.posted.isEmpty then none
              else some (s.fail .useAfterFree)
        else none
    | .handler e =>
        match s.handler with
        | none => none
        | some h => s.handlerStep h e
    | .update =>
        match s.qMessagesIn with
        | [] => none
        | _ :: rest => some { s with qMessagesIn := rest }

end Steps

section Inversion

/-- What a step of `on_client_validated` does. -/
inductive HandlerStep (s : Server) (h : Handler) :
    HandlerEvent → Server → Prop
  | noMap {e : HandlerEvent}
      (hstage : h.stage = .layout → e = .sendLayout)
      (hmap : s.environment.maps[s.slot]? = none) :
      HandlerStep s h e
        ((s.noteAccess s.environment.maps.length).fail .outOfRange)
  | noVector {e : HandlerEvent}
      (hvector : s.incommingEntities[s.slot]? = none) :
      HandlerStep s h e
        ((s.noteAccess s.incommingEntities.length).fail .outOfRange)
  | sendLayout {map : Map}
      (hstage : h.stage = .layout)
      (hmap : s.environment.maps[s.slot]? = some map) :
      HandlerStep s h .sendLayout
        ((((s.noteAccess s.environment.maps.length).sendTo h.client
          (layoutMessage map.conLay)).noteServed h.client).atStage h.client
            .config)
  | sendConfig {map : Map}
      (hstage : h.stage = .config)
      (hmap : s.environment.maps[s.slot]? = some map) :
      HandlerStep s h .sendConfig
        ((((s.noteAccess s.environment.maps.length).sendTo h.client
          (configMessage map.config)).noteServed h.client).atStage h.client
            .entitiesSize)
  | noSize {map : Map} {fault : Fault}
      (hstage : h.stage = .entitiesSize)
      (hmap : s.environment.maps[s.slot]? = some map) :
      HandlerStep s h .sendEntitiesSize
        ((s.noteAccess s.environment.maps.length).fail fault)
  | sendEntitiesSize {map : Map} {vecptr : VecPtr} {vector : List Entity}
      (hstage : h.stage = .entitiesSize)
      (hmap : s.environment.maps[s.slot]? = some map)
      (hptr : map.entitiesExternal = some vecptr)
      (hvector : s.incommingEntities[vecptr]? = some vector) :
      HandlerStep s h .sendEntitiesSize
        ((((s.noteAccess s.environment.maps.length).sendTo h.client
          (entitiesSizeMessage (UInt64.ofNat vector.length))).noteServed
            h.client).atStage h.client
              (.entities vector
                (entitiesSizeMessage (UInt64.ofNat vector.length))
                none none))
  | getVector {announced vector : List Entity}
      {entMsg : Message MessageType} {counted : Option (List Entity)}
      (hstage : h.stage = .entities announced entMsg none counted)
      (hvector : s.incommingEntities[s.slot]? = some vector) :
      HandlerStep s h .getVector
        ((s.noteAccess s.incommingEntities.length).atStage h.client
          (.entities announced entMsg (some vector) counted))
  | getSize {announced counted : List Entity}
      {entMsg : Message MessageType} {vector : Option (List Entity)}
      (hstage : h.stage = .entities announced entMsg vector none)
      (hvector : s.incommingEntities[s.slot]? = some counted) :
      HandlerStep s h .getSize
        ((s.noteAccess s.incommingEntities.length).atStage h.client
          (.entities announced entMsg vector (some counted)))
  | noEntities {announced vector counted : List Entity}
      {entMsg : Message MessageType}
      (hstage :
        h.stage = .entities announced entMsg (some vector) (some counted))
      (hmsg : entitiesMessage entMsg vector counted.length = none) :
      HandlerStep s h .sendEntities
        ((s.noteTransfer ⟨h.client, announced, entMsg, counted, none⟩).fail
          .wildAccess)
  | sendEntities {announced vector counted : List Entity}
      {entMsg msg : Message MessageType}
      (hstage :
        h.stage = .entities announced entMsg (some vector) (some counted))
      (hmsg : entitiesMessage entMsg vector counted.length = some msg) :
      HandlerStep s h .sendEntities
        ((((s.noteTransfer
          ⟨h.client, announced, entMsg, counted, some msg⟩).sendTo
            h.client msg).noteServed h.client).finish h.client)

theorem handlerStep_cases
    {s s' : Server} {h : Handler} {e : HandlerEvent}
    (hstep : s.handlerStep h e = some s') :
    HandlerStep s h e s' := by
  cases e with
  | sendLayout =>
      simp only [handlerStep] at hstep
      split at hstep
      · next hstage =>
        simp only [sendLayout, withMap, Option.some.injEq] at hstep
        subst hstep
        split
        · next hmap => exact .noMap (fun _ => rfl) hmap
        · next map hmap => exact .sendLayout hstage hmap
      · cases hstep
  | sendConfig =>
      simp only [handlerStep] at hstep
      split at hstep
      · next hstage =>
        have hnot : h.stage = .layout → HandlerEvent.sendConfig = .sendLayout := by
          intro hlayout
          rw [hstage] at hlayout
          cases hlayout
        simp only [sendConfig, withMap, Option.some.injEq] at hstep
        subst hstep
        split
        · next hmap => exact .noMap hnot hmap
        · next map hmap => exact .sendConfig hstage hmap
      · cases hstep
  | sendEntitiesSize =>
      simp only [handlerStep] at hstep
      split at hstep
      · next hstage =>
        have hnot :
            h.stage = .layout →
              HandlerEvent.sendEntitiesSize = .sendLayout := by
          intro hlayout
          rw [hstage] at hlayout
          cases hlayout
        simp only [sendEntitiesSize, withMap, Option.some.injEq] at hstep
        subst hstep
        split
        · next hmap => exact .noMap hnot hmap
        · next map hmap =>
          split
          · exact .noSize hstage hmap
          · next vecptr hptr =>
            split
            · exact .noSize hstage hmap
            · next vector hvector =>
              exact .sendEntitiesSize hstage hmap hptr hvector
      · cases hstep
  | getVector =>
      simp only [handlerStep] at hstep
      split at hstep
      · next hstage =>
        simp only [withVector, Option.some.injEq] at hstep
        subst hstep
        split
        · next hvector => exact .noVector hvector
        · next vector hvector => exact .getVector hstage hvector
      · cases hstep
  | getSize =>
      simp only [handlerStep] at hstep
      split at hstep
      · next hstage =>
        simp only [withVector, Option.some.injEq] at hstep
        subst hstep
        split
        · next hvector => exact .noVector hvector
        · next counted hvector => exact .getSize hstage hvector
      · cases hstep
  | sendEntities =>
      simp only [handlerStep] at hstep
      split at hstep
      · next announced entMsg vector counted hstage =>
        simp only [sendEntities, Option.some.injEq] at hstep
        subst hstep
        cases hmsg : entitiesMessage entMsg vector counted.length with
        | none => exact .noEntities hstage hmsg
        | some msg => exact .sendEntities hstage hmsg
      · cases hstep

/-- Nothing differs outside the connections, `on_client_validated` and the
history that it leaves. -/
structure SameWorld (s s' : Server) : Prop where
  listening : s'.listening = s.listening
  nMapsCount : s'.nMapsCount = s.nMapsCount
  environment : s'.environment = s.environment
  incommingEntities : s'.incommingEntities = s.incommingEntities
  deqConnections : s'.deqConnections = s.deqConnections
  qMessagesIn : s'.qMessagesIn = s.qMessagesIn
  validated : s'.validated = s.validated
  connectionsAtValidation :
    s'.connectionsAtValidation = s.connectionsAtValidation

theorem SameWorld.update
    {s : Server} {connections : List (Connection MessageType)}
    {handler : Option Handler} {crash : Option Fault}
    {accesses : List Access} {served : List (ConnId × Nat)}
    {transfers : List Transfer} :
    SameWorld s
      { s with
        connections := connections
        handler := handler
        crash := crash
        accesses := accesses
        served := served
        transfers := transfers } :=
  ⟨rfl, rfl, rfl, rfl, rfl, rfl, rfl, rfl⟩

theorem HandlerStep.sameWorld
    {s s' : Server} {h : Handler} {e : HandlerEvent}
    (hstep : HandlerStep s h e s') :
    SameWorld s s' := by
  cases hstep with
  | noMap => exact .update
  | noVector => exact .update
  | sendLayout => exact .update
  | sendConfig => exact .update
  | noSize => exact .update
  | sendEntitiesSize => exact .update
  | getVector => exact .update
  | getSize => exact .update
  | noEntities => exact .update
  | sendEntities => exact .update

/-- Its client is sent a message, if anybody, and after the last one the reader
goes on. -/
theorem HandlerStep.connections
    {s s' : Server} {h : Handler} {e : HandlerEvent}
    (hstep : HandlerStep s h e s') :
    s'.connections = s.connections ∨
      ∃ f : Connection MessageType → Connection MessageType,
        s'.connections = s.connections.modify h.client f ∧
          ∃ msg, f = (·.send msg) ∨ f = fun conn => (conn.send msg).mfReadHeader := by
  cases hstep with
  | noMap => exact Or.inl rfl
  | noVector => exact Or.inl rfl
  | noSize => exact Or.inl rfl
  | getVector => exact Or.inl rfl
  | getSize => exact Or.inl rfl
  | noEntities => exact Or.inl rfl
  | sendLayout => exact Or.inr ⟨_, rfl, _, Or.inl rfl⟩
  | sendConfig => exact Or.inr ⟨_, rfl, _, Or.inl rfl⟩
  | sendEntitiesSize => exact Or.inr ⟨_, rfl, _, Or.inl rfl⟩
  | @sendEntities announced vector counted entMsg msg hstage hmsg =>
      refine Or.inr ⟨_, ?_, msg, Or.inr rfl⟩
      exact List.modify_modify_eq
        (fun conn : Connection MessageType => conn.send msg)
        Connection.mfReadHeader _ _

/-- The handler stays with its client. -/
theorem HandlerStep.handler
    {s s' : Server} {h : Handler} {e : HandlerEvent}
    (hstep : HandlerStep s h e s')
    (hh : s.handler = some h) :
    ∀ h', s'.handler = some h' → h'.client = h.client := by
  intro h' hh'
  cases hstep with
  | noMap =>
      obtain rfl := Option.some.inj (hh.symm.trans hh')
      rfl
  | noVector =>
      obtain rfl := Option.some.inj (hh.symm.trans hh')
      rfl
  | noSize =>
      obtain rfl := Option.some.inj (hh.symm.trans hh')
      rfl
  | noEntities =>
      obtain rfl := Option.some.inj (hh.symm.trans hh')
      rfl
  | sendLayout => cases hh'; rfl
  | sendConfig => cases hh'; rfl
  | sendEntitiesSize => cases hh'; rfl
  | getVector => cases hh'; rfl
  | getSize => cases hh'; rfl
  | sendEntities => cases hh'

/-- How a step ends the process outside `on_client_validated`. -/
inductive Faulty (s : Server) : ServerEvent → Fault → Prop
  | environment {randx randy : Int} {fault : Fault}
      (henv :
        s.environment.step s.console s.incommingEntities randx randy =
          some (.error fault)) :
      Faulty s (.environment randx randy) fault
  | acceptReset
      (hidle : s.handler = none) :
      Faulty s .acceptReset .systemError
  | freed {c : ConnId} {conn : Connection MessageType}
      (hidle : s.handler = none)
      (hrefused : c ∉ s.deqConnections)
      (hconn : s.connections[c]? = some conn) :
      Faulty s (.freed c) .useAfterFree

/-- No handler of a connection ends the process by itself. -/
theorem Faulty.ne_io
    {s : Server} {e : ServerEvent} {fault : Fault}
    (h : Faulty s e fault)
    (c : ConnId) (e₀ : IoEvent) :
    e ≠ .io c e₀ := by
  cases h with
  | environment => simp
  | acceptReset => simp
  | freed => simp

/-- What a step of the server does, event by event. -/
inductive ServerStep (s : Server) : ServerEvent → Server → Prop
  | startServer :
      ServerStep s .startServer { s with listening := true }
  | startEnvironment
      (hpc : s.environment.pc = .created) :
      ServerStep s .startEnvironment
        { s with environment := { s.environment with pc := .startUp } }
  | environment {randx randy : Int} {environment : Environment}
      {vectors : List (List Entity)}
      (henv :
        s.environment.step s.console s.incommingEntities randx randy =
          some (.ok (environment, vectors))) :
      ServerStep s (.environment randx randy)
        { s with
          environment := environment
          incommingEntities := vectors }
  | fault {e : ServerEvent} {fault : Fault}
      (hcause : Faulty s e fault) :
      ServerStep s e (s.fail fault)
  | approve {now : UInt64}
      (hidle : s.handler = none)
      (hroom : s.deqConnections.length < s.nMapsCount.toNat) :
      ServerStep s (.accept now)
        { s with
          connections :=
            s.connections ++
              [Connection.acceptConnection acceptMessage now s.nIDCounter]
          deqConnections := s.deqConnections ++ [s.connections.length]
          nIDCounter := s.nIDCounter + 1 }
  | refuse {now : UInt64}
      (hidle : s.handler = none)
      (hfull : ¬ s.deqConnections.length < s.nMapsCount.toNat) :
      ServerStep s (.accept now)
        { s with
          connections :=
            s.connections ++
              [((Connection.make .server now true).send denialMessage).close] }
  | acceptFailed :
      ServerStep s .acceptFailed s
  | io {c : ConnId} {e : IoEvent} {conn conn' : Connection MessageType}
      {u : Upcall MessageType}
      (hidle : e.movesBytes = true ∨ s.handler = none)
      (hconn : s.connections[c]? = some conn)
      (hio : Connection.IoStep conn e conn' u) :
      ServerStep s (.io c e) (s.afterIo c conn' u)
  | handler {e : HandlerEvent} {h : Handler} {s' : Server}
      (hh : s.handler = some h)
      (hstep : HandlerStep s h e s') :
      ServerStep s (.handler e) s'
  | update {p : ConnId × Message MessageType}
      {rest : List (ConnId × Message MessageType)}
      (hq : s.qMessagesIn = p :: rest) :
      ServerStep s .update { s with qMessagesIn := rest }

theorem step_cases
    {s s' : Server} {e : ServerEvent}
    (hstep : s.step e = some s') :
    ServerStep s e s' := by
  unfold step at hstep
  split at hstep
  · cases hstep
  · cases e with
    | startServer =>
        simp only at hstep
        split at hstep
        · cases hstep
        · cases hstep
          exact .startServer
    | startEnvironment =>
        simp only at hstep
        split at hstep
        · next hguard =>
          cases hstep
          exact .startEnvironment hguard.2
        · cases hstep
    | environment randx randy =>
        simp only at hstep
        split at hstep
        · cases hstep
        · next fault henv =>
          cases hstep
          exact .fault (.environment henv)
        · next environment vectors henv =>
          cases hstep
          exact .environment henv
    | accept now =>
        simp only at hstep
        split at hstep
        · next hguard =>
          have hidle : s.handler = none :=
            Option.isNone_iff_eq_none.mp hguard.2
          simp only [accept, Option.some.injEq] at hstep
          subst hstep
          split
          · next hroom => exact .approve hidle hroom
          · next hfull => exact .refuse hidle hfull
        · cases hstep
    | acceptFailed =>
        simp only at hstep
        split at hstep
        · cases hstep
          exact .acceptFailed
        · cases hstep
    | acceptReset =>
        simp only at hstep
        split at hstep
        · next hguard =>
          cases hstep
          exact .fault (.acceptReset (Option.isNone_iff_eq_none.mp hguard.2))
        · cases hstep
    | io c e =>
        simp only at hstep
        split at hstep
        · next hguard =>
          have hidle : e.movesBytes = true ∨ s.handler = none := by
            rcases hguard with hmoves | hnone
            · exact Or.inl hmoves
            · exact Or.inr (Option.isNone_iff_eq_none.mp hnone)
          split at hstep
          · cases hstep
          · next conn hconn =>
            split at hstep
            · cases hstep
            · next conn' u hio =>
              cases hstep
              exact .io hidle hconn (Connection.ioStep_cases hio)
        · cases hstep
    | freed c =>
        simp only at hstep
        split at hstep
        · next hguard =>
          have hidle : s.handler = none :=
            Option.isNone_iff_eq_none.mp hguard.1
          split at hstep
          · cases hstep
          · next conn hconn =>
            split at hstep
            · cases hstep
            · cases hstep
              exact .fault (.freed hidle hguard.2 hconn)
        · cases hstep
    | handler e =>
        simp only at hstep
        split at hstep
        · cases hstep
        · next h hh => exact .handler hh (handlerStep_cases hstep)
    | update =>
        simp only at hstep
        split at hstep
        · cases hstep
        · next p rest hq =>
          cases hstep
          exact .update hq

/-- Bytes that move while a handler runs call nobody. -/
theorem upcall_of_movesBytes
    {T : Type _} [Layout (MessageHeader T)]
    {e : IoEvent} {conn conn' : Connection T} {u : Upcall T}
    (hio : Connection.IoStep conn e conn' u)
    (hmoves : e.movesBytes = true) :
    u = .none := by
  cases hio with
  | recv => rfl
  | transfer => rfl
  | _ => cases hmoves

end Inversion

end Server

end SpeciesSimulator
