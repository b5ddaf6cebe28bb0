import SpeciesSimulator.ServerRegistry

/-!
# The server interface

The class `Server_Interface` with any class derived from it: the accept
handler, the handlers of all connections, the calls that the derived class makes
on a connection it was given, and `update`, which takes a message and calls
`on_message`.

A connection is kept alive by the `shared_ptr`s to it: the elements of
`m_deqConnections`, the owned messages in `m_qMessagesIn`, and those held while
`on_client_connect`, `on_client_validated` or `on_message` runs.  The handlers
that are posted or started for a connection refer to it by `this` and keep
nothing alive.

The derived class decides about a client and greets it in `on_client_connect`;
it calls `send`, `disconnect`, `message_client` and `message_all_clients` for
connections that somebody owns.

Main fact: `step_cases`, what each event does.
-/

namespace SpeciesSimulator

open ByteLayout Transition

universe u

variable {T : Type u}

structure ServerInterface (T : Type u) where
  registry : Registry T := {}
  nIDCounter : UInt32 := 10000
  qMessagesIn : List (ConnId × Message T) := []
  dispatching : Option ConnId := none
  handler : Option ConnId := none

/-- What can happen next: `handlerReturn` and `messageReturn` are the ends of
`on_client_validated` and `on_message`. -/
inductive InterfaceEvent (T : Type u) where
  | accept (now : UInt64) (greetings : List (Message T)) (approved : Bool)
  | io (c : ConnId) (e : IoEvent)
  | handlerReturn
  | popMessage
  | messageReturn
  | send (c : ConnId) (msg : Message T)
  | disconnect (c : ConnId)
  | messageClient (client : Option ConnId) (msg : Message T)
  | messageAllClients (msg : Message T) (pIgnoreClient : Option ConnId)

namespace ServerInterface

section Owners

/-- The connections that something outside the registry keeps alive. -/
def held (s : ServerInterface T) : List ConnId :=
  s.qMessagesIn.map Prod.fst ++ s.dispatching.toList ++ s.handler.toList

/-- Some `shared_ptr` keeps the connection alive. -/
def Owned (s : ServerInterface T) (c : ConnId) : Prop :=
  some c ∈ s.registry.deqConnections ∨ c ∈ s.held

instance (s : ServerInterface T) (c : ConnId) : Decidable (s.Owned c) :=
  inferInstanceAs (Decidable (_ ∨ _))

end Owners

section Model

/-- `f` is called on a connection. -/
def modify
    (s : ServerInterface T) (c : ConnId)
    (f : Connection T → Connection T) : ServerInterface T :=
  { s with
    registry :=
      { s.registry with connections := s.registry.connections.modify c f } }

/-- The connection that the accept handler makes, after `on_client_connect` has
greeted the client. -/
def greet [Inhabited T] (now : UInt64) (greetings : List (Message T)) :
    Connection T :=
  greetings.foldl Connection.send (Connection.make .server now true)

/-- The accept handler; a connection that is not approved is dropped, which
closes its socket. -/
def accept [Inhabited T]
    (s : ServerInterface T) (now : UInt64) (greetings : List (Message T))
    (approved : Bool) : ServerInterface T :=
  let conn := greet now greetings
  if approved then
    { s with
      registry :=
        { s.registry with
          connections :=
            s.registry.connections ++ [conn.connectToClient s.nIDCounter]
          deqConnections :=
            s.registry.deqConnections ++
              [some s.registry.connections.length] }
      nIDCounter := s.nIDCounter + 1 }
  else
    { s with
      registry :=
        { s.registry with
          connections := s.registry.connections ++ [conn.close] } }

/-- What a handler of a connection leaves behind. -/
def afterIo
    (s : ServerInterface T) (c : ConnId) (conn : Connection T)
    (u : Upcall T) : ServerInterface T :=
  let s :=
    { s with
      registry :=
        { s.registry with
          connections := s.registry.connections.set c conn } }
  match u with
  | .none => s
  | .incoming msg => { s with qMessagesIn := s.qMessagesIn ++ [(c, msg)] }
  | .validated => { s with handler := some c }

variable [Inhabited T] [Layout (MessageHeader T)]

def step (s : ServerInterface T) (e : InterfaceEvent T) :
    Option (ServerInterface T) :=
  if s.registry.fault.isSome then none
  else
    match e with
    | .accept now greetings approved =>
        if s.handler.isNone then some (s.accept now greetings approved)
        else none
    | .io c e =>
        if e.movesBytes ∨ s.handler.isNone then
          match s.registry.connections[c]? with
          | none => none
          | some conn =>
              match conn.ioStep e with
              | none => none
              | some (conn', u) => some (s.afterIo c conn' u)
        else none
    | .handlerReturn =>
        match s.handler with
        | none => none
        | some c =>
            some { s.modify c (·.mfReadHeader) with handler := none }
    | .popMessage =>
        match s.dispatching, s.qMessagesIn with
        | none, (c, _) :: rest =>
            some { s with qMessagesIn := rest, dispatching := some c }
        | _, _ => none
    | .messageReturn =>
        match s.dispatching with
        | none => none
        | some _ => some { s with dispatching := none }
    | .send c msg =>
        if s.Owned c then some (s.modify c (·.send msg)) else none
    | .disconnect c =>
        if s.Owned c then some (s.modify c (·.disconnect)) else none
    | .messageClient client msg =>
        if ∀ c, client = some c → s.Owned c then
          some { s with registry := s.registry.messageClient client msg }
        else none
    | .messageAllClients msg pIgnoreClient =>
        some
          { s with
            registry := s.registry.messageAllClients msg pIgnoreClient }

end Model

section Inversion

variable [Inhabited T] [Layout (MessageHeader T)]

/-- What a step of the interface does, event by event. -/
inductive InterfaceStep (s : ServerInterface T) :
    InterfaceEvent T → ServerInterface T → Prop
  | approve {now : UInt64} {greetings : List (Message T)}
      (hidle : s.handler = none) :
      InterfaceStep s (.accept now greetings true)
        { s with
          registry :=
            { s.registry with
              connections :=
                s.registry.connections ++
                  [(greet now greetings).connectToClient s.nIDCounter]
              deqConnections :=
                s.registry.deqConnections ++
                  [some s.registry.connections.length] }
          nIDCounter := s.nIDCounter + 1 }
  | refuse {now : UInt64} {greetings : List (Message T)}
      (hidle : s.handler = none) :
      InterfaceStep s (.accept now greetings false)
        { s with
          registry :=
            { s.registry with
              connections :=
                s.registry.connections ++ [(greet now greetings).close] } }
  | io {c : ConnId} {e : IoEvent} {conn conn' : Connection T} {u : Upcall T}
      (hidle : e.movesBytes = true ∨ s.handler = none)
      (hconn : s.registry.connections[c]? = some conn)
      (hio : Connection.IoStep conn e conn' u) :
      InterfaceStep s (.io c e) (s.afterIo c conn' u)
  | handlerReturn {c : ConnId}
      (hc : s.handler = some c) :
      InterfaceStep s .handlerReturn
        { s.modify c (·.mfReadHeader) with handler := none }
  | popMessage {c : ConnId} {msg : Message T}
      {rest : List (ConnId × Message T)}
      (hidle : s.dispatching = none)
      (hq : s.qMessagesIn = (c, msg) :: rest) :
      InterfaceStep s .popMessage
        { s with qMessagesIn := rest, dispatching := some c }
  | messageReturn {c : ConnId}
      (hc : s.dispatching = some c) :
      InterfaceStep s .messageReturn { s with dispatching := none }
  | send {c : ConnId} {msg : Message T}
      (howned : s.Owned c) :
      InterfaceStep s (.send c msg) (s.modify c (·.send msg))
  | disconnect {c : ConnId}
      (howned : s.Owned c) :
      InterfaceStep s (.disconnect c) (s.modify c (·.disconnect))
  | messageClient {client : Option ConnId} {msg : Message T}
      (howned : ∀ c, client = some c → s.Owned c) :
      InterfaceStep s (.messageClient client msg)
        { s with registry := s.registry.messageClient client msg }
  | messageAllClients {msg : Message T} {pIgnoreClient : Option ConnId} :
      InterfaceStep s (.messageAllClients msg pIgnoreClient)
        { s with
          registry := s.registry.messageAllClients msg pIgnoreClient }

theorem step_cases
    {s s' : ServerInterface T} {e : InterfaceEvent T}
    (hstep : s.step e = some s') :
    s.registry.fault = none ∧ InterfaceStep s e s' := by
  unfold step at hstep
  split at hstep
  · cases hstep
  · next hfault =>
    refine ⟨by simpa using hfault, ?_⟩
    cases e with
    | accept now greetings approved =>
        simp only at hstep
        split at hstep
        · next hidle =>
          have hidle : s.handler = none := Option.isNone_iff_eq_none.mp hidle
          cases hstep
          cases approved with
          | true => exact .approve hidle
          | false => exact .refuse hidle
        · cases hstep
    | io c e =>
        simp only at hstep
        split at hstep
        · next hguard =>
          have hidle : e.movesBytes = true ∨ s.handler = none :=
            hguard.imp_right Option.isNone_iff_eq_none.mp
          split at hstep
          · cases hstep
          · next conn hconn =>
            split at hstep
            · cases hstep
            · next conn' u hio =>
              cases hstep
              exact .io hidle hconn (Connection.ioStep_cases hio)
        · cases hstep
    | handlerReturn =>
        simp only at hstep
        split at hstep
        · cases hstep
        · next c hc =>
          cases hstep
          exact .handlerReturn hc
    | popMessage =>
        simp only at hstep
        split at hstep
        · next hidle hq =>
          cases hstep
          exact .popMessage hidle hq
        · cases hstep
    | messageReturn =>
        simp only at hstep
        split at hstep
        · cases hstep
        · next c hc =>
          cases hstep
          exact .messageReturn hc
    | send c msg =>
        simp only at hstep
        split at hstep
        · next howned =>
          cases hstep
          exact .send howned
        · cases hstep
    | disconnect c =>
        simp only at hstep
        split at hstep
        · next howned =>
          cases hstep
          exact .disconnect howned
        · cases hstep
    | messageClient client msg =>
        simp only at hstep
        split at hstep
        · next howned =>
          cases hstep
          exact .messageClient howned
        · cases hstep
    | messageAllClients msg pIgnoreClient =>
        cases hstep
        exact .messageAllClients

end Inversion

end ServerInterface

end SpeciesSimulator
