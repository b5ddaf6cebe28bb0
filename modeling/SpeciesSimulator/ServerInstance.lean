import SpeciesSimulator.ServerGate
import SpeciesSimulator.ServerOwners

/-!
# The server as an instance of the interface

`Server` derives from `Server_Interface`.  What a run of the server does to the
connections and their owners is a run of the interface, in which
`on_client_connect` greets a client with the message of acceptance or of denial
and `on_message` does nothing.

Main facts:
* `step_interface`: a step of the server is a run of the interface;
* `handlers_owned_iff_approves`: in every state of a run of the server every
  connection with pending handlers has an owner, if and only if no client is
  refused.
-/

namespace SpeciesSimulator

open ByteLayout Transition

namespace Server

section Model

/-- The part of a server that it has from `Server_Interface`, between two calls
of `on_message`. -/
def interface (s : Server) : ServerInterface MessageType where
  registry :=
    { connections := s.connections
      deqConnections := s.deqConnections.map some }
  nIDCounter := s.nIDCounter
  qMessagesIn := s.qMessagesIn
  handler := s.handler.map Handler.client

/-- The step refuses nobody. -/
def Approves (s : Server) : ServerEvent → Prop
  | .accept _ => s.deqConnections.length < s.nMapsCount.toNat
  | _ => True

end Model

section Simulation

variable {s s' : Server} {e : ServerEvent}

/-- Some run of the interface does to the connections and their owners what the
step of the server does, and keeps the owners unless a client is refused. -/
def Simulated (s : Server) (e : ServerEvent) (s' : Server) : Prop :=
  ∃ es : List (InterfaceEvent MessageType),
    run ServerInterface.step s.interface es = some s'.interface ∧
      (Approves s e →
        Meets ServerInterface.step ServerInterface.KeepsOwners s.interface es)

/-- Steps that do not concern the interface. -/
theorem simulated_of_eq
    (h : s'.interface = s.interface) :
    Simulated s e s' :=
  ⟨[], by rw [h]; rfl, fun _ => trivial⟩

/-- Steps that are one step of the interface. -/
theorem simulated_of_step
    (e' : InterfaceEvent MessageType)
    (hstep : ServerInterface.step s.interface e' = some s'.interface)
    (hkeeps : Approves s e → ServerInterface.KeepsOwners s.interface e') :
    Simulated s e s' := by
  refine ⟨[e'], ?_, fun h => meets_cons (hkeeps h) fun _ _ => trivial⟩
  rw [run_singleton]
  exact hstep

/-- The accept handler refuses a client. -/
theorem step_interface_of_refuse
    {now : UInt64}
    (hidle : s.handler = none) :
    ServerInterface.step s.interface (.accept now [denialMessage] false) =
      some
        (interface
          { s with
            connections :=
              s.connections ++
                [((Connection.make .server now true).send
                  denialMessage).close] }) := by
  simp [ServerInterface.step, interface, hidle, ServerInterface.accept,
    ServerInterface.greet]

/-- The client of `on_client_validated` is sent a message. -/
theorem step_interface_of_send
    {hd : Handler}
    (hh : s.handler = some hd)
    (msg : Message MessageType) (stage : Stage) :
    ServerInterface.step s.interface (.send hd.client msg) =
      some (interface ((s.sendTo hd.client msg).atStage hd.client stage)) := by
  have howned : s.interface.Owned hd.client := by
    refine Or.inr (ServerInterface.mem_held.mpr (Or.inr (Or.inr ?_)))
    simp [interface, hh]
  have hfault : s.interface.registry.fault = none := rfl
  simp only [ServerInterface.step, hfault, Option.isSome_none, howned, if_true,
    Bool.false_eq_true, if_false]
  simp [interface, ServerInterface.modify, sendTo, atStage, hh]

/-- A message is sent that is not the last one. -/
theorem simulated_of_send
    {hd : Handler}
    (hh : s.handler = some hd)
    (msg : Message MessageType) (stage : Stage)
    (hsame :
      s'.interface =
        ((s.sendTo hd.client msg).atStage hd.client stage).interface) :
    Simulated s e s' := by
  refine simulated_of_step (.send hd.client msg) ?_ fun _ => trivial
  rw [hsame]
  exact step_interface_of_send hh msg stage

/-- The last message is sent, and `on_client_validated` returns. -/
theorem simulated_of_finish
    {hd : Handler}
    (h : GateInv s)
    (hh : s.handler = some hd)
    (msg : Message MessageType)
    (hsame :
      s'.interface =
        ((s.sendTo hd.client msg).finish hd.client).interface) :
    Simulated s e s' := by
  have hsend := step_interface_of_send hh msg .layout
  have happroved := h.handler_approved hh
  refine ⟨[.send hd.client msg, .handlerReturn], ?_, fun _ => ?_⟩
  · rw [run_cons_of_step hsend, run_singleton, hsame]
    rfl
  · refine meets_cons trivial fun t ht => meets_cons ?_ fun _ _ => trivial
    obtain rfl := Option.some.inj (hsend.symm.trans ht)
    intro c hc
    cases hc
    exact Or.inl (List.mem_map_of_mem happroved)

/-- `update` takes a message, whose client is registered, and `on_message` does
nothing with it. -/
theorem simulated_of_update
    {c : ConnId} {msg : Message MessageType}
    {rest : List (ConnId × Message MessageType)}
    (h : GateInv s)
    (hq : s.qMessagesIn = (c, msg) :: rest) :
    Simulated s e { s with qMessagesIn := rest } := by
  have hpop :
      ServerInterface.step s.interface .popMessage =
        some
          { s.interface with qMessagesIn := rest, dispatching := some c } := by
    simp [ServerInterface.step, interface, hq]
  have happroved : c ∈ s.deqConnections := by
    have hval := h.heard (c, msg) (by simp [hq])
    obtain ⟨_, _, hdeq, _⟩ := h.exists_passed hval
    exact hdeq
  refine ⟨[.popMessage, .messageReturn], ?_, fun _ => ?_⟩
  · rw [run_cons_of_step hpop, run_singleton]
    rfl
  · refine meets_cons trivial fun t ht => meets_cons ?_ fun _ _ => trivial
    obtain rfl := Option.some.inj (hpop.symm.trans ht)
    intro c' conn hc' _ _
    cases hc'
    exact Or.inl (List.mem_map_of_mem happroved)

/-- A step of the server is a run of the interface. -/
theorem step_interface
    (h : GateInv s)
    (hstep : s.step e = some s') :
    Simulated s e s' := by
  cases step_cases hstep with
  | startServer => exact simulated_of_eq rfl
  | startEnvironment => exact simulated_of_eq rfl
  | environment => exact simulated_of_eq rfl
  | fault => exact simulated_of_eq rfl
  | acceptFailed => exact simulated_of_eq rfl
  | @approve now hidle hroom =>
      refine simulated_of_step (.accept now [acceptMessage] true) ?_
        fun _ => Or.inl rfl
      simp [ServerInterface.step, interface, hidle, ServerInterface.accept,
        ServerInterface.greet, Connection.acceptConnection]
  | @refuse now hidle hfull =>
      exact simulated_of_step _ (step_interface_of_refuse hidle)
        fun hroom => absurd hroom hfull
  | @io c e conn conn' u hidle hconn hio =>
      refine simulated_of_step (.io c e) ?_ fun _ => trivial
      have hguard :
          e.movesBytes = true ∨ s.interface.handler.isNone = true := by
        refine hidle.imp_right fun hnone => ?_
        simp [interface, hnone]
      have hconn' : s.interface.registry.connections[c]? = some conn := hconn
      have hfault : s.interface.registry.fault = none := rfl
      simp only [ServerInterface.step, hfault, Option.isSome_none, hguard,
        hconn', hio.ioStep_eq, Bool.false_eq_true, if_true, if_false]
      cases u with
      | none => rfl
      | incoming msg => rfl
      | validated => rfl
  | @handler e hd s' hh hhandler =>
      cases hhandler with
      | noMap => exact simulated_of_eq rfl
      | noVector => exact simulated_of_eq rfl
      | noSize => exact simulated_of_eq rfl
      | noEntities => exact simulated_of_eq rfl
      | getVector =>
          refine simulated_of_eq ?_
          simp [interface, atStage, noteAccess, hh]
      | getSize =>
          refine simulated_of_eq ?_
          simp [interface, atStage, noteAccess, hh]
      | sendLayout hstage hmap => exact simulated_of_send hh _ _ rfl
      | sendConfig hstage hmap => exact simulated_of_send hh _ _ rfl
      | sendEntitiesSize hstage hmap hptr hvector =>
          exact simulated_of_send hh _ _ rfl
      | sendEntities hstage hmsg => exact simulated_of_finish h hh _ rfl
  | @update p rest hq => exact simulated_of_update h hq

end Simulation

section Runs

variable {nmapSize : UInt64} {s₀ s s' : Server} {e : ServerEvent}

/-- What a server has from the interface is in order. -/
structure OwnersInv (s : Server) : Prop where
  gates : GateInv s
  pointers : ServerInterface.InterfaceInv s.interface
  owned : ServerInterface.HandlersOwned s.interface

/-- A step that refuses nobody keeps the owners of pending handlers. -/
theorem step_ownersInv
    (s : Server) (e : ServerEvent) (s' : Server)
    (h : OwnersInv s)
    (happroves : Approves s e)
    (hstep : s.step e = some s') :
    OwnersInv s' := by
  obtain ⟨es, hrun, hmeets⟩ := step_interface h.gates hstep
  have hinterface :
      ServerInterface.InterfaceInv s'.interface ∧
        ServerInterface.HandlersOwned s'.interface :=
    run_invariant ServerInterface.step_owners ⟨h.pointers, h.owned⟩
      (hmeets happroves) hrun
  exact ⟨step_gateInv s e s' h.gates hstep, hinterface.1, hinterface.2⟩

/-- Nobody owns the connection of a client that is refused. -/
theorem not_handlersOwned_of_refuse
    (h : OwnersInv s)
    (hrefuses : ¬ Approves s e)
    (hstep : s.step e = some s') :
    ¬ ServerInterface.HandlersOwned s'.interface := by
  cases step_cases hstep with
  | refuse hidle hfull =>
      refine
        ServerInterface.not_handlersOwned_of_step h.pointers ?_
          (step_interface_of_refuse hidle)
      rintro (happroved | hnone)
      · cases happroved
      · cases hnone
  | approve hidle hroom => exact absurd hroom hrefuses
  | startServer => exact absurd trivial hrefuses
  | startEnvironment => exact absurd trivial hrefuses
  | environment => exact absurd trivial hrefuses
  | fault hcause =>
      cases hcause with
      | environment => exact absurd trivial hrefuses
      | acceptReset => exact absurd trivial hrefuses
      | freed => exact absurd trivial hrefuses
  | acceptFailed => exact absurd trivial hrefuses
  | io => exact absurd trivial hrefuses
  | handler => exact absurd trivial hrefuses
  | update => exact absurd trivial hrefuses

/-- In every state of a run of the server every connection with pending handlers
has an owner, if and only if the run refuses nobody. -/
theorem handlers_owned_iff_approves
    {es : List ServerEvent}
    (hmake : make nmapSize = .ok s₀)
    (hrun : run step s₀ es = some s) :
    Always step (fun s => ServerInterface.HandlersOwned s.interface) s₀ es ↔
      Meets step Approves s₀ es := by
  have h₀ : OwnersInv s₀ := by
    obtain ⟨environment, _, rfl⟩ := exists_of_make hmake
    exact
      ⟨gateInv_of_make hmake, ServerInterface.interfaceInv_empty,
        ServerInterface.handlersOwned_empty⟩
  exact
    always_iff_of_run step_ownersInv (fun _ h => h.owned)
      (fun _ _ _ h hrefuses hstep =>
        not_handlersOwned_of_refuse h hrefuses hstep)
      h₀ hrun

end Runs

end Server

end SpeciesSimulator
