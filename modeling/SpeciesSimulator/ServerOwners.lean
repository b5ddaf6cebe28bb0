import SpeciesSimulator.Lib.ListSlots
import SpeciesSimulator.ServerInterface

/-!
# Owners of connections with pending handlers

Every handler of a connection refers to it by `this`, so that the connection
has to be kept alive by somebody else as long as something is posted or started
for it.

Main facts:
* `step_handlersOwned`, `not_handlersOwned_of_step`: what a step does to the
  owners of pending handlers;
* `handlers_owned_iff`: in every state of a run every connection with pending
  handlers has an owner, if and only if nobody drops the last owner of one: the
  accept handler by refusing a client that was sent something,
  `message_all_clients` by taking a closed client out, or the end of a callback
  for a client that was taken out before.
-/

namespace SpeciesSimulator

open ByteLayout Transition ListSlots

universe u

variable {T : Type u}

namespace Connection

section Pending

/-- Something is posted or started for the connection. -/
def Pending (c : Connection T) : Prop :=
  c.posted ≠ [] ∨ 0 < c.closing ∨ c.connecting = true ∨ c.reads ≠ [] ∨
    c.writes ≠ []

/-- A handler that runs was pending. -/
theorem pending_of_ioStep [Layout (MessageHeader T)]
    {c c' : Connection T} {e : IoEvent} {u : Upcall T}
    (hio : IoStep c e c' u) :
    c.Pending := by
  have hposted {i : Nat} {msg : Message T}
      (h : c.posted[i]? = some msg) : c.Pending := by
    refine Or.inl fun hnil => ?_
    rw [hnil] at h
    simp at h
  have hreads {i : Nat} {r : PendingRead}
      (h : c.reads[i]? = some r) : c.Pending := by
    refine Or.inr (Or.inr (Or.inr (Or.inl fun hnil => ?_)))
    rw [hnil] at h
    simp at h
  have hwrites {i : Nat} {w : PendingWrite}
      (h : c.writes[i]? = some w) : c.Pending := by
    refine Or.inr (Or.inr (Or.inr (Or.inr fun hnil => ?_)))
    rw [hnil] at h
    simp at h
  cases hio with
  | runSend hmsg => exact hposted hmsg
  | runClose hclosing => exact Or.inr (Or.inl hclosing)
  | connected hconn => exact Or.inr (Or.inr (Or.inl hconn))
  | connectFailed hconn => exact Or.inr (Or.inr (Or.inl hconn))
  | recv hr => exact hreads hr
  | readDone hr => exact hreads hr
  | readFail hr => exact hreads hr
  | transfer hw => exact hwrites hw
  | writeDone hw => exact hwrites hw
  | writeFail hw => exact hwrites hw

theorem pending_mfReadHeader [Layout (MessageHeader T)]
    (c : Connection T) :
    c.mfReadHeader.Pending := by
  refine Or.inr (Or.inr (Or.inr (Or.inl ?_)))
  simp [mfReadHeader, asyncRead]

end Pending

end Connection

namespace ServerInterface

section Model

/-- Every connection with pending handlers has an owner. -/
def HandlersOwned (s : ServerInterface T) : Prop :=
  Every (fun c conn => conn.Pending → s.Owned c) s.registry.connections

/-- The step does not drop the last owner of a connection with pending
handlers: a client that is refused was sent nothing; whoever
`message_all_clients` takes out is held or has nothing pending; and when
`on_message` or `on_client_validated` returns, its client is owned otherwise or,
for `on_message`, has nothing pending. -/
def KeepsOwners (s : ServerInterface T) : InterfaceEvent T → Prop
  | .accept _ greetings approved => approved = true ∨ greetings = []
  | .messageAllClients _ _ =>
      ∀ (c : ConnId) (conn : Connection T),
        s.registry.connections[c]? = some conn →
          some c ∈ s.registry.deqConnections → conn.isOpen = false →
            conn.Pending → c ∈ s.held
  | .messageReturn =>
      ∀ (c : ConnId) (conn : Connection T), s.dispatching = some c →
        s.registry.connections[c]? = some conn → conn.Pending →
          Owned { s with dispatching := none } c
  | .handlerReturn =>
      ∀ c : ConnId, s.handler = some c → Owned { s with handler := none } c
  | _ => True

/-- Pointers are to connections that were made; the registry has no empty
entries. -/
structure InterfaceInv (s : ServerInterface T) : Prop where
  nonnull : none ∉ s.registry.deqConnections
  known : ∀ c, s.Owned c → c < s.registry.connections.length

theorem mem_held
    {s : ServerInterface T} {c : ConnId} :
    c ∈ s.held ↔
      c ∈ s.qMessagesIn.map Prod.fst ∨ s.dispatching = some c ∨
        s.handler = some c := by
  simp only [held, List.mem_append, Option.mem_toList, or_assoc]

end Model

section Greetings

/-- Greeting a client posts handlers. -/
theorem greet_fields [Inhabited T]
    (now : UInt64) (greetings : List (Message T)) :
    (greet now greetings).posted = greetings ∧
      (greet now greetings).closing = 0 ∧
      (greet now greetings).connecting = false ∧
      (greet now greetings).reads = [] ∧
      (greet now greetings).writes = [] := by
  have hfold :
      ∀ (c : Connection T) (msgs : List (Message T)),
        msgs.foldl Connection.send c =
          { c with posted := c.posted ++ msgs } := by
    intro c msgs
    induction msgs generalizing c with
    | nil => simp
    | cons msg msgs ih => rw [List.foldl_cons, ih]; simp [Connection.send]
  unfold greet
  rw [hfold]
  exact ⟨rfl, rfl, rfl, rfl, rfl⟩

/-- A refused client was sent something, or nothing is pending for it. -/
theorem pending_refused_iff [Inhabited T]
    (now : UInt64) (greetings : List (Message T)) :
    (greet now greetings).close.Pending ↔ greetings ≠ [] := by
  obtain ⟨hposted, hclosing, hconn, hreads, hwrites⟩ :=
    greet_fields now greetings
  show (greet now greetings).Pending ↔ _
  unfold Connection.Pending
  rw [hposted, hclosing, hconn, hreads, hwrites]
  simp

end Greetings

section Frame

variable {s s' : ServerInterface T}

/-- Whoever is owned in a step is owned before it or a connection that the step
is about. -/
theorem InterfaceInv.of_owned
    (h : InterfaceInv s)
    (hnull : none ∉ s'.registry.deqConnections)
    (hlen :
      s.registry.connections.length ≤ s'.registry.connections.length)
    (hown :
      ∀ c, s'.Owned c →
        s.Owned c ∨ c < s'.registry.connections.length) :
    InterfaceInv s' := by
  refine ⟨hnull, fun c hc => ?_⟩
  rcases hown c hc with hold | hnew
  · exact Nat.lt_of_lt_of_le (h.known c hold) hlen
  · exact hnew

/-- Owners stay, and what is new is pending for somebody who is owned. -/
theorem HandlersOwned.of_step
    (h : HandlersOwned s)
    (hconn :
      ∀ (c : ConnId) (conn' : Connection T),
        s'.registry.connections[c]? = some conn' → conn'.Pending →
          s'.Owned c ∨ s.registry.connections[c]? = some conn')
    (hown :
      ∀ (c : ConnId) (conn : Connection T),
        s.registry.connections[c]? = some conn → conn.Pending →
          s.Owned c → s'.Owned c) :
    HandlersOwned s' := by
  intro c conn' hconn' hpending
  rcases hconn c conn' hconn' hpending with howned | hsame
  · exact howned
  · exact hown c conn' hsame hpending (h c conn' hsame hpending)

/-- A call on a connection that is owned. -/
theorem HandlersOwned.modify
    {c : ConnId} {f : Connection T → Connection T}
    (h : HandlersOwned s)
    (hconn :
      s'.registry.connections = s.registry.connections.modify c f)
    (howned : s'.Owned c)
    (hown : ∀ c, s.Owned c → s'.Owned c) :
    HandlersOwned s' := by
  refine h.of_step ?_ fun c _ _ _ => hown c
  intro c' conn' hconn' _
  by_cases hc : c = c'
  · exact Or.inl (hc ▸ howned)
  · right
    rw [hconn, List.getElem?_modify] at hconn'
    simpa [hc] using hconn'

end Frame

section Steps

variable [Inhabited T] [Layout (MessageHeader T)]
variable {s s' : ServerInterface T} {e : InterfaceEvent T}

omit [Inhabited T] in
/-- What a handler leaves behind has the owners that were there, and at most one
more, for its own connection. -/
theorem owned_afterIo
    {c : ConnId} {e : IoEvent} {conn conn' : Connection T} {u : Upcall T}
    (hidle : e.movesBytes = true ∨ s.handler = none)
    (hio : Connection.IoStep conn e conn' u)
    (c' : ConnId) :
    (s.Owned c' → (s.afterIo c conn' u).Owned c') ∧
      ((s.afterIo c conn' u).Owned c' → s.Owned c' ∨ c' = c) := by
  cases u with
  | none => exact ⟨id, Or.inl⟩
  | incoming msg =>
      simp only [Owned, afterIo, mem_held, List.map_append, List.mem_append,
        List.map_cons, List.map_nil, List.mem_singleton]
      constructor
      · rintro (hdeq | hq | hrest)
        · exact Or.inl hdeq
        · exact Or.inr (Or.inl (Or.inl hq))
        · exact Or.inr (Or.inr hrest)
      · rintro (hdeq | (hq | hc) | hrest)
        · exact Or.inl (Or.inl hdeq)
        · exact Or.inl (Or.inr (Or.inl hq))
        · exact Or.inr hc
        · exact Or.inl (Or.inr (Or.inr hrest))
  | validated =>
      -- no other handler runs at the time
      have hnone : s.handler = none := by
        rcases hidle with hmoves | hnone
        · cases Server.upcall_of_movesBytes hio hmoves
        · exact hnone
      simp only [Owned, afterIo, mem_held, hnone, Option.some.injEq, reduceCtorEq,
        or_false]
      constructor
      · rintro (hdeq | hq | hdispatching)
        · exact Or.inl hdeq
        · exact Or.inr (Or.inl hq)
        · exact Or.inr (Or.inr (Or.inl hdispatching))
      · rintro (hdeq | hq | hdispatching | hc)
        · exact Or.inl (Or.inl hdeq)
        · exact Or.inl (Or.inr (Or.inl hq))
        · exact Or.inl (Or.inr (Or.inr hdispatching))
        · exact Or.inr hc.symm

omit [Inhabited T] [Layout (MessageHeader T)] in
theorem afterIo_registry
    (c : ConnId) (conn' : Connection T) (u : Upcall T) :
    (s.afterIo c conn' u).registry =
      { s.registry with
        connections := s.registry.connections.set c conn' } := by
  cases u with
  | none => rfl
  | incoming msg => rfl
  | validated => rfl

omit [Inhabited T] [Layout (MessageHeader T)] in
/-- The end of `on_message` and of `on_client_validated` drops a pointer. -/
theorem owned_of_return
    {c : ConnId} :
    (s.Owned c →
        s.dispatching = some c ∨ Owned { s with dispatching := none } c) ∧
      (s.Owned c → s.handler = some c ∨ Owned { s with handler := none } c) ∧
      (Owned { s with dispatching := none } c → s.Owned c) ∧
      (Owned { s with handler := none } c → s.Owned c) := by
  simp only [Owned, mem_held, reduceCtorEq, false_or, or_false]
  tauto

omit [Inhabited T] [Layout (MessageHeader T)] in
/-- A message keeps its connection while `on_message` runs. -/
theorem owned_popMessage
    {c : ConnId} {msg : Message T} {rest : List (ConnId × Message T)}
    (hidle : s.dispatching = none)
    (hq : s.qMessagesIn = (c, msg) :: rest)
    (c' : ConnId) :
    Owned { s with qMessagesIn := rest, dispatching := some c } c' ↔
      s.Owned c' := by
  simp only [Owned, mem_held, hidle, hq, List.map_cons, List.mem_cons,
    Option.some.injEq, reduceCtorEq, false_or]
  rw [eq_comm (a := c)]
  tauto

omit [Inhabited T] [Layout (MessageHeader T)] in
/-- `message_client` drops nobody. -/
theorem owned_messageClient
    (h : InterfaceInv s)
    (client : Option ConnId) (msg : Message T) (c : ConnId) :
    Owned { s with registry := s.registry.messageClient client msg } c ↔
      s.Owned c := by
  obtain ⟨_, hdeq⟩ := s.registry.messageClient_frame client msg
  show some c ∈ (s.registry.messageClient client msg).deqConnections ∨ _ ↔ _
  rw [hdeq h.nonnull]
  exact Iff.rfl

omit [Inhabited T] [Layout (MessageHeader T)] in
/-- `message_all_clients` drops the clients whose socket is closed. -/
theorem owned_messageAllClients
    (h : InterfaceInv s)
    (hfault : s.registry.fault = none)
    (msg : Message T) (pIgnoreClient : Option ConnId) (c : ConnId) :
    Owned
        { s with
          registry := s.registry.messageAllClients msg pIgnoreClient } c ↔
      some c ∈ s.registry.deqConnections ∧
          s.registry.isConnected (some c) = true ∨
        c ∈ s.held := by
  obtain ⟨hdeq, _⟩ :=
    s.registry.messageAllClients_spec msg pIgnoreClient h.nonnull hfault
  show some c ∈ (s.registry.messageAllClients msg _).deqConnections ∨ _ ↔ _
  rw [hdeq, List.mem_filter]
  exact Iff.rfl

/-- Every step keeps the pointers in range. -/
theorem step_interfaceInv
    (s : ServerInterface T) (e : InterfaceEvent T) (s' : ServerInterface T)
    (h : InterfaceInv s)
    (hstep : s.step e = some s') :
    InterfaceInv s' := by
  obtain ⟨hfault, hcases⟩ := step_cases hstep
  cases hcases with
  | @approve now greetings hidle =>
      refine h.of_owned ?_ ?_ ?_
      · simpa using h.nonnull
      · simp
      · rintro c (hdeq | hheld)
        · rcases List.mem_append.mp hdeq with hdeq | hnew
          · exact Or.inl (Or.inl hdeq)
          · obtain rfl : c = s.registry.connections.length := by
              simpa using hnew
            exact Or.inr (by simp)
        · exact Or.inl (Or.inr hheld)
  | @refuse now greetings hidle =>
      exact h.of_owned h.nonnull (by simp) fun c hc => Or.inl hc
  | @io c e conn conn' u hidle hconn hio =>
      have hlt : c < s.registry.connections.length :=
        (List.getElem?_eq_some_iff.mp hconn).1
      refine h.of_owned ?_ ?_ ?_
      · rw [afterIo_registry]
        exact h.nonnull
      · simp [afterIo_registry]
      · intro c' hc'
        rcases (owned_afterIo hidle hio c').2 hc' with hold | rfl
        · exact Or.inl hold
        · right
          simpa [afterIo_registry] using hlt
  | @handlerReturn c hc =>
      refine h.of_owned h.nonnull (by simp [modify]) ?_
      exact fun c' hc' => Or.inl (owned_of_return.2.2.2 hc')
  | popMessage hidle hq =>
      refine h.of_owned h.nonnull (Nat.le_refl _) ?_
      exact fun c' hc' => Or.inl ((owned_popMessage hidle hq c').mp hc')
  | messageReturn hc =>
      refine h.of_owned h.nonnull (Nat.le_refl _) ?_
      exact fun c' hc' => Or.inl (owned_of_return.2.2.1 hc')
  | send howned =>
      exact h.of_owned h.nonnull (by simp [modify]) fun c hc => Or.inl hc
  | disconnect howned =>
      exact h.of_owned h.nonnull (by simp [modify]) fun c hc => Or.inl hc
  | @messageClient client msg howned =>
      obtain ⟨⟨hlen, _⟩, hdeq⟩ := s.registry.messageClient_frame client msg
      refine h.of_owned ?_ hlen.ge ?_
      · rw [hdeq h.nonnull]
        exact h.nonnull
      · exact fun c hc => Or.inl ((owned_messageClient h client msg c).mp hc)
  | @messageAllClients msg pIgnoreClient =>
      obtain ⟨hlen, _⟩ :=
        s.registry.messageAllClients_connections msg pIgnoreClient
      obtain ⟨hdeq, _⟩ :=
        s.registry.messageAllClients_spec msg pIgnoreClient h.nonnull hfault
      refine h.of_owned ?_ hlen.ge ?_
      · rw [hdeq]
        exact fun hnull => h.nonnull (List.mem_of_mem_filter hnull)
      · intro c hc
        rcases (owned_messageAllClients h hfault msg _ c).mp hc with
          ⟨hmem, _⟩ | hheld
        · exact Or.inl (Or.inl hmem)
        · exact Or.inl (Or.inr hheld)

/-- A step that drops no last owner keeps the owners of pending handlers. -/
theorem step_handlersOwned
    (h : InterfaceInv s)
    (howned : HandlersOwned s)
    (hkeeps : KeepsOwners s e)
    (hstep : s.step e = some s') :
    HandlersOwned s' := by
  obtain ⟨hfault, hcases⟩ := step_cases hstep
  cases hcases with
  | @approve now greetings hidle =>
      refine howned.of_step ?_ ?_
      · intro c conn' hconn' _
        rcases getElem?_concat_cases hconn' with hold | ⟨rfl, _⟩
        · exact Or.inr hold
        · exact Or.inl (Or.inl (List.mem_append_right _ (by simp)))
      · rintro c conn _ _ (hdeq | hheld)
        · exact Or.inl (List.mem_append_left _ hdeq)
        · exact Or.inr hheld
  | @refuse now greetings hidle =>
      have hnone : greetings = [] := by
        rcases hkeeps with hcontra | hnone
        · cases hcontra
        · exact hnone
      refine howned.of_step ?_ fun _ _ _ _ hc => hc
      intro c conn' hconn' hpending
      rcases getElem?_concat_cases hconn' with hold | ⟨_, rfl⟩
      · exact Or.inr hold
      · exact absurd hnone ((pending_refused_iff now greetings).mp hpending)
  | @io c e conn conn' u hidle hconn hio =>
      have hc : s.Owned c :=
        howned c conn hconn (Connection.pending_of_ioStep hio)
      refine howned.of_step ?_ fun c' _ _ _ => (owned_afterIo hidle hio c').1
      intro c' conn₁ hconn₁ _
      rw [afterIo_registry] at hconn₁
      by_cases hc' : c = c'
      · exact Or.inl (hc' ▸ (owned_afterIo hidle hio c).1 hc)
      · right
        simpa [List.getElem?_set_ne hc'] using hconn₁
  | @handlerReturn c hc =>
      have hown : ∀ c', s.Owned c' → Owned { s with handler := none } c' := by
        intro c' hc'
        rcases owned_of_return.2.1 hc' with hhandler | hrest
        · exact hkeeps c' hhandler
        · exact hrest
      exact howned.modify rfl (hkeeps c hc) hown
  | popMessage hidle hq =>
      refine howned.of_step (fun _ _ hconn' _ => Or.inr hconn') ?_
      exact fun c _ _ _ => (owned_popMessage hidle hq c).mpr
  | @messageReturn c hc =>
      refine howned.of_step (fun _ _ hconn' _ => Or.inr hconn') ?_
      intro c' conn hconn hpending hc'
      rcases owned_of_return.1 hc' with hdispatching | hrest
      · exact hkeeps c' conn hdispatching hconn hpending
      · exact hrest
  | send hc => exact howned.modify rfl hc fun _ => id
  | disconnect hc => exact howned.modify rfl hc fun _ => id
  | @messageClient client msg hclient =>
      obtain ⟨⟨_, hconn⟩, _⟩ := s.registry.messageClient_frame client msg
      refine howned.of_step ?_ ?_
      · intro c conn' hconn' _
        rcases hconn c with hsame | hc
        · exact Or.inr (hsame ▸ hconn')
        · exact Or.inl ((owned_messageClient h client msg c).mpr (hclient c hc))
      · exact fun c _ _ _ => (owned_messageClient h client msg c).mpr
  | @messageAllClients msg pIgnoreClient =>
      obtain ⟨_, hconn⟩ :=
        s.registry.messageAllClients_connections msg pIgnoreClient
      have howned' := owned_messageAllClients h hfault msg pIgnoreClient
      refine howned.of_step ?_ ?_
      · intro c conn' hconn' _
        rcases hconn c with hsame | hconnected
        · exact Or.inr (hsame ▸ hconn')
        · exact Or.inl ((howned' c).mpr (Or.inl hconnected))
      · rintro c conn hconn hpending (hmem | hheld)
        · refine (howned' c).mpr ?_
          cases hopen : conn.isOpen with
          | true =>
              refine Or.inl ⟨hmem, ?_⟩
              simp [Registry.isConnected, hconn, hopen]
          | false => exact Or.inr (hkeeps c conn hconn hmem hopen hpending)
        · exact (howned' c).mpr (Or.inr hheld)

/-- A step that drops the last owner of a connection with pending handlers
leaves it without one. -/
theorem not_handlersOwned_of_step
    (h : InterfaceInv s)
    (hdrops : ¬ KeepsOwners s e)
    (hstep : s.step e = some s') :
    ¬ HandlersOwned s' := by
  obtain ⟨hfault, hcases⟩ := step_cases hstep
  cases hcases with
  | approve => exact absurd (Or.inl rfl) hdrops
  | @refuse now greetings hidle =>
      have hsome : greetings ≠ [] := fun hnil => hdrops (Or.inr hnil)
      intro howned
      have hc :=
        howned s.registry.connections.length (greet now greetings).close
          (by simp) ((pending_refused_iff now greetings).mpr hsome)
      have hlt : s.registry.connections.length < s.registry.connections.length :=
        h.known _ hc
      exact absurd hlt (Nat.lt_irrefl _)
  | io => exact absurd trivial hdrops
  | @handlerReturn c hc =>
      simp only [KeepsOwners, not_forall] at hdrops
      obtain ⟨c', hc', hlost⟩ := hdrops
      have hlt : c' < s.registry.connections.length :=
        h.known c' (Or.inr (mem_held.mpr (Or.inr (Or.inr hc'))))
      obtain rfl := Option.some.inj (hc.symm.trans hc')
      intro howned
      refine
        hlost
          (howned c (s.registry.connections[c]).mfReadHeader ?_
            (Connection.pending_mfReadHeader _))
      show (s.registry.connections.modify c (·.mfReadHeader))[c]? = _
      rw [List.getElem?_modify_eq, List.getElem?_eq_getElem hlt]
      rfl
  | popMessage => exact absurd trivial hdrops
  | @messageReturn c hc =>
      simp only [KeepsOwners, not_forall] at hdrops
      obtain ⟨c', conn, _, hconn, hpending, hlost⟩ := hdrops
      exact fun howned => hlost (howned c' conn hconn hpending)
  | send => exact absurd trivial hdrops
  | disconnect => exact absurd trivial hdrops
  | messageClient => exact absurd trivial hdrops
  | @messageAllClients msg pIgnoreClient =>
      simp only [KeepsOwners, not_forall] at hdrops
      obtain ⟨c, conn, hconn, hmem, hclosed, hpending, hlost⟩ := hdrops
      obtain ⟨_, hsame⟩ :=
        s.registry.messageAllClients_connections msg pIgnoreClient
      have hnot : ¬ s.registry.isConnected (some c) = true := by
        simp [Registry.isConnected, hconn, hclosed]
      have hconn' :
          (s.registry.messageAllClients msg pIgnoreClient).connections[c]? =
            some conn := by
        rcases hsame c with hsame | ⟨_, hopen⟩
        · exact hsame.trans hconn
        · exact absurd hopen hnot
      intro howned
      rcases (owned_messageAllClients h hfault msg _ c).mp
        (howned c conn hconn' hpending) with ⟨_, hopen⟩ | hheld
      · exact hnot hopen
      · exact hlost hheld

end Steps

section Runs

theorem interfaceInv_empty :
    InterfaceInv ({} : ServerInterface T) := by
  refine ⟨by simp, ?_⟩
  rintro c (hdeq | hheld)
  · cases hdeq
  · cases hheld

theorem handlersOwned_empty :
    HandlersOwned ({} : ServerInterface T) :=
  every_nil

variable [Inhabited T] [Layout (MessageHeader T)]
variable {s : ServerInterface T} {es : List (InterfaceEvent T)}

/-- A step that drops no last owner keeps pointers and owners in order. -/
theorem step_owners
    (s : ServerInterface T) (e : InterfaceEvent T) (s' : ServerInterface T)
    (h : InterfaceInv s ∧ HandlersOwned s)
    (hkeeps : KeepsOwners s e)
    (hstep : s.step e = some s') :
    InterfaceInv s' ∧ HandlersOwned s' :=
  ⟨step_interfaceInv s e s' h.1 hstep,
    step_handlersOwned h.1 h.2 hkeeps hstep⟩

/-- In every state of a run every connection with pending handlers has an
owner, if and only if no step of the run drops the last owner of one. -/
theorem handlers_owned_iff
    (hrun : run step {} es = some s) :
    Always step HandlersOwned {} es ↔
      Meets step KeepsOwners ({} : ServerInterface T) es := by
  refine
    always_iff_of_run step_owners (fun s h => h.2) ?_
      ⟨interfaceInv_empty, handlersOwned_empty⟩ hrun
  intro s e s' h hdrops hstep
  exact not_handlersOwned_of_step h.1 hdrops hstep

/-- A client is approved and validated. -/
theorem handlers_owned_iff_one_client :
    ∃ s : ServerInterface MessageType,
      run step {}
          [.accept 1 [Server.acceptMessage] true,
            .io 0 (.recv 0 (toBytes (mfScramble 1))), .io 0 (.readDone 0),
            .handlerReturn] = some s ∧
        Always step HandlersOwned {}
          [.accept 1 [Server.acceptMessage] true,
            .io 0 (.recv 0 (toBytes (mfScramble 1))), .io 0 (.readDone 0),
            .handlerReturn] := by
  have hrun :
      run step ({} : ServerInterface MessageType)
          [.accept 1 [Server.acceptMessage] true,
            .io 0 (.recv 0 (toBytes (mfScramble 1))), .io 0 (.readDone 0),
            .handlerReturn] = some _ := rfl
  refine ⟨_, hrun, (handlers_owned_iff hrun).mpr ?_⟩
  refine meets_cons (Or.inl rfl) fun s₁ h₁ => ?_
  cases h₁
  refine meets_cons trivial fun s₂ h₂ => ?_
  cases h₂
  refine meets_cons trivial fun s₃ h₃ => ?_
  cases h₃
  refine meets_cons ?_ fun _ _ => trivial
  intro c hc
  cases hc
  exact Or.inl (by decide)

/-- The second client is refused: the handler that `send` posted for it is
pending, and nobody owns its connection. -/
theorem handlers_owned_iff_fails_on_refusal :
    ∃ (s : ServerInterface MessageType) (conn : Connection MessageType),
      run step {}
          [.accept 1 [Server.acceptMessage] true,
            .accept 2 [Server.denialMessage] false] = some s ∧
        s.registry.connections[1]? = some conn ∧ conn.posted.length = 1 ∧
        s.registry.deqConnections = [some 0] ∧ s.held = [] ∧
        ¬ HandlersOwned s := by
  refine ⟨_, _, rfl, rfl, rfl, rfl, rfl, fun h => ?_⟩
  have hpending :
      (greet 2 [Server.denialMessage]).close.Pending :=
    (pending_refused_iff 2 _).mpr (by simp)
  rcases h 1 _ rfl hpending with hdeq | hheld
  · revert hdeq
    decide
  · cases hheld

end Runs

end ServerInterface

end SpeciesSimulator
