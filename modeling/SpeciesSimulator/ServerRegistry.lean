import Mathlib.Data.List.Nodup
import SpeciesSimulator.Server

/-!
# The registry of connections

`m_deqConnections` of `Server_Interface`, with the two functions that send and,
on the way, take out the connections that they find closed.

`message_all_clients` resets the entries it has found closed and erases the
empty ones.  `message_client` is given a copy of the pointer: it resets its own
copy and erases the entries that are equal to it, that is, the empty ones.

`on_client_disconnect` reads the uid of the client, so that a null pointer ends
the process.

Main facts:
* `visitAll_spec`: what the loop of `message_all_clients` does to a registry
  without empty entries;
* `registry_clean_iff`: closed clients are taken out, and reported once, if and
  only if `message_client` meets no closed client that is registered or was
  reported before.
-/

namespace SpeciesSimulator

open ByteLayout Transition

universe u

variable {T : Type u}

/-- A call of `on_client_disconnect`, and whether its pointer was read from the
registry. -/
structure Disconnect where
  client : Option ConnId
  registered : Bool
deriving DecidableEq

/-- The connections there are, and the pointers of `m_deqConnections`; an entry
is empty while `message_all_clients` runs. -/
structure Registry (T : Type u) where
  connections : List (Connection T) := []
  deqConnections : List (Option ConnId) := []
  disconnects : List Disconnect := []
  fault : Option Fault := none

/-- A call of the interface, or something that happens to a connection. -/
inductive RegistryEvent (T : Type u) where
  | messageClient (client : Option ConnId) (msg : Message T)
  | messageAllClients (msg : Message T) (pIgnoreClient : Option ConnId)
  | connection (c : ConnId) (e : ConnEvent T)

/-- Where the loop of `message_all_clients` has got to. -/
structure Visit (T : Type u) where
  registry : Registry T
  clients : List (Option ConnId)
  invalidClientExists : Bool

namespace Registry

section Model

/-- A registry whose clients were not reported yet. -/
def start
    (connections : List (Connection T))
    (deqConnections : List (Option ConnId)) : Registry T where
  connections := connections
  deqConnections := deqConnections

/-- `client && client->is_connected()`. -/
def isConnected (r : Registry T) : Option ConnId → Bool
  | none => false
  | some c =>
      match r.connections[c]? with
      | none => false
      | some conn => conn.isOpen

/-- `client->send(msg)`. -/
def send (r : Registry T) (client : Option ConnId) (msg : Message T) :
    Registry T :=
  match client with
  | none => r
  | some c => { r with connections := r.connections.modify c (·.send msg) }

/-- Reads the uid of the client. -/
def onClientDisconnect
    (r : Registry T) (client : Option ConnId) (registered : Bool) :
    Registry T :=
  { r with
    disconnects := r.disconnects ++ [⟨client, registered⟩]
    fault :=
      match client with
      | none => some .nullPointer
      | some _ => r.fault }

/-- Erase the entries that are equal to a pointer. -/
def erase (r : Registry T) (client : Option ConnId) : Registry T :=
  { r with
    deqConnections := r.deqConnections.filter fun entry => entry ≠ client }

/-- The pointer is reset before the entries are compared with it. -/
def messageClient
    (r : Registry T) (client : Option ConnId) (msg : Message T) :
    Registry T :=
  if r.isConnected client then r.send client msg
  else
    let r := r.onClientDisconnect client false
    if r.fault.isSome then r else r.erase none

/-- The loop over the entries: those found closed are reset. -/
def visitAll (msg : Message T) (pIgnoreClient : Option ConnId) :
    Registry T → List (Option ConnId) → Visit T
  | r, [] => ⟨r, [], false⟩
  | r, client :: rest =>
      if r.isConnected client then
        let r := if client ≠ pIgnoreClient then r.send client msg else r
        let visit := visitAll msg pIgnoreClient r rest
        { visit with clients := client :: visit.clients }
      else
        let r := r.onClientDisconnect client true
        if r.fault.isSome then ⟨r, client :: rest, true⟩
        else
          let visit := visitAll msg pIgnoreClient r rest
          { visit with
            clients := none :: visit.clients
            invalidClientExists := true }

def messageAllClients
    (r : Registry T) (msg : Message T) (pIgnoreClient : Option ConnId) :
    Registry T :=
  let visit := visitAll msg pIgnoreClient r r.deqConnections
  let r : Registry T :=
    { visit.registry with deqConnections := visit.clients }
  if r.fault.isNone ∧ visit.invalidClientExists then r.erase none else r

variable [Layout (MessageHeader T)]

def step (r : Registry T) (e : RegistryEvent T) : Option (Registry T) :=
  if r.fault.isSome then none
  else
    match e with
    | .messageClient client msg => some (r.messageClient client msg)
    | .messageAllClients msg pIgnoreClient =>
        some (r.messageAllClients msg pIgnoreClient)
    | .connection c e =>
        match r.connections[c]? with
        | none => none
        | some conn =>
            match conn.step e with
            | none => none
            | some conn' =>
                some { r with connections := r.connections.set c conn' }

end Model

section Loop

variable {r : Registry T} {msg : Message T} {pIgnoreClient : Option ConnId}

/-- Sending closes no socket. -/
@[simp] theorem isConnected_send
    (client : Option ConnId) (msg : Message T) :
    (r.send client msg).isConnected = r.isConnected := by
  funext client'
  cases client with
  | none => rfl
  | some c =>
      cases client' with
      | none => rfl
      | some c' =>
          simp only [send, isConnected, List.getElem?_modify]
          by_cases hc : c = c'
          · cases r.connections[c']? with
            | none => rfl
            | some conn => simp [hc, Connection.send]
          · simp [hc]

@[simp] theorem send_disconnects
    (client : Option ConnId) (msg : Message T) :
    (r.send client msg).disconnects = r.disconnects := by
  cases client with
  | none => rfl
  | some c => rfl

@[simp] theorem send_fault
    (client : Option ConnId) (msg : Message T) :
    (r.send client msg).fault = r.fault := by
  cases client with
  | none => rfl
  | some c => rfl

@[simp] theorem send_deqConnections
    (client : Option ConnId) (msg : Message T) :
    (r.send client msg).deqConnections = r.deqConnections := by
  cases client with
  | none => rfl
  | some c => rfl

@[simp] theorem isConnected_onClientDisconnect
    (client : Option ConnId) (registered : Bool) :
    (r.onClientDisconnect client registered).isConnected = r.isConnected := by
  rfl

@[simp] theorem isConnected_none :
    r.isConnected none = false := by
  rfl

/-- What the loop does to a registry without empty entries. -/
structure VisitSpec
    (r : Registry T) (entries : List (Option ConnId)) (visit : Visit T) :
    Prop where
  disconnects :
    visit.registry.disconnects =
      r.disconnects ++
        (entries.filter fun client => !r.isConnected client).map
          (⟨·, true⟩)
  fault : visit.registry.fault = r.fault
  clients :
    visit.clients =
      entries.map fun client => if r.isConnected client then client else none
  invalid :
    visit.invalidClientExists = entries.any fun client => !r.isConnected client

theorem visitAll_spec
    {clients : List (Option ConnId)}
    (hnull : none ∉ clients)
    (hfault : r.fault = none) :
    VisitSpec r clients (visitAll msg pIgnoreClient r clients) := by
  induction clients generalizing r with
  | nil =>
      exact ⟨by simp [visitAll], rfl, rfl, rfl⟩
  | cons client rest ih =>
      have hrest : none ∉ rest := fun h => hnull (List.mem_cons_of_mem _ h)
      cases hconn : r.isConnected client with
      | true =>
          have hsend :
              ∀ r' : Registry T,
                r'.disconnects = r.disconnects → r'.fault = r.fault →
                  r'.isConnected = r.isConnected →
                    VisitSpec r (client :: rest)
                      { visitAll msg pIgnoreClient r' rest with
                        clients :=
                          client ::
                            (visitAll msg pIgnoreClient r' rest).clients } := by
            intro r' hdisc hfault' hsame
            have h := ih (r := r') hrest (hfault'.trans hfault)
            refine ⟨?_, h.fault.trans hfault', ?_, ?_⟩
            · simp [h.disconnects, hdisc, hsame, hconn]
            · simp [h.clients, hsame, hconn]
            · simp [h.invalid, hsame, hconn]
          simp only [visitAll, hconn, if_true]
          split
          · exact hsend _ (by simp) (by simp) (by simp)
          · exact hsend r rfl rfl rfl
      | false =>
          obtain ⟨c, rfl⟩ : ∃ c, client = some c := by
            cases client with
            | none => simp at hnull
            | some c => exact ⟨c, rfl⟩
          have h := ih (r := r.onClientDisconnect (some c) true) hrest hfault
          have hfault' : (r.onClientDisconnect (some c) true).fault = none :=
            hfault
          simp only [visitAll, hconn, hfault', Option.isSome_none,
            Bool.false_eq_true, if_false]
          refine ⟨?_, h.fault.trans (hfault'.trans hfault.symm), ?_, ?_⟩
          · simp only [h.disconnects, isConnected_onClientDisconnect, hconn,
              List.filter_cons, Bool.not_false, if_true, List.map_cons]
            simp [onClientDisconnect]
          · simp [h.clients, hconn]
          · simp [hconn]

/-- The loop posts something for open entries only. -/
theorem visitAll_connections
    (msg : Message T) (pIgnoreClient : Option ConnId)
    (entries : List (Option ConnId)) :
    (visitAll msg pIgnoreClient r entries).registry.connections.length =
        r.connections.length ∧
      ∀ c : ConnId,
        (visitAll msg pIgnoreClient r entries).registry.connections[c]? =
            r.connections[c]? ∨
          some c ∈ entries ∧ r.isConnected (some c) = true := by
  induction entries generalizing r with
  | nil => exact ⟨rfl, fun _ => Or.inl rfl⟩
  | cons client rest ih =>
      have hlater :
          ∀ r' : Registry T, r'.isConnected = r.isConnected →
            r'.connections = r.connections →
              (visitAll msg pIgnoreClient r' rest).registry.connections.length =
                  r.connections.length ∧
                ∀ c : ConnId,
                  (visitAll msg pIgnoreClient r' rest).registry.connections[c]? =
                      r.connections[c]? ∨
                    some c ∈ client :: rest ∧ r.isConnected (some c) = true := by
        intro r' hsame hconnections
        obtain ⟨hlen, hconn⟩ := ih (r := r')
        rw [hconnections, hsame] at hconn
        rw [hconnections] at hlen
        refine ⟨hlen, fun c => (hconn c).imp_right ?_⟩
        exact fun h => ⟨List.mem_cons_of_mem _ h.1, h.2⟩
      simp only [visitAll]
      split
      · next hopen =>
        split
        · cases client with
          | none => exact hlater r rfl rfl
          | some c₁ =>
              obtain ⟨hlen, hconn⟩ := ih (r := r.send (some c₁) msg)
              refine ⟨by rw [hlen]; simp [send], fun c => ?_⟩
              by_cases hc : c₁ = c
              · exact Or.inr ⟨by simp [hc], hc ▸ hopen⟩
              · rcases hconn c with hsame | ⟨hmem, hopen'⟩
                · left
                  rw [hsame]
                  simp [send, hc]
                · right
                  rw [isConnected_send] at hopen'
                  exact ⟨List.mem_cons_of_mem _ hmem, hopen'⟩
        · exact hlater r rfl rfl
      · split
        · exact ⟨rfl, fun _ => Or.inl rfl⟩
        · exact hlater _ rfl rfl

/-- The loop reports an empty entry. -/
theorem visitAll_null
    {clients : List (Option ConnId)}
    (hnull : none ∈ clients)
    (hfault : r.fault = none) :
    ⟨none, true⟩ ∈
      (visitAll msg pIgnoreClient r clients).registry.disconnects := by
  induction clients generalizing r with
  | nil => cases hnull
  | cons client rest ih =>
      cases client with
      | none =>
          simp [visitAll, onClientDisconnect]
      | some c =>
          have hrest : none ∈ rest := by simpa using hnull
          simp only [visitAll]
          split
          · split
            · exact ih hrest (by simpa using hfault)
            · exact ih hrest hfault
          · have hfault' : (r.onClientDisconnect (some c) true).fault = none :=
              hfault
            simp only [hfault', Option.isSome_none, Bool.false_eq_true,
              if_false]
            exact ih hrest hfault'

end Loop

section Calls

variable {r : Registry T} {msg : Message T}

/-- Erasing the entries that were reset leaves the others in order. -/
theorem filter_reset
    {p : Option ConnId → Bool}
    (hp : p none = false)
    (entries : List (Option ConnId)) :
    ((entries.map fun client => if p client then client else none).filter
        fun entry => entry ≠ none) =
      entries.filter p := by
  induction entries with
  | nil => rfl
  | cons client rest ih =>
      rw [List.map_cons, List.filter_cons, ih, List.filter_cons]
      cases hclient : p client with
      | true =>
          have hne : client ≠ none := by
            rintro rfl
            rw [hp] at hclient
            cases hclient
          simp [hne]
      | false => simp

/-- The closed entries are taken out and reported. -/
theorem messageAllClients_spec
    (msg : Message T) (pIgnoreClient : Option ConnId)
    (hnull : none ∉ r.deqConnections)
    (hfault : r.fault = none) :
    (r.messageAllClients msg pIgnoreClient).deqConnections =
        r.deqConnections.filter r.isConnected ∧
      (r.messageAllClients msg pIgnoreClient).disconnects =
        r.disconnects ++
          (r.deqConnections.filter fun client => !r.isConnected client).map
            (⟨·, true⟩) ∧
      (r.messageAllClients msg pIgnoreClient).fault = none := by
  have h :
      VisitSpec r r.deqConnections
        (visitAll msg pIgnoreClient r r.deqConnections) :=
    visitAll_spec hnull hfault
  have hfault' := h.fault.trans hfault
  have herase := filter_reset (r.isConnected_none) r.deqConnections
  rw [← h.clients] at herase
  unfold messageAllClients
  simp only [hfault', Option.isNone_none, true_and]
  split
  · exact ⟨herase, h.disconnects, rfl⟩
  · next hvalid =>
    refine ⟨?_, h.disconnects, rfl⟩
    have hall : ∀ client ∈ r.deqConnections, r.isConnected client = true := by
      have hany := h.invalid
      simp only [Bool.not_eq_true] at hvalid
      rw [hvalid] at hany
      simpa using hany.symm
    rw [List.filter_eq_self.mpr hall]
    show (visitAll msg pIgnoreClient r r.deqConnections).clients = _
    rw [h.clients]
    refine (List.map_congr_left ?_).trans (List.map_id _)
    intro client hclient
    simp [hall client hclient]

/-- Only the deque is changed after the visits. -/
theorem messageAllClients_eq
    (msg : Message T) (pIgnoreClient : Option ConnId) :
    ∃ clients,
      r.messageAllClients msg pIgnoreClient =
        { (visitAll msg pIgnoreClient r r.deqConnections).registry with
          deqConnections := clients } := by
  unfold messageAllClients
  dsimp only
  split
  · exact ⟨_, rfl⟩
  · exact ⟨_, rfl⟩

/-- What `message_all_clients` does to the connections. -/
theorem messageAllClients_connections
    (msg : Message T) (pIgnoreClient : Option ConnId) :
    (r.messageAllClients msg pIgnoreClient).connections.length =
        r.connections.length ∧
      ∀ c : ConnId,
        (r.messageAllClients msg pIgnoreClient).connections[c]? =
            r.connections[c]? ∨
          some c ∈ r.deqConnections ∧ r.isConnected (some c) = true := by
  obtain ⟨clients, heq⟩ := messageAllClients_eq (r := r) msg pIgnoreClient
  rw [heq]
  exact visitAll_connections msg pIgnoreClient r.deqConnections

/-- A message to an open connection reports nobody. -/
theorem messageClient_of_connected
    {client : Option ConnId}
    (hconn : r.isConnected client = true) :
    r.messageClient client msg = r.send client msg := by
  simp [messageClient, hconn]

/-- A closed connection is reported, and the empty entries are erased. -/
theorem messageClient_of_closed
    {c : ConnId}
    (hclosed : r.isConnected (some c) = false)
    (hfault : r.fault = none) :
    r.messageClient (some c) msg =
      (r.onClientDisconnect (some c) false).erase none := by
  have hfault' : (r.onClientDisconnect (some c) false).fault = none := hfault
  simp [messageClient, hclosed, hfault']

theorem messageClient_null :
    r.messageClient none msg = r.onClientDisconnect none false := by
  simp [messageClient, onClientDisconnect]

/-- What `message_client` does to the connections and to a registry without
empty entries. -/
theorem messageClient_frame
    (client : Option ConnId) (msg : Message T) :
    ((r.messageClient client msg).connections.length =
        r.connections.length ∧
      ∀ c : ConnId,
        (r.messageClient client msg).connections[c]? = r.connections[c]? ∨
          client = some c) ∧
      (none ∉ r.deqConnections →
        (r.messageClient client msg).deqConnections = r.deqConnections) := by
  cases hconn : r.isConnected client with
  | true =>
      rw [messageClient_of_connected hconn]
      refine ⟨?_, fun _ => send_deqConnections client msg⟩
      cases client with
      | none => exact ⟨rfl, fun _ => Or.inl rfl⟩
      | some c₁ =>
          refine ⟨by simp [send], fun c => ?_⟩
          by_cases hc : c₁ = c
          · exact Or.inr (by rw [hc])
          · exact Or.inl (by simp [send, hc])
  | false =>
      have hrest :
          (r.messageClient client msg).connections = r.connections ∧
            ((r.messageClient client msg).deqConnections = r.deqConnections ∨
              (r.messageClient client msg).deqConnections =
                r.deqConnections.filter fun entry => entry ≠ none) := by
        unfold messageClient
        simp only [hconn, Bool.false_eq_true, if_false]
        split
        · exact ⟨rfl, Or.inl rfl⟩
        · exact ⟨rfl, Or.inr rfl⟩
      obtain ⟨hsame, hdeq⟩ := hrest
      rw [hsame]
      refine ⟨⟨rfl, fun _ => Or.inl rfl⟩, fun hnull => ?_⟩
      rcases hdeq with hdeq | hdeq
      · exact hdeq
      · rw [hdeq, List.filter_eq_self]
        intro entry hentry
        have hne : entry ≠ none := fun h => hnull (h ▸ hentry)
        simpa using hne

end Calls

section Steps

variable [Layout (MessageHeader T)]
variable {r r' : Registry T} {e : RegistryEvent T}

/-- What a step of the registry does, event by event. -/
inductive RegistryStep (r : Registry T) :
    RegistryEvent T → Registry T → Prop
  | messageClient {client : Option ConnId} {msg : Message T}
      (hfault : r.fault = none) :
      RegistryStep r (.messageClient client msg) (r.messageClient client msg)
  | messageAllClients {msg : Message T} {pIgnoreClient : Option ConnId}
      (hfault : r.fault = none) :
      RegistryStep r (.messageAllClients msg pIgnoreClient)
        (r.messageAllClients msg pIgnoreClient)
  | connection {c : ConnId} {e : ConnEvent T} {conn conn' : Connection T}
      (hfault : r.fault = none)
      (hconn : r.connections[c]? = some conn)
      (hstep : conn.step e = some conn') :
      RegistryStep r (.connection c e)
        { r with connections := r.connections.set c conn' }

theorem step_cases
    (hstep : r.step e = some r') :
    RegistryStep r e r' := by
  unfold step at hstep
  split at hstep
  · cases hstep
  · next hfault =>
    have hfault : r.fault = none := by simpa using hfault
    cases e with
    | messageClient client msg =>
        cases hstep
        exact .messageClient hfault
    | messageAllClients msg pIgnoreClient =>
        cases hstep
        exact .messageAllClients hfault
    | connection c e =>
        simp only at hstep
        split at hstep
        · cases hstep
        · next conn hconn =>
          split at hstep
          · cases hstep
          · next conn' hconn' =>
            cases hstep
            exact .connection hfault hconn hconn'

end Steps

section CleanUp

/-- The clients that `on_client_disconnect` was called with. -/
def reported (r : Registry T) : List ConnId :=
  r.disconnects.filterMap Disconnect.client

/-- Nobody is reported twice, and no null pointer from the registry. -/
structure DisconnectsOnce (r : Registry T) : Prop where
  once : r.reported.Nodup
  nonnull : ∀ d ∈ r.disconnects, d.registered = true → d.client ≠ none

/-- A closed connection given to `message_client` is not registered and was not
reported before; `message_all_clients` finds every closed connection once.  The
registry has no empty entries. -/
def Tidy (r : Registry T) : RegistryEvent T → Prop
  | .messageClient none _ => True
  | .messageClient (some c) _ =>
      r.isConnected (some c) = false →
        none ∉ r.deqConnections ∧ some c ∉ r.deqConnections ∧
          c ∉ r.reported
  | .messageAllClients _ _ =>
      none ∉ r.deqConnections ∧
        (r.deqConnections.filter fun client => !r.isConnected client).Nodup
  | .connection _ _ => True

/-- Whoever was reported is not registered any more. -/
structure TidyInv (r : Registry T) : Prop where
  once : DisconnectsOnce r
  gone : ∀ c ∈ r.reported, some c ∉ r.deqConnections

variable {r r' : Registry T}

/-- The loop ends the process at an empty entry, after reporting it. -/
theorem messageAllClients_null
    {msg : Message T} {pIgnoreClient : Option ConnId}
    (hnull : none ∈ r.deqConnections)
    (hfault : r.fault = none) :
    ¬ DisconnectsOnce (r.messageAllClients msg pIgnoreClient) := by
  intro h
  have hmem :
      ⟨none, true⟩ ∈
        (r.messageAllClients msg pIgnoreClient).disconnects := by
    obtain ⟨clients, heq⟩ := messageAllClients_eq (r := r) msg pIgnoreClient
    rw [heq]
    exact visitAll_null hnull hfault
  exact h.nonnull _ hmem rfl rfl

theorem reported_onClientDisconnect (c : ConnId) (registered : Bool) :
    (r.onClientDisconnect (some c) registered).reported =
      r.reported ++ [c] := by
  simp [reported, onClientDisconnect]

/-- Reporting one client. -/
theorem disconnectsOnce_onClientDisconnect
    {c : ConnId} {registered : Bool}
    (h : DisconnectsOnce r) :
    DisconnectsOnce (r.onClientDisconnect (some c) registered) ↔
      c ∉ r.reported := by
  constructor
  · intro h' hc
    have honce := h'.once
    rw [reported_onClientDisconnect] at honce
    exact (List.nodup_append.mp honce).2.2 c hc c (by simp) rfl
  · intro hc
    refine ⟨?_, ?_⟩
    · rw [reported_onClientDisconnect]
      refine List.nodup_append.mpr ⟨h.once, by simp, ?_⟩
      rintro a ha b hb rfl
      obtain rfl := List.mem_singleton.mp hb
      exact hc ha
    · intro d hd hregistered
      rcases List.mem_append.mp hd with hd | hd
      · exact h.nonnull d hd hregistered
      · obtain rfl := List.mem_singleton.mp hd
        simp

/-- A null pointer that was not read from the registry. -/
theorem disconnectsOnce_null
    (h : DisconnectsOnce r) :
    DisconnectsOnce (r.onClientDisconnect none false) := by
  have hreported :
      (r.onClientDisconnect none false).reported = r.reported := by
    simp [reported, onClientDisconnect]
  refine ⟨?_, ?_⟩
  · rw [hreported]
    exact h.once
  · intro d hd hregistered
    rcases List.mem_append.mp hd with hd | hd
    · exact h.nonnull d hd hregistered
    · obtain rfl := List.mem_singleton.mp hd
      cases hregistered

/-- Nothing was reported. -/
theorem DisconnectsOnce.congr
    (h : DisconnectsOnce r)
    (hdisc : r'.disconnects = r.disconnects) :
    DisconnectsOnce r' := by
  refine ⟨?_, ?_⟩
  · unfold reported
    rw [hdisc]
    exact h.once
  · rw [hdisc]
    exact h.nonnull

/-- Entries that are not empty. -/
theorem exists_ids
    {entries : List (Option ConnId)}
    (hnull : none ∉ entries) :
    ∃ ids : List ConnId, entries = ids.map some := by
  induction entries with
  | nil => exact ⟨[], rfl⟩
  | cons client rest ih =>
      obtain ⟨ids, hids⟩ := ih fun h => hnull (List.mem_cons_of_mem _ h)
      cases client with
      | none => simp at hnull
      | some c => exact ⟨c :: ids, by simp [hids]⟩

/-- `message_all_clients` reports the closed entries. -/
theorem reported_messageAllClients
    (msg : Message T) (pIgnoreClient : Option ConnId)
    (hnull : none ∉ r.deqConnections)
    (hfault : r.fault = none) :
    ∃ ids : List ConnId,
      (r.deqConnections.filter fun client => !r.isConnected client) =
          ids.map some ∧
        (r.messageAllClients msg pIgnoreClient).reported =
          r.reported ++ ids := by
  have hclosed :
      none ∉ r.deqConnections.filter fun client => !r.isConnected client :=
    fun h => hnull (List.mem_of_mem_filter h)
  obtain ⟨ids, hids⟩ := exists_ids hclosed
  obtain ⟨_, hdisc, _⟩ :=
    messageAllClients_spec msg pIgnoreClient hnull hfault
  refine ⟨ids, hids, ?_⟩
  unfold reported
  rw [hdisc, hids, List.filterMap_append, List.map_map, List.filterMap_map]
  exact congrArg (_ ++ ·) List.filterMap_some

theorem disconnectsOnce_messageAllClients
    (msg : Message T) (pIgnoreClient : Option ConnId)
    (h : TidyInv r)
    (hnull : none ∉ r.deqConnections)
    (hfault : r.fault = none) :
    DisconnectsOnce (r.messageAllClients msg pIgnoreClient) ↔
      (r.deqConnections.filter fun client => !r.isConnected client).Nodup := by
  obtain ⟨ids, hids, hreported⟩ :=
    reported_messageAllClients msg pIgnoreClient hnull hfault
  rw [hids, List.nodup_map_iff (Option.some_injective _)]
  constructor
  · intro h'
    have honce := h'.once
    rw [hreported] at honce
    exact (List.nodup_append.mp honce).2.1
  · intro hnodup
    refine ⟨?_, ?_⟩
    · rw [hreported]
      refine List.nodup_append.mpr ⟨h.once.once, hnodup, ?_⟩
      rintro c hc c' hc' rfl
      have hclosed : some c ∈ ids.map some := List.mem_map_of_mem hc'
      rw [← hids] at hclosed
      exact h.gone c hc (List.mem_of_mem_filter hclosed)
    · intro d hd hregistered
      rw [(messageAllClients_spec msg pIgnoreClient hnull hfault).2.1] at hd
      rcases List.mem_append.mp hd with hd | hd
      · exact h.once.nonnull d hd hregistered
      · obtain ⟨client, hclient, rfl⟩ := List.mem_map.mp hd
        rintro rfl
        exact hnull (List.mem_of_mem_filter hclient)

/-- The registry after a closed connection was given to `message_client`. -/
theorem erase_eq_iff (c : ConnId) :
    (r.deqConnections.filter fun entry => entry ≠ none) =
        (r.deqConnections.filter fun entry => entry ≠ some c) ↔
      none ∉ r.deqConnections ∧ some c ∉ r.deqConnections := by
  constructor
  · intro heq
    refine ⟨fun hnull => ?_, fun hc => ?_⟩
    · have hmem :
          none ∈ r.deqConnections.filter fun entry => entry ≠ some c :=
        List.mem_filter.mpr ⟨hnull, by simp⟩
      rw [← heq] at hmem
      simp at hmem
    · have hmem :
          some c ∈ r.deqConnections.filter fun entry => entry ≠ none :=
        List.mem_filter.mpr ⟨hc, by simp⟩
      rw [heq] at hmem
      simp at hmem
  · rintro ⟨hnull, hc⟩
    rw [List.filter_eq_self.mpr, List.filter_eq_self.mpr]
    · intro entry hentry
      have hne : entry ≠ some c := fun h => hc (h ▸ hentry)
      simpa using hne
    · intro entry hentry
      have hne : entry ≠ none := fun h => hnull (h ▸ hentry)
      simpa using hne

/-- `message_client` with a closed connection cleans up if and only if it is
tidy. -/
theorem cleansUp_messageClient
    {c : ConnId} {msg : Message T}
    (h : TidyInv r)
    (hfault : r.fault = none)
    (hclosed : r.isConnected (some c) = false) :
    (r.messageClient (some c) msg).deqConnections =
          (r.deqConnections.filter fun entry => entry ≠ some c) ∧
        DisconnectsOnce (r.messageClient (some c) msg) ↔
      none ∉ r.deqConnections ∧ some c ∉ r.deqConnections ∧
        c ∉ r.reported := by
  rw [messageClient_of_closed hclosed hfault]
  have honce :
      DisconnectsOnce ((r.onClientDisconnect (some c) false).erase none) ↔
        c ∉ r.reported := by
    rw [← disconnectsOnce_onClientDisconnect h.once]
    exact ⟨fun h => h.congr rfl, fun h => h.congr rfl⟩
  rw [honce, ← and_assoc, ← erase_eq_iff]
  exact Iff.rfl

end CleanUp

section Runs

variable [Layout (MessageHeader T)]
variable {r r' : Registry T} {e : RegistryEvent T}

/-- `message_client` with a closed connection takes it out of the registry, and
nothing else. -/
def RemovesClient (r : Registry T) (e : RegistryEvent T) : Prop :=
  ∀ c msg r', e = .messageClient (some c) msg →
    r.isConnected (some c) = false → r.step e = some r' →
      r'.deqConnections =
        r.deqConnections.filter fun entry => entry ≠ some c

/-- What the cleaning up asks of a step. -/
def CleansUp (r : Registry T) (e : RegistryEvent T) : Prop :=
  RemovesClient r e ∧ ∀ r', r.step e = some r' → DisconnectsOnce r'

/-- A step cleans up if and only if it is tidy. -/
theorem cleansUp_iff_tidy
    (h : TidyInv r)
    (hstep : r.step e = some r') :
    CleansUp r e ↔ Tidy r e := by
  have hnext :
      CleansUp r e ↔ RemovesClient r e ∧ DisconnectsOnce r' := by
    unfold CleansUp
    rw [hstep]
    simp
  rw [hnext]
  cases step_cases hstep with
  | @messageClient client msg hfault =>
      cases client with
      | none =>
          refine ⟨fun _ => trivial, fun _ => ⟨?_, ?_⟩⟩
          · intro c msg' r' he
            cases he
          · rw [messageClient_null]
            exact disconnectsOnce_null h.once
      | some c =>
          cases hconn : r.isConnected (some c) with
          | true =>
              refine ⟨fun _ hclosed => ?_, fun _ => ⟨?_, ?_⟩⟩
              · rw [hconn] at hclosed
                cases hclosed
              · intro c' msg' r' he hclosed
                cases he
                rw [hconn] at hclosed
                cases hclosed
              · rw [messageClient_of_connected hconn]
                exact h.once.congr (by simp)
          | false =>
              have hremoves :
                  RemovesClient r (.messageClient (some c) msg) ↔
                    (r.messageClient (some c) msg).deqConnections =
                      r.deqConnections.filter fun entry => entry ≠ some c := by
                constructor
                · intro h
                  exact h c msg _ rfl hconn hstep
                · intro heq c' msg' r' he _ hstep'
                  cases he
                  obtain rfl := Option.some.inj (hstep.symm.trans hstep')
                  exact heq
              rw [hremoves, cleansUp_messageClient h hfault hconn]
              exact ⟨fun h _ => h, fun h => h hconn⟩
  | @messageAllClients msg pIgnoreClient hfault =>
      have hremoves :
          RemovesClient r (.messageAllClients msg pIgnoreClient) := by
        intro c msg' r' he
        cases he
      by_cases hnull : none ∈ r.deqConnections
      · constructor
        · rintro ⟨_, honce⟩
          exact absurd honce (messageAllClients_null hnull hfault)
        · rintro ⟨hnot, _⟩
          exact absurd hnull hnot
      · rw [disconnectsOnce_messageAllClients msg pIgnoreClient h hnull hfault]
        exact ⟨fun h => ⟨hnull, h.2⟩, fun h => ⟨hremoves, h.2⟩⟩
  | connection hfault hconn hconn' =>
      refine ⟨fun _ => trivial, fun _ => ⟨?_, h.once.congr rfl⟩⟩
      intro c msg r' he
      cases he

/-- A tidy step keeps the registry free of clients that were reported. -/
theorem step_tidyInv
    (r : Registry T) (e : RegistryEvent T) (r' : Registry T)
    (h : TidyInv r)
    (htidy : Tidy r e)
    (hstep : r.step e = some r') :
    TidyInv r' := by
  have honce : DisconnectsOnce r' :=
    ((cleansUp_iff_tidy h hstep).mpr htidy).2 r' hstep
  refine ⟨honce, ?_⟩
  have hsame
      (hreported : r'.reported = r.reported)
      (hdeq : r'.deqConnections = r.deqConnections) :
      ∀ c ∈ r'.reported, some c ∉ r'.deqConnections := by
    rw [hreported, hdeq]
    exact h.gone
  cases step_cases hstep with
  | @messageClient client msg hfault =>
      cases hconn : r.isConnected client with
      | true =>
          rw [messageClient_of_connected hconn] at hsame ⊢
          refine hsame ?_ (by simp)
          unfold reported
          simp
      | false =>
          cases client with
          | none =>
              rw [messageClient_null] at hsame ⊢
              refine hsame ?_ rfl
              simp [reported, onClientDisconnect]
          | some c =>
              obtain ⟨hnull, hc, hfresh⟩ := htidy hconn
              rw [messageClient_of_closed hconn hfault]
              intro c' hc' hmem
              have hmem' := List.mem_of_mem_filter hmem
              have hc'' : c' ∈ r.reported ++ [c] := by
                rw [← reported_onClientDisconnect c false]
                exact hc'
              rcases List.mem_append.mp hc'' with hold | hnew
              · exact h.gone c' hold hmem'
              · obtain rfl := List.mem_singleton.mp hnew
                exact hc hmem'
  | @messageAllClients msg pIgnoreClient hfault =>
      obtain ⟨hnull, _⟩ := htidy
      obtain ⟨ids, hids, hreported⟩ :=
        reported_messageAllClients msg pIgnoreClient hnull hfault
      obtain ⟨hdeq, _⟩ := messageAllClients_spec msg pIgnoreClient hnull hfault
      rw [hreported, hdeq]
      intro c hc hmem
      rcases List.mem_append.mp hc with hold | hnew
      · exact h.gone c hold (List.mem_of_mem_filter hmem)
      · have hclosed : some c ∈ ids.map some := List.mem_map_of_mem hnew
        rw [← hids] at hclosed
        have hopen := (List.mem_filter.mp hmem).2
        simp [hopen] at hclosed
  | connection hfault hconn hconn' => exact hsame rfl rfl

/-- Over every run: `message_client` takes closed connections out of the
registry and nothing else, and nobody is reported twice or as a null pointer of
the registry, if and only if every call is tidy. -/
theorem registry_clean_iff
    {connections : List (Connection T)} {deqConnections : List (Option ConnId)}
    {es : List (RegistryEvent T)}
    (hrun : run step (start connections deqConnections) es = some r) :
    Meets step RemovesClient (start connections deqConnections) es ∧
        Always step DisconnectsOnce (start connections deqConnections) es ↔
      Meets step Tidy (start connections deqConnections) es := by
  have h₀ : TidyInv (start connections deqConnections) := by
    refine ⟨⟨List.nodup_nil, ?_⟩, ?_⟩
    · exact fun d hd => by cases hd
    · exact fun c hc => by cases hc
  have hboth :
      Meets step CleansUp (start connections deqConnections) es ↔
        Meets step Tidy (start connections deqConnections) es :=
    meets_congr_of_run step_tidyInv
      (fun _ _ _ h hstep => cleansUp_iff_tidy h hstep) h₀ hrun
  rw [← hboth, always_iff_meets]
  unfold CleansUp
  rw [meets_and_iff]
  exact ⟨fun h => ⟨h.1, h.2.2⟩, fun h => ⟨h.1, h₀.once, h.2⟩⟩

/-- The closed connection is not registered, and the registered one is open. -/
theorem registry_clean_iff_other_client :
    ∃ r : Registry MessageType,
      run step
          (start [.make .server 1 false, .make .server 2 true] [some 1])
          [.messageClient (some 0) Server.acceptMessage,
            .messageAllClients Server.acceptMessage none] = some r ∧
        Always step DisconnectsOnce
          (start [.make .server 1 false, .make .server 2 true] [some 1])
          [.messageClient (some 0) Server.acceptMessage,
            .messageAllClients Server.acceptMessage none] := by
  have hrun :
      run step
          (start [.make .server 1 false, .make .server 2 true] [some 1])
          [.messageClient (some 0) Server.acceptMessage,
            .messageAllClients Server.acceptMessage none] =
        some _ := rfl
  refine ⟨_, hrun, ((registry_clean_iff hrun).mpr ?_).2⟩
  refine meets_cons (fun _ => ⟨by decide, by decide, by decide⟩) ?_
  intro s' hstep
  cases hstep
  exact meets_cons ⟨by decide, by decide⟩ fun _ _ => trivial

/-- A registered client whose socket is closed: `message_client` leaves it in
the registry, and `message_all_clients` reports it once more. -/
theorem registry_clean_iff_fails_on_registered_client :
    ∃ r r' : Registry MessageType,
      run step (start [.make .server 1 false] [some 0])
          [.messageClient (some 0) Server.acceptMessage] = some r ∧
        r.isConnected (some 0) = false ∧ r.deqConnections = [some 0] ∧
        ¬ Meets step RemovesClient (start [.make .server 1 false] [some 0])
          [.messageClient (some 0) Server.acceptMessage] ∧
        run step (start [.make .server 1 false] [some 0])
          [.messageClient (some 0) Server.acceptMessage,
            .messageAllClients Server.acceptMessage none] = some r' ∧
        r'.reported = [0, 0] ∧ ¬ DisconnectsOnce r' := by
  refine ⟨_, _, rfl, rfl, rfl, fun h => ?_, rfl, rfl, fun h => ?_⟩
  · have hdeq := h.head 0 Server.acceptMessage _ rfl rfl rfl
    cases hdeq
  · have honce : [0, 0].Nodup := h.once
    simp at honce

end Runs

end Registry

end SpeciesSimulator
