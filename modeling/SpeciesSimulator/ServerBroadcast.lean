import SpeciesSimulator.ServerRegistry

/-!
# A message to all clients

What one call of `message_all_clients` does to a registry without empty or
double entries, whatever sockets are open and whichever client is ignored.

Main facts:
* `visitAll_sends`: the loop posts the message once for each open entry that is
  not ignored;
* `broadcast_exact`: the call sends, reports and takes out what it should, once
  each, and nothing else.
-/

namespace SpeciesSimulator

universe u

namespace Registry

section Broadcast

variable {T : Type u} {r : Registry T}

/-- The client is sent what goes to all clients. -/
def Receives
    (r : Registry T) (entries : List (Option ConnId))
    (pIgnoreClient : Option ConnId) (c : ConnId) : Prop :=
  some c ∈ entries ∧ r.isConnected (some c) = true ∧ some c ≠ pIgnoreClient

instance
    (r : Registry T) (entries : List (Option ConnId))
    (pIgnoreClient : Option ConnId) (c : ConnId) :
    Decidable (Receives r entries pIgnoreClient c) :=
  inferInstanceAs (Decidable (_ ∧ _))

/-- Sending concerns one connection. -/
theorem getElem?_send (c : ConnId) (msg : Message T) (c' : ConnId) :
    (r.send (some c) msg).connections[c']? =
      if c = c' then r.connections[c']?.map (·.send msg)
      else r.connections[c']? := by
  simp only [send, List.getElem?_modify]
  split
  · rfl
  · cases r.connections[c']? with
    | none => rfl
    | some conn => rfl

theorem receives_cons
    {client : Option ConnId} {rest : List (Option ConnId)}
    {pIgnoreClient : Option ConnId} {c : ConnId} :
    Receives r (client :: rest) pIgnoreClient c ↔
      (some c = client ∧ r.isConnected client = true ∧
        client ≠ pIgnoreClient) ∨
      Receives r rest pIgnoreClient c := by
  unfold Receives
  rw [List.mem_cons]
  constructor
  · rintro ⟨rfl | hmem, hrest⟩
    · exact Or.inl ⟨rfl, hrest⟩
    · exact Or.inr ⟨hmem, hrest⟩
  · rintro (⟨rfl, hrest⟩ | ⟨hmem, hrest⟩)
    · exact ⟨Or.inl rfl, hrest⟩
    · exact ⟨Or.inr hmem, hrest⟩

/-- The loop posts the message once for each open entry that is not ignored. -/
theorem visitAll_sends
    {entries : List (Option ConnId)}
    (msg : Message T) (pIgnoreClient : Option ConnId)
    (hnull : none ∉ entries)
    (hnodup : entries.Nodup)
    (hfault : r.fault = none)
    (c : ConnId) :
    (visitAll msg pIgnoreClient r entries).registry.connections[c]? =
      if Receives r entries pIgnoreClient c then
        r.connections[c]?.map (·.send msg)
      else r.connections[c]? := by
  induction entries generalizing r with
  | nil =>
      simp [visitAll, Receives]
  | cons client rest ih =>
      obtain ⟨hhead, htail⟩ := List.nodup_cons.mp hnodup
      have hrest : none ∉ rest := fun h => hnull (List.mem_cons_of_mem _ h)
      obtain ⟨c₁, rfl⟩ : ∃ c₁, client = some c₁ := by
        cases client with
        | none => simp at hnull
        | some c₁ => exact ⟨c₁, rfl⟩
      cases hconn : r.isConnected (some c₁) with
      | true =>
          by_cases hignored : some c₁ = pIgnoreClient
          · subst hignored
            have hskip :
                Receives r (some c₁ :: rest) (some c₁) c ↔
                  Receives r rest (some c₁) c := by
              simp [receives_cons]
            simp only [visitAll, hconn, if_true, ne_eq, not_true_eq_false,
              if_false, ih hrest htail hfault, hskip]
          · have hsent :=
              ih (r := r.send (some c₁) msg) hrest htail (by simpa using hfault)
            have hlater :
                Receives (r.send (some c₁) msg) rest pIgnoreClient c ↔
                  Receives r rest pIgnoreClient c := by
              simp [Receives]
            simp only [visitAll, hconn, if_true, ne_eq, hignored,
              not_false_eq_true, hsent, hlater, getElem?_send]
            by_cases hc : c₁ = c
            · -- no later entry is this client
              subst c₁
              have hown : ¬ Receives r rest pIgnoreClient c :=
                fun h => hhead h.1
              simp [receives_cons, hconn, hignored, hown]
            · simp [receives_cons, hc, Ne.symm hc]
      | false =>
          have hclosed :
              (visitAll msg pIgnoreClient (r.onClientDisconnect (some c₁) true)
                  rest).registry.connections[c]? =
                if Receives r rest pIgnoreClient c then
                  r.connections[c]?.map (·.send msg)
                else r.connections[c]? :=
            ih (r := r.onClientDisconnect (some c₁) true) hrest htail hfault
          have hfault' : (r.onClientDisconnect (some c₁) true).fault = none :=
            hfault
          have hskip :
              Receives r (some c₁ :: rest) pIgnoreClient c ↔
                Receives r rest pIgnoreClient c := by
            simp [receives_cons, hconn]
          simp only [visitAll, hconn, hfault', Option.isSome_none,
            Bool.false_eq_true, if_false, hclosed, hskip]

/-- The connections after the call. -/
theorem messageAllClients_sends
    (msg : Message T) (pIgnoreClient : Option ConnId)
    (hnull : none ∉ r.deqConnections)
    (hnodup : r.deqConnections.Nodup)
    (hfault : r.fault = none)
    (c : ConnId) :
    (r.messageAllClients msg pIgnoreClient).connections[c]? =
      if Receives r r.deqConnections pIgnoreClient c then
        r.connections[c]?.map (·.send msg)
      else r.connections[c]? := by
  rw [← visitAll_sends msg pIgnoreClient hnull hnodup hfault c]
  obtain ⟨clients, heq⟩ := messageAllClients_eq (r := r) msg pIgnoreClient
  rw [heq]

/-- The call sends the message once to each open client that is not ignored,
reports each closed one once, and leaves the open ones in order. -/
theorem broadcast_exact
    (msg : Message T) (pIgnoreClient : Option ConnId)
    (hnull : none ∉ r.deqConnections)
    (hnodup : r.deqConnections.Nodup)
    (hfault : r.fault = none) :
    (∀ c : ConnId,
        (r.messageAllClients msg pIgnoreClient).connections[c]? =
          if some c ∈ r.deqConnections ∧ r.isConnected (some c) = true ∧
              some c ≠ pIgnoreClient then
            r.connections[c]?.map (·.send msg)
          else r.connections[c]?) ∧
      (∃ calls : List Disconnect,
        (r.messageAllClients msg pIgnoreClient).disconnects =
            r.disconnects ++ calls ∧
          ∀ client : Option ConnId,
            (calls.map Disconnect.client).count client =
              if client ∈ r.deqConnections ∧ r.isConnected client = false then 1
              else 0) ∧
      (r.messageAllClients msg pIgnoreClient).deqConnections =
        r.deqConnections.filter r.isConnected ∧
      (r.messageAllClients msg pIgnoreClient).fault = none := by
  obtain ⟨hdeq, hdisc, hok⟩ :=
    messageAllClients_spec msg pIgnoreClient hnull hfault
  refine ⟨?_, ⟨_, hdisc, fun client => ?_⟩, hdeq, hok⟩
  · exact messageAllClients_sends msg pIgnoreClient hnull hnodup hfault
  · have hclients :
        ((r.deqConnections.filter fun client => !r.isConnected client).map
            fun client => (⟨client, true⟩ : Disconnect)).map
          Disconnect.client =
          r.deqConnections.filter fun client => !r.isConnected client := by
      rw [List.map_map]
      exact List.map_id _
    rw [hclients, (hnodup.filter _).count]
    simp

/-- The first client is open, the second closed, the third ignored. -/
theorem broadcast_exact_three_clients :
    ∃ r : Registry MessageType,
      r.deqConnections = [some 0, some 1, some 2] ∧
        (r.messageAllClients Server.acceptMessage (some 2)).deqConnections =
          r.deqConnections.filter r.isConnected ∧
        r.deqConnections.filter r.isConnected = [some 0, some 2] := by
  refine
    ⟨start [.make .server 1 true, .make .server 2 false, .make .server 3 true]
      [some 0, some 1, some 2], rfl, ?_, rfl⟩
  exact
    (broadcast_exact Server.acceptMessage (some 2) (by decide) (by decide)
      rfl).2.2.1

end Broadcast

end Registry

end SpeciesSimulator
