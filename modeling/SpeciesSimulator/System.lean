import SpeciesSimulator.ClientProcess
import SpeciesSimulator.ServerRefusal
import SpeciesSimulator.ServerSession

/-!
# A server and one of its clients

The process of the server and the process of one client, joined by the socket
that the server accepts as one of its connections: what either of them transfers
reaches the other one in order, at any time and in any pieces.  The other
connections of the server, before this one and after it, are arbitrary.

Main facts:
* `step_inv`: a step of either of them keeps both in the states that they have
  on their own, and joined;
* `Inv.shows`: so a client whose start-up is complete shows a map that the
  server has sent to it, with all its entities.
-/

namespace SpeciesSimulator

open ByteLayout Transition Message

namespace Server

section Streams

variable {s s' : Server} {c : ConnId}

/-- What went over the wire to a client. -/
def wireOf (c : ConnId) (s : Server) : List UInt8 :=
  match s.connections[c]? with
  | some conn => conn.wire
  | none => []

/-- What came in from a client. -/
def receivedOf (c : ConnId) (s : Server) : List UInt8 :=
  match s.connections[c]? with
  | some conn => conn.received
  | none => []

/-- What was on the wires or came in stays there. -/
structure Grows (c : ConnId) (s s' : Server) : Prop where
  wire : s.wireOf c <+: s'.wireOf c
  received : s.receivedOf c <+: s'.receivedOf c

theorem grows_of_get
    (h :
      ∀ conn, s.connections[c]? = some conn →
        ∃ conn', s'.connections[c]? = some conn' ∧
          conn.wire <+: conn'.wire ∧ conn.received <+: conn'.received) :
    Grows c s s' := by
  cases hconn : s.connections[c]? with
  | none =>
      refine ⟨?_, ?_⟩
      · simp [wireOf, hconn]
      · simp [receivedOf, hconn]
  | some conn =>
      obtain ⟨conn', hconn', hwire, hreceived⟩ := h conn hconn
      refine ⟨?_, ?_⟩
      · simpa [wireOf, hconn, hconn'] using hwire
      · simpa [receivedOf, hconn, hconn'] using hreceived

theorem grows_of_same
    (h : s'.connections = s.connections) :
    Grows c s s' := by
  refine grows_of_get fun conn hconn => ⟨conn, ?_, ?_, ?_⟩
  · rw [h, hconn]
  · exact List.prefix_rfl
  · exact List.prefix_rfl

/-- No step takes bytes back. -/
theorem step_grows
    (c : ConnId) (s : Server) (e : ServerEvent) (s' : Server)
    (hstep : s.step e = some s') :
    Grows c s s' := by
  cases step_cases hstep with
  | startServer => exact grows_of_same rfl
  | startEnvironment => exact grows_of_same rfl
  | environment => exact grows_of_same rfl
  | fault => exact grows_of_same rfl
  | acceptFailed => exact grows_of_same rfl
  | update => exact grows_of_same rfl
  | approve =>
      refine grows_of_get fun conn hconn => ⟨conn, ?_, ?_, ?_⟩
      · have hlt := (List.getElem?_eq_some_iff.mp hconn).1
        show (s.connections ++ _)[c]? = _
        rw [List.getElem?_append_left hlt, hconn]
      · exact List.prefix_rfl
      · exact List.prefix_rfl
  | refuse =>
      refine grows_of_get fun conn hconn => ⟨conn, ?_, ?_, ?_⟩
      · have hlt := (List.getElem?_eq_some_iff.mp hconn).1
        show (s.connections ++ _)[c]? = _
        rw [List.getElem?_append_left hlt, hconn]
      · exact List.prefix_rfl
      · exact List.prefix_rfl
  | @io d e conn conn' u hidle hconn hio =>
      refine grows_of_get fun connC hconnC => ?_
      rw [afterIo_connections]
      by_cases hd : d = c
      · obtain rfl := hd
        obtain rfl := Option.some.inj (hconn.symm.trans hconnC)
        refine ⟨conn', List.getElem?_set_self ?_, ?_, ?_⟩
        · exact (List.getElem?_eq_some_iff.mp hconn).1
        · exact Connection.ioStep_wire hio
        · exact Connection.ioStep_received hio
      · refine ⟨connC, ?_, List.prefix_rfl, List.prefix_rfl⟩
        rw [List.getElem?_set_ne hd, hconnC]
  | @handler e hd s' hh hhandler =>
      rcases hhandler.connections with hsame | ⟨f, hmodify, msg, hf⟩
      · exact grows_of_same hsame
      · refine grows_of_get fun conn hconn => ?_
        rw [hmodify]
        by_cases hclient : hd.client = c
        · refine ⟨f conn, ?_, ?_⟩
          · rw [hclient, List.getElem?_modify_eq, hconn]
            rfl
          · rcases hf with rfl | rfl
            · exact ⟨List.prefix_rfl, List.prefix_rfl⟩
            · exact ⟨List.prefix_rfl, List.prefix_rfl⟩
        · refine ⟨conn, ?_, List.prefix_rfl, List.prefix_rfl⟩
          rw [List.getElem?_modify_ne _ _ hclient, hconn]

/-- A server, as the client with a place among its connections sees it. -/
def party (c : ConnId) : Duplex.Party Server ServerEvent UInt8 where
  step := step
  sent := wireOf c
  got := receivedOf c
  sent_grows s e s' hstep := (step_grows c s e s' hstep).wire
  got_grows s e s' hstep := (step_grows c s e s' hstep).received

end Streams

section Maps

variable {s : Server}

/-- What a client needs to know about a map of the server holds of every map
and its vector. -/
theorem WorldInv.exists_serverMap
    {i : Nat} {map : Map} {vector : List Entity}
    (h : WorldInv s)
    (hfew : FewMaps s.nMapsCount)
    (hpc : s.environment.pc = .running)
    (hmap : s.environment.maps[i]? = some map)
    (hvector : s.incommingEntities[i]? = some vector) :
    ∃ sm : Client.ServerMap,
      sm.layout = map.conLay ∧ sm.config = map.config ∧
        sm.entities = vector := by
  obtain ⟨hfood, _⟩ := h.food hpc
  obtain ⟨_, hwide⟩ := hfew.tileable
  have hconfig := hfood.tiled.tiles i map hmap
  have hlaid := h.layouts map (List.mem_of_getElem? hmap)
  have hwidth : map.config.width.toNat = 120 / s.nMapsCount.toNat := by
    rw [hconfig, Environment.tileConfig_width]
    rfl
  have hheight : map.config.height.toNat = 30 := by
    rw [hconfig, Environment.tileConfig_height]
    rfl
  have hnarrow : 120 / s.nMapsCount.toNat ≤ 120 := Nat.div_le_self _ _
  have hwide' : 3 ≤ 120 / s.nMapsCount.toNat := hwide
  have hlength := hfood.startup.vector_length hvector
  refine
    ⟨{ layout := map.conLay
       config := map.config
       entities := vector
       width_pos := by omega
       height_pos := by omega
       area_lt := ?_
       height_le := by omega
       y_eq := ?_
       layout_width := hlaid.width
       layout_height := hlaid.height
       inside := ?_
       bytes_lt := ?_ }, rfl, rfl, rfl⟩
  · calc
      map.config.width.toNat * map.config.height.toNat ≤ 120 * 30 := by
        rw [hheight]
        exact Nat.mul_le_mul_right 30 (by omega)
      _ < 2 ^ 31 := by decide
  · rw [hconfig, Environment.tileConfig_y]
  · intro e he
    obtain ⟨k, hk⟩ := List.mem_iff_getElem?.mp he
    have hisFood := hfood.food i vector hvector k e hk
    have hcell : map.config.Contains e.cell := by
      rw [hconfig]
      exact hisFood.contains
    refine ⟨hcell, ?_⟩
    rw [hisFood.still]
    exact hcell
  · have hsize : byteSize Entity = 32 := rfl
    have hmax : maxFoodPerMap = 500 := rfl
    rw [hsize]
    omega

end Maps

end Server

namespace ClientProcess

/-- A client, as its server sees it. -/
def party : Duplex.Party ClientProcess ClientEvent UInt8 where
  step := step
  sent p := p.connection.wire
  got p := p.connection.received
  sent_grows p e p' hstep := (step_grows p e p' hstep).1
  got_grows p e p' hstep := (step_grows p e p' hstep).2

end ClientProcess

/-- A server and one of its clients. -/
abbrev System := Server × ClientProcess

namespace System

section Model

/-- A step of the server or of the client that is its connection `c`. -/
def step (c : ConnId) :
    System → ServerEvent ⊕ ClientEvent → Option System :=
  Duplex.step (Server.party c) ClientProcess.party

/-- Clients are accepted once the environment is running and are still there, no
handler of a refused client ends the server, the messages for the client are
written in order and behind the challenge, and the client does not fail to
connect. -/
def Orderly (c : ConnId) (t : System) (e : ServerEvent ⊕ ClientEvent) : Prop :=
  Duplex.OnLeft
      (fun s e => Server.Regular s e ∧ Server.InOrder c s e) t e ∧
    Duplex.OnRight ClientProcess.Connects t e

/-- The messages of the client are written in order, too. -/
def AllInOrder
    (c : ConnId) (t : System) (e : ServerEvent ⊕ ClientEvent) : Prop :=
  Duplex.OnLeft
      (fun s e => Server.Regular s e ∧ Server.InOrder c s e) t e ∧
    Duplex.OnRight
      (fun p e => ClientProcess.Connects p e ∧ ClientProcess.InOrder p e) t e

theorem AllInOrder.orderly
    {c : ConnId} {t : System} {e : ServerEvent ⊕ ClientEvent}
    (h : AllInOrder c t e) :
    Orderly c t e :=
  ⟨h.1, fun e' he => (h.2 e' he).1⟩

/-- A run of a server for up to 40 maps and a client of it, all of whose steps
meet a condition. -/
structure Runs
    (C : ConnId → System → ServerEvent ⊕ ClientEvent → Prop) (c : ConnId)
    (n : UInt64) (flags : StartFlags) (s₀ : Server)
    (es : List (ServerEvent ⊕ ClientEvent)) (t : System) : Prop where
  make : Server.make n = .ok s₀
  few : Server.FewMaps n
  meets : Meets (step c) (C c) (s₀, ClientProcess.start flags) es
  runs : run (step c) (s₀, ClientProcess.start flags) es = some t

/-- The start-up messages that an approved client is sent belong to a map of the
server: some of them were sent, and some of these have come in. -/
structure Assignment
    (c : ConnId) (t : System) (conn : Connection MessageType) (i : Nat)
    (map : Map) (sm : Client.ServerMap) (msgs : List (Message MessageType)) :
    Prop where
  connections : t.1.connections[c]? = some conn
  maps : t.1.environment.maps[i]? = some map
  layout : sm.layout = map.conLay
  config : sm.config = map.config
  entities : t.1.incommingEntities[i]? = some sm.entities
  served : 1 < conn.sends.length → (c, i) ∈ t.1.served
  startup :
    Server.startupMessages sm.layout sm.config sm.entities = some msgs
  sends : conn.sends <+: msgs
  given :
    t.2.connection.received <+: toBytes conn.nHandshakeOut ++ frames conn.ran

/-- The client shows one of the maps of the server, which has sent it to this
client, with its entities. -/
def Shows (c : ConnId) (t : System) : Prop :=
  ∃ i map sm, t.1.environment.maps[i]? = some map ∧
    sm.layout = map.conLay ∧ sm.config = map.config ∧
    t.1.incommingEntities[i]? = some sm.entities ∧
    (c, i) ∈ t.1.served ∧ t.2.starting.client.Replicates sm

/-- The state that a run of both leaves. -/
structure Inv (c : ConnId) (n : UInt64) (flags : StartFlags) (t : System) :
    Prop where
  few : Server.FewMaps n
  server : Server.SessionInv c t.1
  count : t.1.nMapsCount = n
  refused : Server.RefusedInv t.1
  client : ClientProcess.ClientInv (Starting.start flags).flags t.2
  joined : Duplex.Joined (Server.party c) ClientProcess.party t

end Model

section Runs

variable {c : ConnId} {n : UInt64} {flags : StartFlags} {s₀ s : Server}
  {p : ClientProcess} {es : List (ServerEvent ⊕ ClientEvent)}
variable {t : System} {conn : Connection MessageType} {i : Nat} {map : Map}
  {sm : Client.ServerMap} {msgs : List (Message MessageType)}

/-- Both are in their first states. -/
theorem inv_start
    (hmake : Server.make n = .ok s₀)
    (hfew : Server.FewMaps n) :
    Inv c n flags (s₀, ClientProcess.start flags) := by
  have hworld := Server.worldInv_of_make hmake hfew
  have hrefused := Server.reachable_refusedInv hmake ⟨[], rfl⟩
  obtain ⟨environment, _, rfl⟩ := Server.exists_of_make hmake
  refine
    { few := hfew
      server := ⟨hworld, fun hc => ?_⟩
      count := rfl
      refused := hrefused
      client := ClientProcess.clientInv_start flags
      joined := ⟨List.nil_prefix, List.nil_prefix⟩ }
  cases hc

/-- A step of either of them keeps both in order. -/
theorem step_inv
    (t : System) (e : ServerEvent ⊕ ClientEvent) (t' : System)
    (h : Inv c n flags t)
    (horderly : Orderly c t e)
    (hstep : step c t e = some t') :
    Inv c n flags t' := by
  have hjoined := Duplex.step_joined t e t' h.joined hstep
  cases Duplex.step_cases hstep with
  | @inl e s' hserver hgot =>
      obtain ⟨hsession, hcount⟩ :=
        Server.step_sessionInv h.few t.1 e s'
          ⟨h.server, h.count⟩ (horderly.1 e rfl) hserver
      exact
        { few := h.few
          server := hsession
          count := hcount
          refused := Server.step_refusedInv t.1 e s' h.refused hserver
          client := h.client
          joined := hjoined }
  | @inr e p' hclient hgot =>
      exact
        { h with
          client :=
            ClientProcess.step_clientInv t.2 e p' h.client
              (horderly.2 e rfl) hclient
          joined := hjoined }

theorem Runs.inv
    (h : Runs Orderly c n flags s₀ es t) :
    Inv c n flags t :=
  run_invariant step_inv (inv_start h.make h.few) h.meets h.runs

/-- A run whose steps meet a condition meets a weaker one. -/
theorem Runs.mono
    {C D : ConnId → System → ServerEvent ⊕ ClientEvent → Prop}
    (h : Runs C c n flags s₀ es t)
    (hweaker : ∀ t e, C c t e → D c t e) :
    Runs D c n flags s₀ es t :=
  { h with meets := h.meets.mono hweaker }

/-- A run goes on. -/
theorem Runs.append
    {C : ConnId → System → ServerEvent ⊕ ClientEvent → Prop}
    {es' : List (ServerEvent ⊕ ClientEvent)} {t' : System}
    (h : Runs C c n flags s₀ es t)
    (hmeets : Meets (step c) (C c) t es')
    (hrun : run (step c) t es' = some t') :
    Runs C c n flags s₀ (es ++ es') t' :=
  { h with
    meets := meets_append h.meets h.runs hmeets
    runs := (run_append h.runs es').trans hrun }

/-- Every approved client is sent start-up messages of a map. -/
theorem Inv.exists_assignment
    (h : Inv c n flags t)
    (hc : c ∈ t.1.deqConnections) :
    ∃ conn i map sm msgs, Assignment c t conn i map sm msgs := by
  have hcount : t.1.nMapsCount = n := h.count
  obtain ⟨conn, hconn, hsession⟩ := h.server.session hc
  have hgot : t.2.connection.received <+: t.1.wireOf c := h.joined.right
  rw [Server.wireOf, hconn] at hgot
  obtain ⟨i, map, vector, msgs, hstarts, hsends, hserved⟩ :=
    h.server.sends_prefix hc hconn
  obtain ⟨sm, hlayout, hconfig, rfl⟩ :=
    h.server.world.exists_serverMap (by rw [hcount]; exact h.few)
      (h.server.world.running_of_approved hc) hstarts.maps hstarts.vectors
  have hmsgs := hstarts.startup
  rw [← hlayout, ← hconfig] at hmsgs
  exact ⟨conn, i, map, sm, msgs,
    { connections := hconn
      maps := hstarts.maps
      layout := hlayout
      config := hconfig
      entities := hstarts.vectors
      served := hserved
      startup := hmsgs
      sends := hsends
      given := hgot.trans hsession.turn.wire_prefix_of }⟩

/-- The handlers that ran have sent some of the messages. -/
theorem Assignment.serves
    (h : Assignment c t conn i map sm msgs) :
    ClientProcess.Serves sm msgs conn.ran :=
  ⟨h.startup, (List.prefix_append _ _).trans h.sends⟩

/-- The client is as the messages of its map leave it. -/
theorem Assignment.view
    (h : Assignment c t conn i map sm msgs)
    (hinv : Inv c n flags t) :
    ClientProcess.View (Starting.start flags).flags conn.nHandshakeOut sm msgs
      conn.ran t.2 :=
  hinv.client.view _ _ _ _ h.serves h.given

/-- A client whose start-up is complete was sent its map. -/
theorem Assignment.replicates
    (h : Assignment c t conn i map sm msgs)
    (hinv : Inv c n flags t)
    (hokay : t.2.starting.client.startupOkay = true) :
    (c, i) ∈ t.1.served ∧ t.2.starting.client.Replicates sm := by
  obtain ⟨hall, hreplica⟩ := (h.view hinv).replicates h.serves hokay
  refine ⟨h.served ?_, hreplica⟩
  obtain ⟨_, _, _, _, hmsgs⟩ := Server.startupMessages_eq h.startup
  have hlen : conn.ran.length = 5 := by
    rw [hall, hmsgs]
    rfl
  rw [Connection.sends, List.length_append]
  omega

/-- A client that is not approved is sent nothing. -/
theorem Inv.received_of_not_approved
    (h : Inv c n flags t)
    (hc : c ∉ t.1.deqConnections) :
    t.2.connection.received = [] := by
  have hgot : t.2.connection.received <+: t.1.wireOf c := h.joined.right
  rw [Server.wireOf] at hgot
  split at hgot
  · next conn hconn =>
    rw [(h.refused.refused c conn hconn hc).wire] at hgot
    exact List.prefix_nil.mp hgot
  · exact List.prefix_nil.mp hgot

/-- As far as a client can tell that has not been sent anything, it may be sent
any map. -/
theorem Inv.view_of_not_approved
    (h : Inv c n flags t)
    (hc : c ∉ t.1.deqConnections) :
    ClientProcess.View (Starting.start flags).flags 0 Client.standingMap
      Client.standingMessages [] t.2 := by
  refine h.client.view _ _ _ _ ⟨rfl, List.nil_prefix⟩ ?_
  rw [h.received_of_not_approved hc]
  exact List.nil_prefix

/-- The client has no fault. -/
theorem Inv.fault
    (h : Inv c n flags t) :
    t.2.starting.fault = none := by
  by_cases hc : c ∈ t.1.deqConnections
  · obtain ⟨conn, i, map, sm, msgs, hassigned⟩ :=
      h.exists_assignment hc
    exact (hassigned.view h).fault
  · exact (h.view_of_not_approved hc).fault

/-- After its start-up the client shows a map of the server. -/
theorem Inv.shows
    (h : Inv c n flags t)
    (hokay : t.2.starting.client.startupOkay = true) :
    Shows c t := by
  by_cases hc : c ∈ t.1.deqConnections
  · obtain ⟨conn, i, map, sm, msgs, hassigned⟩ :=
      h.exists_assignment hc
    exact ⟨i, map, sm, hassigned.maps, hassigned.layout, hassigned.config,
      hassigned.entities, hassigned.replicates h hokay⟩
  · obtain ⟨hall, _⟩ :=
      (h.view_of_not_approved hc).replicates ⟨rfl, List.nil_prefix⟩ hokay
    cases hall

end Runs

section Sample

/-- Wherever an accept handler approves a client, both sockets are open. -/
theorem exists_accepted (flags : StartFlags) :
    ∃ s₀ s es conn,
      Runs AllInOrder 0 1 flags s₀ es (s, ClientProcess.start flags) ∧
      0 ∈ s.deqConnections ∧ s.connections[0]? = some conn ∧
      conn.isOpen = true := by
  obtain ⟨s₀, hmake⟩ : ∃ s₀, Server.make 1 = .ok s₀ := ⟨_, rfl⟩
  obtain ⟨rs, environment, vectors, hstartup, _, hpc, _⟩ :=
    Server.exists_startup hmake (by decide) (by decide)
  let s₁ := Server.started 1 environment vectors
  let es : List ServerEvent := Server.startup rs ++ [.accept 1]
  have haccept : s₁.step (.accept 1) = some (s₁.accept 1) := rfl
  have hserver : run Server.step s₀ es = some (s₁.accept 1) :=
    (run_append hstartup _).trans (run_cons_of_step haccept [])
  have hregular : Meets Server.step Server.Regular s₀ es :=
    Server.meets_regular_startup_accept 1 hstartup hpc
  have hinOrder : Meets Server.step (Server.InOrder 0) s₀ es := by
    refine meets_of_forall (fun s e he => Server.inOrder_of_ne_io ?_) s₀
    rintro e' rfl
    simp [es, Server.startup] at he
  refine ⟨s₀, s₁.accept 1, es.map .inl, _,
    { make := hmake
      few := ⟨by decide, by decide⟩
      meets := ?_
      runs := Duplex.run_inl hserver List.nil_prefix },
    List.mem_singleton_self 0, rfl, rfl⟩
  refine meets_and_iff.mpr ⟨Duplex.meets_inl ?_, Duplex.meets_inl_right _ _ _⟩
  exact meets_and_iff.mpr ⟨hregular, hinOrder⟩

end Sample

end System

end SpeciesSimulator
