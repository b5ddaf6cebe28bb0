import SpeciesSimulator.Deployment
import SpeciesSimulator.SystemRuns

/-!
# What a server and all of its clients come to

From any state of a deployment, a client whose sockets are open can come to the end of
its start-up, whatever the other clients do or have done, and then it shows what the
server shows.  The steps that lead there are those of the client, of its connection, and
of the threads of the server; the other clients may rest.

Main facts:
* `Extends.exists_reachable`: what a server and one client can do, they can do in a
  deployment, while the other clients rest;
* `shows_tiles`: what the clients show, after every run;
* `tile_completes`: every client can come to show its map as the server does.
-/

namespace SpeciesSimulator

open ByteLayout Transition Message

namespace Server

section Others

variable {s s' : Server} {e : ServerEvent} {c d : ConnId}

/-- Nothing comes in from the other clients. -/
theorem receivedOf_of_onlyFor
    (hne : d ≠ c)
    (honly : OnlyFor c s e)
    (hstep : s.step e = some s') :
    s'.receivedOf d = s.receivedOf d := by
  have hnew
      (new : Connection MessageType) (hreceived : new.received = [])
      (hconnections : s'.connections = s.connections ++ [new]) :
      s'.receivedOf d = s.receivedOf d := by
    unfold receivedOf
    rw [hconnections]
    by_cases hlt : d < s.connections.length
    · rw [List.getElem?_append_left hlt]
    · have hle : s.connections.length ≤ d := Nat.le_of_not_lt hlt
      have hnone : s.connections[d]? = none := List.getElem?_eq_none hle
      rw [List.getElem?_append_right hle, hnone]
      cases d - s.connections.length with
      | zero => exact hreceived
      | succ j => rfl
  cases step_cases hstep with
  | startServer => rfl
  | startEnvironment => rfl
  | environment => rfl
  | fault => rfl
  | acceptFailed => rfl
  | update => rfl
  | approve => exact hnew _ rfl rfl
  | refuse => exact hnew _ rfl rfl
  | @io c' e conn conn' u =>
      obtain rfl := honly c' e rfl
      unfold receivedOf
      rw [afterIo_connections, List.getElem?_set_ne (Ne.symm hne)]
  | @handler e hd s' hh hhandler =>
      unfold receivedOf
      rcases hhandler.connections with hsame | ⟨f, hmodify, msg, hf⟩
      · rw [hsame]
      · rw [hmodify]
        by_cases hclient : hd.client = d
        · rw [hclient, List.getElem?_modify_eq]
          cases s.connections[d]? with
          | none => rfl
          | some conn =>
              rcases hf with rfl | rfl
              · rfl
              · rfl
        · rw [List.getElem?_modify_ne _ _ hclient]

end Others

end Server

namespace ServerProcess

section Lifting

variable {p : ServerProcess} {s s' : Server} {n : UInt64} {e : ServerEvent}

/-- The process can do what the server can do that it simulates. -/
theorem Simulates.exists_server_step
    (h : Simulates n p s)
    (hregular : Server.Regular s e)
    (hstep : s.step e = some s') :
    ∃ p', p.step (.server e) = some p' ∧ Simulates n p' s' := by
  have hregular' : Server.Regular p.server e := h.regular_iff.mpr hregular
  obtain ⟨s₁, hs₁⟩ : ∃ s₁, p.server.step e = some s₁ := by
    by_cases hnone : p.mapThreads = []
    · rw [h.early hnone]
      exact ⟨s', hstep⟩
    · rw [h.server, Server.step_setBuffer (h.started hnone), hstep]
      exact ⟨_, rfl⟩
  obtain ⟨s₂, hs₂, _, hsim⟩ := h.server_step hregular' hs₁
  obtain rfl := Option.some.inj (hstep.symm.trans hs₂)
  refine ⟨{ p with server := s₁ }, ?_, hsim⟩
  simp only [step, hs₁]

end Lifting

end ServerProcess

namespace ClientProcess

section StartedUp

variable {flags : StartFlags} {challenge : UInt64} {sm : Client.ServerMap}
variable {msgs sent : List (Message MessageType)} {p : ClientProcess}

/-- After start-up the thread of the map comes to the end of `start_up`. -/
theorem ClientInv.exists_startedUp
    (h : ClientInv flags p)
    (hserves : Serves sm msgs sent)
    (hgiven : p.connection.received <+: toBytes challenge ++ frames sent)
    (hokay : p.starting.client.startupOkay = true) :
    ∃ p', ReachableBy step (fun p e => Connects p e ∧ InOrder p e) p p' ∧
      (ClientInv flags p' ∧ p'.starting.client.startupOkay = true ∧
        p'.connection.received = p.connection.received ∧
        p'.connection.isOpen = p.connection.isOpen) ∧
      p'.mapPc.startedUp = true := by
  refine exists_reachableBy_of_progress left ?_ ⟨h, hokay, rfl, rfl⟩
  rintro q ⟨hq, hokay, hreceived, hopen⟩ hnot
  rw [← hreceived] at hgiven
  have hview := hq.view challenge sm msgs sent hserves hgiven
  obtain ⟨e, q', hsends⟩ := hview.exists_sends_step hokay
  have hconnects : Connects q e := fun isOpen => hsends.quiet _
  have hq' := step_clientInv q e q' hq hconnects hsends.step
  have hfar : 8 ≤ q.left := by
    cases hview.progress with
    | starting hnone =>
        rw [hokay] at hnone
        cases hnone
    | playing _ _ _ hreads =>
        cases hpc : q.mapPc with
        | created => simp [left, hpc]
        | startUp => simp [left, hpc]
        | run => simp [hpc, MapPc.startedUp] at hnot
        | wait customCond => simp [hpc, MapPc.startedUp] at hnot
        | update => simp [hpc, MapPc.startedUp] at hnot
        | push vector counted => simp [hpc, MapPc.startedUp] at hnot
        | returned =>
            rw [hpc] at hreads
            cases hreads
  refine ⟨e, q', hsends.step, ⟨hconnects, fun i he => ?_⟩, ?_⟩
  · exact absurd he (hsends.quiet _)
  rcases hsends.connection with ⟨hsame, hcloser⟩ | ⟨hleft, msg, hsent⟩
  · rw [hsame]
    exact ⟨⟨hq', hsends.okay, hreceived, hopen⟩, hcloser⟩
  · rw [hsent]
    exact ⟨⟨hq', hsends.okay, hreceived, hopen⟩, by omega⟩

end StartedUp

end ClientProcess

namespace Deployment

section Lifting

variable {k : Nat} {n : UInt64} {i : Fin k} {others : Fin k → ClientProcess}
  {d d' : System} {t : Deployment k}

/-- A server and one client, in a deployment whose other clients rest. -/
structure Extends
    (n : UInt64) (i : Fin k) (others : Fin k → ClientProcess) (d : System)
    (t : Deployment k) : Prop where
  server : ServerProcess.Simulates n t.1 d.1
  clients : t.2 = Function.update others i d.2
  joined : ∀ j : Fin k, d.1.receivedOf j <+: (t.2 j).connection.wire

/-- The events of a server and one client. -/
def embed (i : Fin k) :
    ServerEvent ⊕ ClientEvent → List (ProcessEvent ⊕ Fin k × ClientEvent)
  | .inl e => [.inl (.server e)]
  | .inr e => [.inr (i, e)]

theorem Extends.client
    (h : Extends n i others d t) :
    t.2 i = d.2 := by
  rw [h.clients, Function.update_self]

/-- What a server and one client can do, they can do while the other clients rest. -/
theorem step_extends
    (d : System) (e : ServerEvent ⊕ ClientEvent) (d' : System) (t : Deployment k)
    (h : Extends n i others d t)
    (halone : System.Alone i d e)
    (hstep : System.step i d e = some d') :
    ∃ t', run step t (embed i e) = some t' ∧
      Meets step Orderly t (embed i e) ∧ Extends n i others d' t' := by
  cases Duplex.step_cases hstep with
  | @inl e s' hserver hgot =>
      obtain ⟨hregular, hinOrder, honly⟩ := halone.1 e rfl
      obtain ⟨p', hp', hsim⟩ := h.server.exists_server_step hregular hserver
      have hjoined : ∀ j : Fin k, s'.receivedOf j <+: (t.2 j).connection.wire := by
        intro j
        by_cases hji : j = i
        · subst hji
          rw [h.client]
          exact hgot
        · have hne : (j : Nat) ≠ i := fun heq => hji (Fin.ext heq)
          rw [Server.receivedOf_of_onlyFor hne honly hserver]
          exact h.joined j
      have hgot' :
          ∀ j, (ServerProcess.hub k).got j p' <+: ClientProcess.party.sent (t.2 j) := by
        intro j
        have hsame : (ServerProcess.hub k).got j p' = s'.receivedOf j :=
          (hsim.logs j).2
        rw [hsame]
        exact hjoined j
      have hstep' : step t (.inl (.server e)) = some (p', t.2) :=
        Star.step_inl hp' hgot'
      refine ⟨_, (run_singleton _ _).trans hstep', ?_, hsim, h.clients, hjoined⟩
      refine meets_cons ⟨?_, fun j e' he => (by cases he)⟩ fun _ _ => trivial
      rintro _ ⟨⟩
      refine ⟨?_, ?_⟩
      · rintro _ ⟨⟩
        exact h.server.regular_iff.mpr hregular
      · rintro j _ ⟨⟩
        by_cases hji : (j : Nat) = i
        · rw [hji]
          exact hinOrder.congr h.server.connections_eq
        · refine Server.inOrder_of_ne_io ?_
          rintro e' rfl
          exact hji (honly j e' rfl)
  | @inr e p' hclient hgot =>
      obtain ⟨hconnects, _⟩ := halone.2 e rfl
      have hclient' : ClientProcess.party.step (t.2 i) e = some p' := by
        rw [h.client]
        exact hclient
      have hgot' :
          ClientProcess.party.got p' <+: (ServerProcess.hub k).sent i t.1 := by
        have hsame : (ServerProcess.hub k).sent i t.1 = d.1.wireOf i :=
          (h.server.logs i).1
        rw [hsame]
        exact hgot
      have hstep' :
          step t (.inr (i, e)) = some (t.1, Function.update t.2 i p') :=
        Star.step_inr hclient' hgot'
      refine ⟨_, (run_singleton _ _).trans hstep', ?_, h.server, ?_, ?_⟩
      · refine meets_cons ⟨fun e' he => (by cases he), ?_⟩ fun _ _ => trivial
        rintro _ _ ⟨⟩
        rw [h.client]
        exact hconnects
      · rw [h.clients, Function.update_idem]
      · intro j
        by_cases hji : j = i
        · subst hji
          have hjoined := h.joined j
          rw [h.client] at hjoined
          simp only [Function.update_self]
          exact hjoined.trans (ClientProcess.step_grows _ _ _ hclient).1
        · simp only [Function.update_of_ne hji]
          exact h.joined j

theorem Extends.exists_reachable
    (h : Extends n i others d t)
    (hreach : ReachableBy (System.step i) (System.Alone i) d d') :
    ∃ t', ReachableBy step Orderly t t' ∧ Extends n i others d' t' := by
  obtain ⟨es, halone, hrun⟩ := hreach
  obtain ⟨t', hrun', horderly, ht'⟩ :=
    exists_run_of_simulation (embed i) (step_extends) h halone hrun
  exact ⟨t', ⟨_, horderly, hrun'⟩, ht'⟩

/-- The threads of the maps draw until all of them wait. -/
theorem Extends.exists_allWait
    (h : Extends n i others d t)
    (hpc : d.1.environment.pc = .running) :
    ∃ p, ReachableBy step Orderly t (p, t.2) ∧ p.AllWait := by
  obtain ⟨p, hreach, hsim, hwait⟩ := h.server.exists_allWait hpc
  have hquiet :
      ReachableBy ServerProcess.step (ServerProcess.Orderly k) t.1 p := by
    refine hreach.mono fun q e he => ?_
    refine ⟨ServerProcess.regular_of_paints he, ?_⟩
    rintro j e' rfl
    cases he
  have hgot :
      ∀ j, (ServerProcess.hub k).got j p <+: ClientProcess.party.sent (t.2 j) := by
    intro j
    have hsame : (ServerProcess.hub k).got j p = d.1.receivedOf j :=
      (hsim.logs j).2
    rw [hsame]
    exact h.joined j
  exact ⟨p, Star.reachableBy_hub hquiet hgot, hwait⟩

end Lifting

section Completion

variable {k : Nat} {n : UInt64} {s₀ : Server} {flags : Fin k → StartFlags}
  {t : Deployment k} {es : List (ProcessEvent ⊕ Fin k × ClientEvent)}
  {conn : Connection MessageType}

/-- A deployment is a server with any of its clients, whose other clients rest. -/
theorem OrderlyRun.exists_extends
    (h : OrderlyRun n flags s₀ es t)
    (i : Fin k) :
    ∃ s, Extends n i t.2 (s, t.2 i) t ∧
      System.Inv i n (flags i) (s, t.2 i) ∧ System.Linked i (s, t.2 i) := by
  obtain ⟨s, es', hsim, hruns⟩ := h.exists_system_run i
  obtain ⟨hinv, hlinked⟩ := hruns.linked
  refine ⟨s, ⟨hsim, (Function.update_eq_self i t.2).symm, fun j => ?_⟩, hinv,
    hlinked⟩
  obtain ⟨s', es'', hsim', hruns'⟩ := h.exists_system_run j
  have hsame : s.receivedOf j = s'.receivedOf j :=
    (hsim.logs j).2.symm.trans (hsim'.logs j).2
  rw [hsame]
  exact hruns'.inv.joined.left

/-- A client whose sockets are open comes to the end of its start-up, and everything
is drawn. -/
theorem OrderlyRun.exists_drawn
    (h : OrderlyRun n flags s₀ es t)
    (i : Fin k)
    (happroved : (i : Nat) ∈ t.1.server.deqConnections)
    (hconn : t.1.server.connections[(i : Nat)]? = some conn)
    (hserver : conn.isOpen = true)
    (hclient : (t.2 i).connection.isOpen = true) :
    ∃ es' t', Meets step Orderly t es' ∧ run step t es' = some t' ∧
      (t'.2 i).starting.client.startupOkay = true ∧
      (t'.2 i).mapPc.startedUp = true ∧ t'.1.AllWait := by
  obtain ⟨s, hextends, hinv, hlinked⟩ := h.exists_extends i
  rw [hextends.server.server] at happroved hconn
  have hstanding :
      System.Standing i n (flags i) (t.2 i).connection.sends (s, t.2 i) :=
    System.standing_of_open hinv hlinked happroved hconn hserver hclient
  obtain ⟨⟨s₁, p₁⟩, hreach₁, h₁, hokay⟩ := hstanding.exists_okay
  obtain ⟨conn₁, _, _, _, _, hassigned⟩ :=
    h₁.inv.exists_assignment h₁.approved
  obtain ⟨p₂, hreach₂, ⟨_, hokay₂, hreceived, hopen⟩, hstarted⟩ :=
    h₁.inv.client.exists_startedUp hassigned.serves hassigned.given hokay
  obtain ⟨hreach₂, h₂⟩ := h₁.client hreach₂ hreceived hopen
  obtain ⟨t', hreach, hextends'⟩ :=
    hextends.exists_reachable (hreach₁.trans hreach₂)
  obtain ⟨p, hdraw, hwait⟩ :=
    hextends'.exists_allWait
      (h₂.inv.server.world.running_of_approved h₂.approved)
  obtain ⟨es', hmeets, hrun'⟩ := hreach.trans hdraw
  refine ⟨es', (p, t'.2), hmeets, hrun', ?_, ?_, hwait⟩
  · show (t'.2 i).starting.client.startupOkay = true
    rw [hextends'.client]
    exact hokay₂
  · show (t'.2 i).mapPc.startedUp = true
    rw [hextends'.client]
    exact hstarted

end Completion

section Sample

/-- What the server does before any client has sent anything, the process does. -/
theorem step_server
    {k : Nat}
    (q : Server) (e : ServerEvent) (q' : Server) (p : ServerProcess)
    (h : p = ServerProcess.start q)
    (horderly : Server.Regular q e ∧ ∀ c, Server.InOrder c q e)
    (hstep : q.step e = some q') :
    ∃ p', run ServerProcess.step p [.server e] = some p' ∧
      Meets ServerProcess.step (ServerProcess.Orderly k) p [.server e] ∧
      p' = ServerProcess.start q' := by
  subst h
  refine ⟨_, ServerProcess.run_server ((run_singleton q e).trans hstep), ?_, rfl⟩
  refine meets_cons ⟨?_, ?_⟩ fun _ _ => trivial
  · rintro _ ⟨⟩
    exact horderly.1
  · rintro i _ ⟨⟩
    exact horderly.2 i

/-- A server with two maps has accepted the first of two clients. -/
theorem exists_accepted (flags : Fin 2 → StartFlags) :
    ∃ (s₀ : Server) (t : Deployment 2)
      (es : List (ProcessEvent ⊕ Fin 2 × ClientEvent))
      (conn : Connection MessageType),
      OrderlyRun 2 flags s₀ es t ∧ 0 ∈ t.1.server.deqConnections ∧
      t.1.server.connections[0]? = some conn ∧ conn.isOpen = true ∧
      t.2 = fun i => ClientProcess.start (flags i) := by
  obtain ⟨s₀, hmake⟩ : ∃ s₀, Server.make 2 = .ok s₀ := ⟨_, rfl⟩
  obtain ⟨rs, environment, vectors, hstartup, _, hpc, _⟩ :=
    Server.exists_startup hmake (by decide) (by decide)
  let s₁ := Server.started 2 environment vectors
  let es : List ServerEvent := Server.startup rs ++ [.accept 1]
  have haccept : s₁.step (.accept 1) = some (s₁.accept 1) := rfl
  have hserver : run Server.step s₀ es = some (s₁.accept 1) :=
    (run_append hstartup _).trans (run_cons_of_step haccept [])
  have hregular : Meets Server.step Server.Regular s₀ es :=
    Server.meets_regular_startup_accept 1 hstartup hpc
  have hinOrder : Meets Server.step (fun s e => ∀ c, Server.InOrder c s e) s₀ es := by
    refine meets_of_forall (fun s e he c => Server.inOrder_of_ne_io ?_) s₀
    rintro e' rfl
    simp [es, Server.startup] at he
  obtain ⟨p, hprocess, horderly, rfl⟩ :=
    exists_run_of_simulation (fun e => [ProcessEvent.server e])
      (step_server (k := 2)) rfl (meets_and_iff.mpr ⟨hregular, hinOrder⟩) hserver
  have hreach :
      ReachableBy step Orderly (start s₀ flags)
        (ServerProcess.start (s₁.accept 1), fun i =>
          ClientProcess.start (flags i)) := by
    refine Star.reachableBy_hub ⟨_, horderly, hprocess⟩ fun i => ?_
    have hnone : ∀ j : Fin 2, (s₁.accept 1).receivedOf j = [] :=
      Fin.forall_fin_two.mpr ⟨rfl, rfl⟩
    show (s₁.accept 1).receivedOf i <+: _
    rw [hnone i]
    exact List.nil_prefix
  obtain ⟨es', horderly', hrun⟩ := hreach
  have hruns : OrderlyRun 2 flags s₀ es' _ :=
    ⟨hmake, ⟨by decide, by decide⟩, horderly', hrun⟩
  exact ⟨s₀, _, es', _, hruns, List.mem_singleton_self 0, rfl, rfl, rfl⟩

end Sample

section Theorems

variable {k : Nat} {n : UInt64} {s₀ : Server} {flags : Fin k → StartFlags}
  {t : Deployment k} {es : List (ProcessEvent ⊕ Fin k × ClientEvent)}
  {conn : Connection MessageType}

/-- From every state of an orderly run: a client that the server has approved, and whose
sockets are open on both sides, can come to show a map of the server at every cell as the
server itself shows it. -/
theorem tile_completes
    (h : OrderlyRun n flags s₀ es t)
    (i : Fin k)
    (happroved : (i : Nat) ∈ t.1.server.deqConnections)
    (hconn : t.1.server.connections[(i : Nat)]? = some conn)
    (hserver : conn.isOpen = true)
    (hclient : (t.2 i).connection.isOpen = true) :
    ∃ t' j map vector cm, ReachableBy step Orderly t t' ∧
      Tile t' i j map vector cm ∧
      ∀ cell, map.config.Contains cell →
        Map.shownAt cm.map.config cm.buffer cell =
            some (Map.picture map.config vector cell) ∧
          Map.shownAt map.config t'.1.server.environment.buffer cell =
            some (Map.picture map.config vector cell) := by
  obtain ⟨es', t', horderly', hrun', hokay, hstarted, hwait⟩ :=
    h.exists_drawn i happroved hconn hserver hclient
  obtain ⟨j, map, vector, cm, htile⟩ :=
    ((h.append horderly' hrun').exists_tile i).2 hokay
  exact ⟨t', j, map, vector, cm, ⟨es', horderly', hrun'⟩, htile,
    fun cell hcell =>
      ⟨htile.client hstarted cell hcell,
        htile.server (hwait.getElem? htile.maps) cell hcell⟩⟩

/-- The first of two clients, right after it is accepted. -/
theorem tile_completes_accepted :
    ∃ (t t' : Deployment 2) (j : Nat) (map : Map) (vector : List Entity)
      (cm : ClientMap),
      (t.2 0).starting.client.startupOkay = false ∧
      ReachableBy step Orderly t t' ∧ Tile t' 0 j map vector cm ∧
      ∀ cell, map.config.Contains cell →
        Map.shownAt cm.map.config cm.buffer cell =
            some (Map.picture map.config vector cell) ∧
          Map.shownAt map.config t'.1.server.environment.buffer cell =
            some (Map.picture map.config vector cell) := by
  obtain ⟨s₀, t, es, conn, hruns, happroved, hconn, hopen, hclients⟩ :=
    exists_accepted fun _ => ⟨false, false, false, false⟩
  obtain ⟨t', j, map, vector, cm, hcompletes⟩ :=
    tile_completes hruns 0 happroved hconn hopen (by rw [hclients]; rfl)
  exact ⟨t, t', j, map, vector, cm, by rw [hclients]; rfl, hcompletes⟩

end Theorems

end Deployment

end SpeciesSimulator
