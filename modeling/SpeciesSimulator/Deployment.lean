import SpeciesSimulator.ClientScreen
import SpeciesSimulator.Lib.Star
import SpeciesSimulator.ServerPictures
import SpeciesSimulator.System

/-!
# A server and all of its clients

The process of the server, with the threads of its maps, and the processes of any
number of clients, each with its three threads.  The clients are the first
connections of the server; there may be others after them.

Main facts:
* `exists_system_run`: as far as one client can tell, the server has no other clients
  and no threads of maps;
* `exists_tile`: so a client that has drawn its map shows, cell by cell, the picture
  of a map of the server, which is what the server shows in the place of this map
  when the thread of the map waits.
-/

namespace SpeciesSimulator

open ByteLayout Transition Message

namespace ServerProcess

section Hub

variable {p : ServerProcess} {s : Server} {n : UInt64} {k : Nat}
  {e : ProcessEvent}

/-- No step takes bytes back. -/
theorem step_grows
    (c : ConnId) (p : ServerProcess) (e : ProcessEvent) (p' : ServerProcess)
    (hstep : p.step e = some p') :
    Server.Grows c p.server p'.server := by
  cases step_cases hstep with
  | server hserver => exact Server.step_grows c p.server _ _ hserver
  | startThread => exact Server.grows_of_same rfl
  | write => exact Server.grows_of_same rfl
  | wakeUp => exact Server.grows_of_same rfl
  | fault => exact Server.grows_of_same rfl

/-- A server process, as its first clients see it. -/
def hub (k : Nat) : Star.Hub (Fin k) ServerProcess ProcessEvent UInt8 where
  step := step
  sent i p := p.server.wireOf i
  got i p := p.server.receivedOf i
  sent_grows i p e p' hstep := (step_grows i p e p' hstep).wire
  got_grows i p e p' hstep := (step_grows i p e p' hstep).received

/-- Clients are accepted once the environment is running and are still there, no
handler of a refused client ends the process, and messages for the first clients are
written in order and behind their challenges. -/
def Orderly (k : Nat) (p : ServerProcess) (e : ProcessEvent) : Prop :=
  Regular p e ∧
    ∀ (i : Fin k) (e' : ServerEvent), e = .server e' →
      Server.InOrder i p.server e'

theorem Simulates.connections_eq
    (h : Simulates n p s) :
    p.server.connections = s.connections := by
  rw [h.server]
  rfl

/-- What the process does is in order for the server that it simulates. -/
theorem Simulates.meets_inOrder
    (h : Simulates n p s)
    (c : ConnId)
    (hinOrder : ∀ e', e = .server e' → Server.InOrder c p.server e') :
    Meets Server.step (Server.InOrder c) s (serverEvent e) := by
  cases e with
  | server e =>
      refine meets_cons ?_ fun _ _ => trivial
      exact (hinOrder e rfl).congr h.connections_eq.symm
  | startThread => trivial
  | write i => trivial
  | wakeUp i => trivial

/-- A client is sent the same, and the same comes in from it. -/
theorem Simulates.logs
    (h : Simulates n p s)
    (i : Fin k) :
    ((hub k).party i).sent p = (Server.party i).sent s ∧
      ((hub k).party i).got p = (Server.party i).got s := by
  show p.server.wireOf i = s.wireOf i ∧
    p.server.receivedOf i = s.receivedOf i
  unfold Server.wireOf Server.receivedOf
  rw [h.connections_eq]
  exact ⟨rfl, rfl⟩

/-- A client of a process that is a server with threads of maps. -/
theorem orderly_simulates
    (i : Fin k)
    (p : ServerProcess) (e : ProcessEvent) (p' : ServerProcess) (s : Server)
    (h : Simulates n p s)
    (horderly : Orderly k p e)
    (hstep : p.step e = some p') :
    ∃ s', run Server.step s (serverEvent e) = some s' ∧
      Meets Server.step
        (fun s e => Server.Regular s e ∧ Server.InOrder i s e) s
        (serverEvent e) ∧
      Simulates n p' s' := by
  obtain ⟨hregular, hinOrder⟩ := horderly
  obtain ⟨s', hrun, hmeets, hsim⟩ := step_simulates p e p' s h hregular hstep
  exact ⟨s', hrun,
    meets_and_iff.mpr ⟨hmeets, h.meets_inOrder i (hinOrder i)⟩, hsim⟩

end Hub

end ServerProcess

namespace System

section Screen

variable {c : ConnId} {n : UInt64} {flags : StartFlags} {t : System}
  {s₀ : Server} {es : List (ServerEvent ⊕ ClientEvent)}

/-- The client has drawn what its thread has come to. -/
theorem Runs.screenInv
    (h : Runs Orderly c n flags s₀ es t) :
    ClientProcess.ScreenInv (Starting.start flags).flags t.2 :=
  ClientProcess.run_screenInv
    (Duplex.meets_right (h.meets.mono fun _ _ h => h.2) h.runs)
    (Duplex.run_right h.runs)

/-- After its start-up a client draws a map of the server. -/
theorem Inv.draws
    (h : Inv c n flags t)
    (hscreen : ClientProcess.ScreenInv (Starting.start flags).flags t.2)
    (hokay : t.2.starting.client.startupOkay = true) :
    ∃ (j : Nat) (map : Map) (sm : Client.ServerMap) (cm : ClientMap),
      c ∈ t.1.deqConnections ∧
      t.1.environment.maps[j]? = some map ∧ sm.config = map.config ∧
      t.1.incommingEntities[j]? = some sm.entities ∧
      (c, j) ∈ t.1.served ∧ t.2.starting.client.Replicates sm ∧
      t.2.starting.client.map = some cm ∧
      Client.Draws sm t.2.drawing cm := by
  by_cases hc : c ∈ t.1.deqConnections
  · obtain ⟨conn, j, map, sm, msgs, hassigned⟩ :=
      h.exists_assignment hc
    obtain ⟨hserved, hreplica⟩ := hassigned.replicates h hokay
    obtain ⟨cm, hcm, hdraws⟩ :=
      hscreen.screen _ _ _ _ hassigned.serves hassigned.given hokay
    exact ⟨j, map, sm, cm, hc, hassigned.maps, hassigned.config,
      hassigned.entities, hserved, hreplica, hcm, hdraws⟩
  · obtain ⟨hall, _⟩ :=
      (h.view_of_not_approved hc).replicates ⟨rfl, List.nil_prefix⟩ hokay
    cases hall

end Screen

end System

/-- A server process and its first clients. -/
abbrev Deployment (k : Nat) := ServerProcess × (Fin k → ClientProcess)

namespace Deployment

section Model

variable {k : Nat}

/-- A step of the server process or of one of the clients. -/
def step :
    Deployment k → ProcessEvent ⊕ Fin k × ClientEvent → Option (Deployment k) :=
  Star.step (ServerProcess.hub k) ClientProcess.party

/-- The server has been made, and all clients have asked for a connection. -/
def start (s₀ : Server) (flags : Fin k → StartFlags) : Deployment k :=
  (ServerProcess.start s₀, fun i => ClientProcess.start (flags i))

/-- What a client shows, and what the server shows in the place of its map. -/
structure Tile
    (t : Deployment k) (i : Fin k) (j : Nat) (map : Map) (vector : List Entity)
    (cm : ClientMap) : Prop where
  maps : t.1.server.environment.maps[j]? = some map
  vectors : t.1.server.incommingEntities[j]? = some vector
  served : ((i : Nat), j) ∈ t.1.server.served
  entities : (t.2 i).starting.client.entities = vector
  clientMap : (t.2 i).starting.client.map = some cm
  client :
    (t.2 i).mapPc.startedUp = true →
      ∀ cell, map.config.Contains cell →
        Map.shownAt cm.map.config cm.buffer cell =
          some (Map.picture map.config vector cell)
  server :
    t.1.mapThreads[j]? = some [] →
      ∀ cell, map.config.Contains cell →
        Map.shownAt map.config t.1.server.environment.buffer cell =
          some (Map.picture map.config vector cell)

/-- What the server does is in order, and no client fails to connect. -/
def Orderly
    (t : Deployment k) (e : ProcessEvent ⊕ Fin k × ClientEvent) : Prop :=
  Star.OnHub (ServerProcess.Orderly k) t e ∧
    Star.OnSpokes (fun _ => ClientProcess.Connects) t e

/-- An orderly run of a server for up to 40 maps and its clients. -/
structure OrderlyRun
    (n : UInt64) (flags : Fin k → StartFlags) (s₀ : Server)
    (es : List (ProcessEvent ⊕ Fin k × ClientEvent)) (t : Deployment k) :
    Prop where
  make : Server.make n = .ok s₀
  few : Server.FewMaps n
  orderly : Meets step Orderly (start s₀ flags) es
  runs : run step (start s₀ flags) es = some t

end Model

section Clients

variable {k : Nat} {n : UInt64} {s₀ : Server} {flags : Fin k → StartFlags}
  {t t' : Deployment k} {es es' : List (ProcessEvent ⊕ Fin k × ClientEvent)}

/-- A run goes on. -/
theorem OrderlyRun.append
    (h : OrderlyRun n flags s₀ es t)
    (horderly : Meets step Orderly t es')
    (hrun : run step t es' = some t') :
    OrderlyRun n flags s₀ (es ++ es') t' :=
  { h with
    orderly := meets_append h.orderly h.runs horderly
    runs := (run_append h.runs es').trans hrun }

/-- As far as one client can tell, there are no other clients and no threads of
maps. -/
theorem OrderlyRun.exists_system_run
    (h : OrderlyRun n flags s₀ es t)
    (i : Fin k) :
    ∃ s es', ServerProcess.Simulates n t.1 s ∧
      System.Runs System.Orderly i n (flags i) s₀ es' (s, t.2 i) := by
  obtain ⟨hproject, hmeets⟩ := Star.exists_run_project i h.orderly h.runs
  obtain ⟨s, hsystem, hmeets', hsim⟩ :=
    Duplex.exists_run_of_party (P := Server.party i)
      (R := ServerProcess.Simulates n) ServerProcess.serverEvent
      (fun p s h => h.logs i)
      (fun p e p' s h => ServerProcess.orderly_simulates i p e p' s h)
      (ServerProcess.simulates_start h.make h.few) hmeets hproject
  exact ⟨s, _, hsim, h.make, h.few, hmeets', hsystem⟩

/-- No food of a map is at a wall, so that `start_up` of a client completes its
picture. -/
theorem drawn_of_startedUp
    {s : Server} {j : Nat} {map : Map} {sm : Client.ServerMap}
    {p : ClientProcess}
    (hdraws : Server.DrawsInv s)
    (hboard : Map.Board s.environment.maps)
    (hpc : s.environment.pc = .running)
    (hmap : s.environment.maps[j]? = some map)
    (hvector : s.incommingEntities[j]? = some sm.entities)
    (hstarted : p.mapPc.startedUp = true)
    (cell : Int × Int) :
    p.Drawn map.config sm.entities cell := by
  refine Or.inr ⟨hstarted, ?_⟩
  cases hgrid : Map.gridOf sm.entities cell with
  | none => exact Or.inl rfl
  | some e =>
      right
      rw [← (hdraws.settled hpc hmap hvector).lookup] at hgrid
      exact hboard.clear map (List.mem_of_getElem? hmap) cell e hgrid

/-- A client without a fault, and after its start-up with a map of the server. -/
theorem OrderlyRun.exists_tile
    (h : OrderlyRun n flags s₀ es t)
    (i : Fin k) :
    (t.2 i).starting.fault = none ∧
      ((t.2 i).starting.client.startupOkay = true →
        ∃ j map vector cm, Tile t i j map vector cm) := by
  obtain ⟨s, es', hsim, hruns⟩ := h.exists_system_run i
  have hinv := hruns.inv
  refine ⟨hinv.fault, fun hokay => ?_⟩
  obtain ⟨j, map, sm, cm, hc, hmap, hconfig, hvector, hserved, hreplica, hcm,
    hdraws⟩ := hinv.draws hruns.screenInv hokay
  have hrunning := hsim.world.running_of_approved hc
  have hmap' : t.1.server.environment.maps[j]? = some map := by
    rw [hsim.maps_eq]
    exact hmap
  have hvector' : t.1.server.incommingEntities[j]? = some sm.entities := by
    rw [hsim.server]
    exact hvector
  refine ⟨j, map, sm.entities, cm,
    { maps := hmap'
      vectors := hvector'
      served := ?_
      entities := hreplica.entities
      clientMap := hcm
      client := ?_
      server := ?_ }⟩
  · rw [hsim.server]
    exact hserved
  · intro hstarted cell hcell
    have hcell' : cm.map.config.Contains cell := by
      rw [hdraws.config, hconfig]
      exact hcell
    have hdrawn :=
      drawn_of_startedUp hsim.draws (hsim.board hrunning) hrunning hmap hvector
        hstarted cell
    rw [← hconfig] at hdrawn ⊢
    refine hdraws.shown hcell' ?_
    rw [hdraws.config]
    exact hdrawn.completes
  · intro hwaits cell hcell
    exact
      hsim.shown (hsim.pc_eq.trans hrunning) hmap' hvector' hcell
        (Or.inr hwaits)

end Clients

end Deployment

end SpeciesSimulator
