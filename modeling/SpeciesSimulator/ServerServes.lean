import SpeciesSimulator.EnvironmentStartup
import SpeciesSimulator.ServerGate

/-!
# Serving validated clients

What `on_client_validated` relies on and what it sends.  It finds its map and
its entity vector by the number of approved connections: while it runs that
number is at least one and does not change, it is never more than the number of
maps, and what the environment has built is in line with the position of its
thread.

Main facts:
* `step_servingInv`: every step of the server keeps all of this;
* `exists_startup`: the environment can finish its start-up before any client
  connects;
* `run_onClientValidated`: while nothing else moves, `on_client_validated`
  sends the start-up messages of one map and its vector.
-/

namespace SpeciesSimulator

open ByteLayout Transition ListSlots

namespace Server

/-- What all runs of `on_client_validated` rely on. -/
structure ServingInv (s : Server) : Prop where
  gate : GateInv s
  startup :
    s.environment.StartupInv s.nMapsCount.toNat s.incommingEntities
  room : s.deqConnections.length ≤ s.nMapsCount.toNat

section Serving

variable {s s' : Server}

/-- A new server has built nothing. -/
theorem servingInv_of_make
    {nmapSize : UInt64}
    (h : make nmapSize = .ok s) :
    ServingInv s := by
  have hgate := gateInv_of_make h
  obtain ⟨environment, henv, rfl⟩ := exists_of_make h
  refine ⟨hgate, ?_, Nat.zero_le _⟩
  obtain ⟨⟨base, buffer⟩, _, henv⟩ := exists_of_bind_ok henv
  simp only at henv
  split at henv
  · cases henv
  · cases henv
    refine ⟨rfl, Nat.zero_le _, every_nil, by simp, ?_, ?_⟩
    · intro i vector hi
      rw [List.getElem?_replicate] at hi
      split at hi
      · cases hi
        rfl
      · cases hi
    · exact fun _ _ hpc => by cases hpc

/-- The thread of the environment has built nothing before it starts. -/
theorem startupInv_start
    {nmaps : Nat} {env : Environment} {vectors : List (List Entity)}
    (h : env.StartupInv nmaps vectors)
    (hpc : env.pc = .created) :
    ({ env with pc := .startUp } : Environment).StartupInv nmaps vectors := by
  have hmaps := h.maps_length
  have hfed := h.fed
  simp only [Environment.rounds, hpc] at hmaps hfed
  exact ⟨hmaps, Nat.zero_le _, h.pointers, h.vectors_length, hfed,
    fun _ _ hpc' => by cases hpc'⟩

/-- What a handler of a connection leaves behind is outside the environment. -/
theorem afterIo_world
    (s : Server) (c : ConnId) (conn : Connection MessageType)
    (u : Upcall MessageType) :
    (s.afterIo c conn u).nMapsCount = s.nMapsCount ∧
      (s.afterIo c conn u).environment = s.environment ∧
      (s.afterIo c conn u).incommingEntities = s.incommingEntities ∧
      (s.afterIo c conn u).deqConnections = s.deqConnections ∧
      (s.afterIo c conn u).accesses = s.accesses ∧
      (s.afterIo c conn u).served = s.served ∧
      (s.afterIo c conn u).transfers = s.transfers := by
  cases u with
  | none => exact ⟨rfl, rfl, rfl, rfl, rfl, rfl, rfl⟩
  | incoming msg => exact ⟨rfl, rfl, rfl, rfl, rfl, rfl, rfl⟩
  | validated => exact ⟨rfl, rfl, rfl, rfl, rfl, rfl, rfl⟩

/-- Every step keeps what `on_client_validated` relies on. -/
theorem step_servingInv
    (s : Server) (e : ServerEvent) (s' : Server)
    (h : ServingInv s)
    (hstep : s.step e = some s') :
    ServingInv s' := by
  have hgate := step_gateInv s e s' h.gate hstep
  cases step_cases hstep with
  | startServer => exact ⟨hgate, h.startup, h.room⟩
  | startEnvironment hpc =>
      exact ⟨hgate, startupInv_start h.startup hpc, h.room⟩
  | environment henv =>
      exact ⟨hgate, (Environment.step_cases henv).startupInv h.startup, h.room⟩
  | fault => exact ⟨hgate, h.startup, h.room⟩
  | approve hidle hroom =>
      refine ⟨hgate, h.startup, ?_⟩
      rw [List.length_append, List.length_singleton]
      exact hroom
  | refuse => exact ⟨hgate, h.startup, h.room⟩
  | acceptFailed => exact h
  | @io c e conn conn' u hidle hconn hio =>
      obtain ⟨hcount, henv, hvec, hdeq, _⟩ := afterIo_world s c conn' u
      refine ⟨hgate, ?_, ?_⟩
      · rw [hcount, henv, hvec]
        exact h.startup
      · rw [hcount, hdeq]
        exact h.room
  | handler hh hhandler =>
      have hworld := hhandler.sameWorld
      refine ⟨hgate, ?_, ?_⟩
      · rw [hworld.nMapsCount, hworld.environment, hworld.incommingEntities]
        exact h.startup
      · rw [hworld.nMapsCount, hworld.deqConnections]
        exact h.room
  | update => exact ⟨hgate, h.startup, h.room⟩

/-- Every reachable server has what `on_client_validated` relies on. -/
theorem reachable_servingInv
    {nmapSize : UInt64} {s₀ : Server}
    (hmake : make nmapSize = .ok s₀)
    (hreach : Reachable step s₀ s) :
    ServingInv s :=
  reachable_invariant step_servingInv (servingInv_of_make hmake) hreach

/-- While `on_client_validated` runs, some connection is approved. -/
theorem ServingInv.connections_pos
    {hd : Handler}
    (h : ServingInv s)
    (hh : s.handler = some hd) :
    1 ≤ s.deqConnections.length :=
  List.length_pos_of_mem (h.gate.handler_approved hh)

/-- The index is the number of approved connections less one. -/
theorem ServingInv.slot_succ
    {hd : Handler}
    (h : ServingInv s)
    (hh : s.handler = some hd) :
    s.slot + 1 = s.deqConnections.length := by
  have hpos := h.connections_pos hh
  have hroom := h.room
  have hlt := s.nMapsCount.toNat_lt
  unfold slot
  omega

end Serving

section Startup

/-- The server is started, and the environment's thread runs. -/
def startup (rs : List (Int × Int)) : List ServerEvent :=
  .startServer :: .startEnvironment ::
    rs.map fun r => .environment r.1 r.2

/-- A server without connections, before or after the start-up of the
environment. -/
def started
    (nmapSize : UInt64) (environment : Environment)
    (vectors : List (List Entity)) : Server where
  nMapsCount := nmapSize
  console := initialConsole
  environment := environment
  incommingEntities := vectors
  listening := true

/-- The steps of the environment's thread are steps of the server. -/
theorem run_environment
    {s : Server} {rs : List (Int × Int)}
    {q : Environment × List (List Entity)}
    (hcrash : s.crash = none)
    (hrun :
      run (Environment.advance s.console)
        (s.environment, s.incommingEntities) rs = some q) :
    run step s (rs.map fun r => .environment r.1 r.2) =
      some { s with environment := q.1, incommingEntities := q.2 } := by
  refine
    run_map
      (fun q : Environment × List (List Entity) =>
        ({ s with environment := q.1, incommingEntities := q.2 } : Server))
      (fun r : Int × Int => ServerEvent.environment r.1 r.2) ?_ hrun
  intro p r p' hadvance
  unfold Environment.advance at hadvance
  split at hadvance
  · next hstep =>
    cases hadvance
    simp [step, hcrash, hstep]
  · cases hadvance

/-- With at most 60 maps, the environment of a new server has room to start up
before any client connects. -/
theorem exists_run_startup
    {nmapSize : UInt64} {s₀ : Server}
    (hmake : make nmapSize = .ok s₀)
    (hpos : 1 ≤ nmapSize.toNat)
    (hle : nmapSize.toNat ≤ 60) :
    ∃ p : Environment × List (List Entity),
      p.1.StartupInv nmapSize.toNat p.2 ∧
      Environment.Roomy nmapSize.toNat p ∧ p.1.pc = .startUp ∧
      ∀ rs q, run (Environment.advance initialConsole) p rs = some q →
        run step s₀ (startup rs) = some (started nmapSize q.1 q.2) := by
  have hserving := servingInv_of_make hmake
  obtain ⟨environment, henv, rfl⟩ := exists_of_make hmake
  have hwidth : envConfig.width.toNat = 120 := rfl
  obtain ⟨hfits, hsized⟩ :=
    Environment.fits_of_make hpos (by omega) (by decide) (by decide) henv
  have hpc : environment.pc = .created := Environment.pc_of_make henv
  have hmaps : environment.maps = [] := by
    have hlength := hserving.startup.maps_length
    simp only [Environment.rounds, hpc, EnvPc.rounds] at hlength
    exact List.length_eq_zero_iff.mp hlength
  refine
    ⟨({ environment with pc := .startUp }, List.replicate nmapSize.toNat []),
      startupInv_start hserving.startup hpc, ?_, rfl, ?_⟩
  · refine ⟨by simp, hfits, hsized, ?_, ?_, by simp⟩
    · intro m hm
      rw [show environment.maps = [] from hmaps] at hm
      cases hm
    · intro vector hvector e he
      rw [List.eq_of_mem_replicate hvector] at he
      cases he
  · intro rs q hrun
    have hstart (s : Server) (hc : s.crash = none) (hl : s.listening = false) :
        s.step .startServer = some { s with listening := true } := by
      simp [step, hc, hl]
    have hthread
        (s : Server) (hc : s.crash = none) (hl : s.listening = true)
        (hp : s.environment.pc = .created) :
        s.step .startEnvironment =
          some
            { s with
              environment := { s.environment with pc := .startUp } } := by
      simp [step, hc, hl, hp]
    rw [startup, run_cons_of_step (hstart _ rfl rfl),
      run_cons_of_step (hthread _ rfl rfl hpc)]
    exact run_environment rfl hrun

/-- The environment of a new server can finish its start-up before any client
connects, and then there are all maps. -/
theorem exists_startup
    {nmapSize : UInt64} {s₀ : Server}
    (hmake : make nmapSize = .ok s₀)
    (hpos : 1 ≤ nmapSize.toNat)
    (hle : nmapSize.toNat ≤ 60) :
    ∃ rs environment vectors,
      run step s₀ (startup rs) =
        some (started nmapSize environment vectors) ∧
      environment.StartupInv nmapSize.toNat vectors ∧
      environment.pc = .running ∧
      environment.maps.length = nmapSize.toNat := by
  obtain ⟨p, hinv, hroomy, _, hstarted⟩ := exists_run_startup hmake hpos hle
  obtain ⟨rs, q, hrun, hinv', hgoal⟩ :=
    Environment.exists_run_running initialConsole hinv hroomy
  exact ⟨rs, q.1, q.2, hstarted rs q hrun, hinv', hgoal⟩

end Startup

section OneClient

theorem SameWorld.trans
    {s s' s'' : Server}
    (h : SameWorld s s')
    (h' : SameWorld s' s'') :
    SameWorld s s'' where
  listening := h'.listening.trans h.listening
  nMapsCount := h'.nMapsCount.trans h.nMapsCount
  environment := h'.environment.trans h.environment
  incommingEntities := h'.incommingEntities.trans h.incommingEntities
  deqConnections := h'.deqConnections.trans h.deqConnections
  qMessagesIn := h'.qMessagesIn.trans h.qMessagesIn
  validated := h'.validated.trans h.validated
  connectionsAtValidation :=
    h'.connectionsAtValidation.trans h.connectionsAtValidation

theorem SameWorld.slot
    {s s' : Server}
    (h : SameWorld s s') :
    s'.slot = s.slot := by
  simp only [Server.slot, h.deqConnections]

/-- `on_client_validated` has sent messages with data of its map. -/
structure Serves
    (s s' : Server) (c : ConnId) (msgs : List (Message MessageType)) :
    Prop where
  world : SameWorld s s'
  crash : s'.crash = none
  served : s'.served = s.served ++ List.replicate msgs.length (c, s.slot)
  connections :
    s'.connections =
      s.connections.modify c fun conn => msgs.foldl Connection.send conn

theorem Serves.trans
    {s s' s'' : Server} {c : ConnId}
    {msgs msgs' : List (Message MessageType)}
    (h : Serves s s' c msgs)
    (h' : Serves s' s'' c msgs') :
    Serves s s'' c (msgs ++ msgs') where
  world := h.world.trans h'.world
  crash := h'.crash
  served := by
    rw [h'.served, h.served, h.world.slot, List.length_append,
      List.append_assoc, List.replicate_append_replicate]
  connections := by
    rw [h'.connections, h.connections, List.modify_modify_eq]
    refine congrArg (s.connections.modify c) ?_
    funext conn
    exact (List.foldl_append).symm

theorem serves_send
    {s : Server}
    (hcrash : s.crash = none)
    (size : Nat) (c : ConnId) (msg : Message MessageType) (stage : Stage) :
    Serves s ((((s.noteAccess size).sendTo c msg).noteServed c).atStage c stage)
      c [msg] :=
  ⟨.update, hcrash, rfl, rfl⟩

theorem serves_read
    {s : Server}
    (hcrash : s.crash = none)
    (size : Nat) (c : ConnId) (stage : Stage) :
    Serves s ((s.noteAccess size).atStage c stage) c [] :=
  ⟨.update, hcrash, (List.append_nil _).symm,
    (List.modify_id _ _).symm⟩

theorem withMap_of_none
    {s : Server}
    (hmap : s.environment.maps[s.slot]? = none)
    (f : Server → Map → Server) :
    s.withMap f =
      (s.noteAccess s.environment.maps.length).fail .outOfRange := by
  have hmap' :
      (s.noteAccess s.environment.maps.length).environment.maps[
        (s.noteAccess s.environment.maps.length).slot]? = none := hmap
  simp only [withMap, hmap']

theorem withMap_of_some
    {s : Server} {map : Map}
    (hmap : s.environment.maps[s.slot]? = some map)
    (f : Server → Map → Server) :
    s.withMap f = f (s.noteAccess s.environment.maps.length) map := by
  have hmap' :
      (s.noteAccess s.environment.maps.length).environment.maps[
        (s.noteAccess s.environment.maps.length).slot]? = some map := hmap
  simp only [withMap, hmap']

theorem withVector_of_none
    {s : Server}
    (hvector : s.incommingEntities[s.slot]? = none)
    (f : Server → List Entity → Server) :
    s.withVector f =
      (s.noteAccess s.incommingEntities.length).fail .outOfRange := by
  have hvector' :
      (s.noteAccess s.incommingEntities.length).incommingEntities[
        (s.noteAccess s.incommingEntities.length).slot]? = none := hvector
  simp only [withVector, hvector']

theorem withVector_of_some
    {s : Server} {vector : List Entity}
    (hvector : s.incommingEntities[s.slot]? = some vector)
    (f : Server → List Entity → Server) :
    s.withVector f = f (s.noteAccess s.incommingEntities.length) vector := by
  have hvector' :
      (s.noteAccess s.incommingEntities.length).incommingEntities[
        (s.noteAccess s.incommingEntities.length).slot]? = some vector :=
    hvector
  simp only [withVector, hvector']

theorem step_handler
    {s s' : Server} {h : Handler} {e : HandlerEvent}
    (hcrash : s.crash = none)
    (hh : s.handler = some h)
    (hstep : s.handlerStep h e = some s') :
    s.step (.handler e) = some s' := by
  simp [step, hcrash, hh, hstep]

/-- The first steps of `on_client_validated`, up to the announced size. -/
def announce : List ServerEvent :=
  [.handler .sendLayout, .handler .sendConfig, .handler .sendEntitiesSize]

/-- Its last steps, with the entities. -/
def readEntities : List ServerEvent :=
  [.handler .getVector, .handler .getSize, .handler .sendEntities]

/-- The steps of `on_client_validated`. -/
def onClientValidated : List ServerEvent :=
  announce ++ readEntities

section Stages

variable {s : Server} {c : ConnId} {map : Map} {vector : List Entity}

theorem step_sendLayout
    (hcrash : s.crash = none)
    (hh : s.handler = some ⟨c, .layout⟩)
    (hmap : s.environment.maps[s.slot]? = some map) :
    ∃ s', s.step (.handler .sendLayout) = some s' ∧
      Serves s s' c [layoutMessage map.conLay] ∧
      s'.handler = some ⟨c, .config⟩ := by
  refine
    ⟨_, step_handler hcrash hh ?_,
      serves_send hcrash s.environment.maps.length c _ _, rfl⟩
  show some (s.sendLayout c) = _
  rw [sendLayout, withMap_of_some hmap]

theorem step_sendConfig
    (hcrash : s.crash = none)
    (hh : s.handler = some ⟨c, .config⟩)
    (hmap : s.environment.maps[s.slot]? = some map) :
    ∃ s', s.step (.handler .sendConfig) = some s' ∧
      Serves s s' c [configMessage map.config] ∧
      s'.handler = some ⟨c, .entitiesSize⟩ := by
  refine
    ⟨_, step_handler hcrash hh ?_,
      serves_send hcrash s.environment.maps.length c _ _, rfl⟩
  show some (s.sendConfig c) = _
  rw [sendConfig, withMap_of_some hmap]

theorem step_sendEntitiesSize
    (hcrash : s.crash = none)
    (hh : s.handler = some ⟨c, .entitiesSize⟩)
    (hmap : s.environment.maps[s.slot]? = some map)
    (hptr : map.entitiesExternal = some s.slot)
    (hvector : s.incommingEntities[s.slot]? = some vector) :
    ∃ s', s.step (.handler .sendEntitiesSize) = some s' ∧
      Serves s s' c [entitiesSizeMessage (UInt64.ofNat vector.length)] ∧
      s'.handler =
        some
          ⟨c,
            .entities vector
              (entitiesSizeMessage (UInt64.ofNat vector.length))
              none none⟩ := by
  refine
    ⟨_, step_handler hcrash hh ?_,
      serves_send hcrash s.environment.maps.length c _ _, rfl⟩
  show some (s.sendEntitiesSize c) = _
  have hvector' :
      (s.noteAccess s.environment.maps.length).incommingEntities[s.slot]? =
        some vector := hvector
  rw [sendEntitiesSize, withMap_of_some hmap]
  simp only [hptr, hvector']

theorem step_getVector
    {announced : List Entity} {entMsg : Message MessageType}
    {counted : Option (List Entity)}
    (hcrash : s.crash = none)
    (hh : s.handler = some ⟨c, .entities announced entMsg none counted⟩)
    (hvector : s.incommingEntities[s.slot]? = some vector) :
    s.step (.handler .getVector) =
      some
        ((s.noteAccess s.incommingEntities.length).atStage c
          (.entities announced entMsg (some vector) counted)) := by
  refine step_handler hcrash hh ?_
  simp only [handlerStep, withVector_of_some hvector]

theorem step_getSize
    {announced : List Entity} {entMsg : Message MessageType}
    {read : Option (List Entity)}
    (hcrash : s.crash = none)
    (hh : s.handler = some ⟨c, .entities announced entMsg read none⟩)
    (hvector : s.incommingEntities[s.slot]? = some vector) :
    s.step (.handler .getSize) =
      some
        ((s.noteAccess s.incommingEntities.length).atStage c
          (.entities announced entMsg read (some vector))) := by
  refine step_handler hcrash hh ?_
  simp only [handlerStep, withVector_of_some hvector]

theorem step_sendEntities
    {announced counted : List Entity} {entMsg : Message MessageType}
    (hcrash : s.crash = none)
    (hh :
      s.handler =
        some ⟨c, .entities announced entMsg (some vector) (some counted)⟩) :
    s.step (.handler .sendEntities) =
      some (s.sendEntities c announced entMsg vector counted) :=
  step_handler hcrash hh rfl

/-- The vector and its size can always be sent together. -/
theorem serves_sendEntities
    (hcrash : s.crash = none)
    (c : ConnId) (announced : List Entity) (entMsg : Message MessageType)
    (vector : List Entity) :
    ∃ s' msg, entitiesMessage entMsg vector vector.length = some msg ∧
      s.sendEntities c announced entMsg vector vector = s'.finish c ∧
      Serves s s' c [msg] ∧
      s'.transfers =
        s.transfers ++ [⟨c, announced, entMsg, vector, some msg⟩] := by
  let msg :=
    (entMsg.setId .sendEntities).setBody (entMsg.body ++ serialize vector)
  let s' := s.noteTransfer ⟨c, announced, entMsg, vector, some msg⟩
  refine
    ⟨(s'.sendTo c msg).noteServed c, msg,
      entitiesMessage_length entMsg vector, ?_,
      ⟨.update, hcrash, rfl, rfl⟩, rfl⟩
  simp only [sendEntities, entitiesMessage_length, s', msg]

end Stages

/-- While no other thread moves, `on_client_validated` announces the size of
the vector of its map. -/
theorem run_announce
    {s : Server} {c : ConnId} {map : Map} {vector : List Entity}
    (hcrash : s.crash = none)
    (hh : s.handler = some ⟨c, .layout⟩)
    (hmap : s.environment.maps[s.slot]? = some map)
    (hptr : map.entitiesExternal = some s.slot)
    (hvector : s.incommingEntities[s.slot]? = some vector) :
    ∃ s', run step s announce = some s' ∧
      Serves s s' c
        [layoutMessage map.conLay, configMessage map.config,
          entitiesSizeMessage (UInt64.ofNat vector.length)] ∧
      s'.handler =
        some
          ⟨c,
            .entities vector
              (entitiesSizeMessage (UInt64.ofNat vector.length))
              none none⟩ := by
  obtain ⟨s₁, hstep₁, h₁, hh₁⟩ := step_sendLayout hcrash hh hmap
  have hmap₁ : s₁.environment.maps[s₁.slot]? = some map := by
    rw [h₁.world.slot, h₁.world.environment]
    exact hmap
  obtain ⟨s₂, hstep₂, h₂, hh₂⟩ := step_sendConfig h₁.crash hh₁ hmap₁
  have h₂ := h₁.trans h₂
  have hmap₂ : s₂.environment.maps[s₂.slot]? = some map := by
    rw [h₂.world.slot, h₂.world.environment]
    exact hmap
  have hvector₂ : s₂.incommingEntities[s₂.slot]? = some vector := by
    rw [h₂.world.slot, h₂.world.incommingEntities]
    exact hvector
  obtain ⟨s₃, hstep₃, h₃, hh₃⟩ :=
    step_sendEntitiesSize h₂.crash hh₂ hmap₂ (by rw [h₂.world.slot]; exact hptr)
      hvector₂
  refine ⟨s₃, ?_, h₂.trans h₃, hh₃⟩
  simp only [announce, run, hstep₁, hstep₂, hstep₃]

/-- While no other thread moves, the vector is sent as it is. -/
theorem run_readEntities
    {s : Server} {c : ConnId} {announced vector : List Entity}
    {entMsg : Message MessageType}
    (hcrash : s.crash = none)
    (hh : s.handler = some ⟨c, .entities announced entMsg none none⟩)
    (hvector : s.incommingEntities[s.slot]? = some vector) :
    ∃ s' msg, run step s readEntities = some (s'.finish c) ∧
      entitiesMessage entMsg vector vector.length = some msg ∧
      Serves s s' c [msg] ∧
      s'.transfers =
        s.transfers ++ [⟨c, announced, entMsg, vector, some msg⟩] := by
  let s₁ :=
    (s.noteAccess s.incommingEntities.length).atStage c
      (.entities announced entMsg (some vector) none)
  have hstep₁ : s.step (.handler .getVector) = some s₁ :=
    step_getVector hcrash hh hvector
  have h₁ : Serves s s₁ c [] := serves_read hcrash _ c _
  let s₂ :=
    (s₁.noteAccess s₁.incommingEntities.length).atStage c
      (.entities announced entMsg (some vector) (some vector))
  have hstep₂ : s₁.step (.handler .getSize) = some s₂ :=
    step_getSize h₁.crash rfl hvector
  have h₂ : Serves s₁ s₂ c [] := serves_read h₁.crash _ c _
  obtain ⟨s₃, msg, hmsg, hlast, h₃, htransfers⟩ :=
    serves_sendEntities h₂.crash c announced entMsg vector
  have hstep₃ : s₂.step (.handler .sendEntities) = some (s₃.finish c) := by
    rw [← hlast]
    exact step_sendEntities h₂.crash rfl
  refine ⟨s₃, msg, ?_, hmsg, (h₁.trans h₂).trans h₃, htransfers⟩
  rw [readEntities, run_cons_of_step hstep₁, run_cons_of_step hstep₂,
    run_cons_of_step hstep₃, run_nil]

/-- While no other thread moves, `on_client_validated` sends what a client is
to be sent after its approval. -/
theorem run_onClientValidated
    {s : Server} {c : ConnId} {map : Map} {vector : List Entity}
    (hcrash : s.crash = none)
    (hh : s.handler = some ⟨c, .layout⟩)
    (hmap : s.environment.maps[s.slot]? = some map)
    (hptr : map.entitiesExternal = some s.slot)
    (hvector : s.incommingEntities[s.slot]? = some vector) :
    ∃ s' msgs, startupMessages map.conLay map.config vector = some msgs ∧
      Serves s s' c msgs.tail ∧
      run step s onClientValidated = some (s'.finish c) := by
  obtain ⟨s₁, hrun₁, h₁, hh₁⟩ := run_announce hcrash hh hmap hptr hvector
  have hvector₁ : s₁.incommingEntities[s₁.slot]? = some vector := by
    rw [h₁.world.slot, h₁.world.incommingEntities]
    exact hvector
  obtain ⟨s₂, msg, hrun₂, hmsg, h₂, _⟩ :=
    run_readEntities h₁.crash hh₁ hvector₁
  refine
    ⟨s₂,
      [acceptMessage, layoutMessage map.conLay, configMessage map.config,
        entitiesSizeMessage (UInt64.ofNat vector.length), msg],
      ?_, h₁.trans h₂, ?_⟩
  · simp only [startupMessages, hmsg, Option.map_some]
  · rw [onClientValidated, run_append hrun₁, hrun₂]

theorem step_io
    {s : Server} {c : ConnId} {e : IoEvent}
    {conn conn' : Connection MessageType} {u : Upcall MessageType}
    (hcrash : s.crash = none)
    (hidle : s.handler = none)
    (hconn : s.connections[c]? = some conn)
    (hio : conn.ioStep e = some (conn', u)) :
    s.step (.io c e) = some (s.afterIo c conn' u) := by
  simp [step, hcrash, hidle, hconn, hio]

/-- A new client is approved and gives the right reply. -/
def newClient (c : ConnId) (now : UInt64) : List ServerEvent :=
  [.accept now, .io c (.recv 0 (toBytes (mfScramble now)))]

/-- A new client was approved and validated. -/
structure Joins (s s' : Server) (c : ConnId) : Prop where
  crash : s'.crash = none
  handler : s'.handler = some ⟨c, .layout⟩
  listening : s'.listening = s.listening
  nMapsCount : s'.nMapsCount = s.nMapsCount
  environment : s'.environment = s.environment
  incommingEntities : s'.incommingEntities = s.incommingEntities
  served : s'.served = s.served
  deqConnections : s'.deqConnections = s.deqConnections ++ [c]
  connections : s'.connections.length = s.connections.length + 1
  connectionsAtValidation :
    s'.connectionsAtValidation = s.deqConnections.length + 1

/-- A new client that gives the right reply is validated. -/
theorem exists_run_new_client
    {s : Server} {c : ConnId}
    (now : UInt64)
    (hcrash : s.crash = none)
    (hlistening : s.listening = true)
    (hidle : s.handler = none)
    (hroom : s.deqConnections.length < s.nMapsCount.toNat)
    (hc : c = s.connections.length) :
    ∃ s' s'', run step s (newClient c now) = some s' ∧
      s'.connectionsAtValidation = s.connectionsAtValidation ∧
      s'.deqConnections = s.deqConnections ++ [c] ∧
      s'.step (.io c (.readDone 0)) = some s'' ∧ Joins s s'' c := by
  subst hc
  obtain ⟨conn, conn', hrecv, hdone⟩ :=
    Connection.exists_right_reply acceptMessage now s.nIDCounter
  let s₁ : Server :=
    { s with
      connections :=
        s.connections ++
          [Connection.acceptConnection acceptMessage now s.nIDCounter]
      deqConnections := s.deqConnections ++ [s.connections.length]
      nIDCounter := s.nIDCounter + 1 }
  have hstep₁ : s.step (.accept now) = some s₁ := by
    simp [step, hcrash, hlistening, hidle, accept, hroom, s₁]
  have hconn₁ :
      s₁.connections[s.connections.length]? =
        some (Connection.acceptConnection acceptMessage now s.nIDCounter) :=
    List.getElem?_concat_length
  have hstep₂ := step_io (s := s₁) hcrash hidle hconn₁ hrecv
  let s₂ := s₁.afterIo s.connections.length conn .none
  have hconn₂ : s₂.connections[s.connections.length]? = some conn := by
    show (s₁.connections.set s.connections.length conn)[
      s.connections.length]? = some conn
    refine List.getElem?_set_self ?_
    simp [s₁]
  have hstep₃ := step_io (s := s₂) hcrash hidle hconn₂ hdone
  refine
    ⟨s₂, s₂.afterIo s.connections.length conn' .validated, ?_, rfl, rfl,
      hstep₃, ⟨hcrash, rfl, rfl, rfl, rfl, rfl, rfl, rfl, ?_, ?_⟩⟩
  · rw [newClient, run_cons_of_step hstep₁, run_cons_of_step hstep₂, run_nil]
  · simp [s₂, s₁, afterIo]
  · simp [s₂, s₁, afterIo]

/-- With a map for every approved connection there is one for the handler, and
it shows the vector with its own index. -/
theorem ServingInv.exists_map
    {s : Server} {hd : Handler}
    (h : ServingInv s)
    (hh : s.handler = some hd)
    (hmaps : s.deqConnections.length ≤ s.environment.maps.length) :
    ∃ map vector, s.environment.maps[s.slot]? = some map ∧
      map.entitiesExternal = some s.slot ∧
      s.incommingEntities[s.slot]? = some vector := by
  have hslot := h.slot_succ hh
  have hlength := h.startup.vectors_length
  have hroom := h.room
  have hmap := List.getElem?_eq_getElem
    (show s.slot < s.environment.maps.length by omega)
  have hvector := List.getElem?_eq_getElem
    (show s.slot < s.incommingEntities.length by omega)
  exact ⟨_, _, hmap, h.startup.pointers s.slot _ hmap, hvector⟩

/-- With a map for every approved connection, `on_client_validated` can run to
its end and send the data of one map. -/
theorem exists_run_onClientValidated
    {s : Server} {c : ConnId}
    (h : ServingInv s)
    (hcrash : s.crash = none)
    (hh : s.handler = some ⟨c, .layout⟩)
    (hmaps : s.deqConnections.length ≤ s.environment.maps.length) :
    ∃ s' msgs, Serves s s' c msgs ∧ msgs.length = 4 ∧
      run step s onClientValidated = some (s'.finish c) := by
  obtain ⟨map, vector, hmap, hptr, hvector⟩ := h.exists_map hh hmaps
  obtain ⟨s', msgs, hmsgs, hserves, hrun⟩ :=
    run_onClientValidated hcrash hh hmap hptr hvector
  obtain ⟨_, _, _, _, rfl⟩ := startupMessages_eq hmsgs
  exact ⟨s', _, hserves, rfl, hrun⟩

/-- The first client joins a server whose environment has been started. -/
theorem exists_run_first_client
    {nmapSize : UInt64} {s₀ : Server} {rs : List (Int × Int)}
    {environment : Environment} {vectors : List (List Entity)}
    (hmake : make nmapSize = .ok s₀)
    (hpos : 0 < nmapSize.toNat)
    (hstartup :
      run step s₀ (startup rs) = some (started nmapSize environment vectors)) :
    ∃ s,
      run step s₀ ((startup rs ++ newClient 0 1) ++ [.io 0 (.readDone 0)]) =
        some s ∧
      Joins (started nmapSize environment vectors) s 0 ∧
      s.slot = 0 ∧ ServingInv s := by
  obtain ⟨s₁, s, hrun, _, _, hstep, hjoins⟩ :=
    exists_run_new_client (s := started nmapSize environment vectors) (c := 0)
      1 rfl rfl rfl hpos rfl
  have hrun₁ := (run_append hstartup _).trans hrun
  have hrun₂ :=
    (run_append hrun₁ [.io 0 (.readDone 0)]).trans (run_cons_of_step hstep [])
  have hdeq : s.deqConnections = [0] := hjoins.deqConnections
  refine ⟨s, hrun₂, hjoins, ?_, reachable_servingInv hmake ⟨_, hrun₂⟩⟩
  simp [slot, hdeq]

end OneClient

end Server

end SpeciesSimulator
