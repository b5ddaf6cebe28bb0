import SpeciesSimulator.NetLinkProgress
import SpeciesSimulator.ServerWorld

/-!
# What one client of a server is sent

One connection in every run of a server that accepts its clients late: the
handlers of `send` of this connection run in the order in which they were
posted, and not before its challenge is written.  All other connections do what
they like.

Main facts:
* `step_sessionInv`: what was sent to the client are the messages up to the
  statement of `on_client_validated` that comes next, and its writes take turns;
* `SessionInv.sends_prefix`: so it is a beginning of the start-up messages of
  one map and its vector.
-/

namespace SpeciesSimulator

open ByteLayout Transition ListSlots

universe u

namespace Connection

variable {T : Type u}

/-- Several calls of `send`. -/
theorem foldl_send (c : Connection T) (msgs : List (Message T)) :
    msgs.foldl send c = { c with posted := c.posted ++ msgs } := by
  induction msgs generalizing c with
  | nil => simp
  | cons msg msgs ih =>
      rw [List.foldl_cons, ih]
      simp [send]

end Connection

namespace Server

section Model

/-- Handlers of `send` of a connection run in their order, and bytes of its
messages follow those of its challenge. -/
structure InOrder (c : ConnId) (s : Server) (e : ServerEvent) : Prop where
  posted : ∀ i, e = .io c (.runSend i) → i = 0
  first : ∀ e₀ conn, e = .io c e₀ → s.connections[c]? = some conn →
    conn.ChallengeFirst (.io e₀)

theorem inOrder_of_ne_io
    {c : ConnId} {s : Server} {e : ServerEvent}
    (h : ∀ e', e ≠ .io c e') :
    InOrder c s e :=
  ⟨fun _ he => absurd he (h _), fun _ _ he _ => absurd he (h _)⟩

/-- Only the connections matter. -/
theorem InOrder.congr
    {c : ConnId} {s s' : Server} {e : ServerEvent}
    (h : InOrder c s e)
    (hconnections : s'.connections = s.connections) :
    InOrder c s' e := by
  refine ⟨h.posted, fun e₀ conn he hconn => ?_⟩
  rw [hconnections] at hconn
  exact h.first e₀ conn he hconn

/-- How far the server has come with a client. -/
inductive SessionLog
    (s : Server) (c : ConnId) (sends : List (Message MessageType)) : Prop
  | approved
      (hnot : c ∉ s.validated)
      (hlog : sends = [acceptMessage])
  | serving {stage : Stage} {map : Map} {vector : List Entity}
      (hh : s.handler = some ⟨c, stage⟩)
      (hmap : s.environment.maps[s.slot]? = some map)
      (hvector : s.incommingEntities[s.slot]? = some vector)
      (hserved : stage ≠ .layout → (c, s.slot) ∈ s.served)
      (hlog : sends = acceptMessage :: sentBefore map vector stage)
  | served {i : Nat} {map : Map} {vector : List Entity}
      (hval : c ∈ s.validated)
      (hdone : ∀ hd, s.handler = some hd → hd.client ≠ c)
      (hmap : s.environment.maps[i]? = some map)
      (hvector : s.incommingEntities[i]? = some vector)
      (hserved : (c, i) ∈ s.served)
      (hlog :
        startupMessages map.conLay map.config vector = some sends)

/-- An approved connection and what was sent on it. -/
structure Session
    (s : Server) (c : ConnId) (conn : Connection MessageType) : Prop where
  turn : Connection.InTurn conn.nHandshakeOut conn
  log : SessionLog s c conn.sends

/-- The connection with a place, once it is approved. -/
structure SessionInv (c : ConnId) (s : Server) : Prop where
  world : WorldInv s
  session :
    c ∈ s.deqConnections →
      ∃ conn, s.connections[c]? = some conn ∧ Session s c conn

end Model

section Frame

variable {s s' : Server} {c : ConnId}

/-- A step that does not concern what a client is sent. -/
structure SameSession (c : ConnId) (s s' : Server) : Prop where
  environment : s'.environment = s.environment
  incommingEntities : s'.incommingEntities = s.incommingEntities
  slot : ∀ stage, s.handler = some ⟨c, stage⟩ → s'.slot = s.slot
  validated : c ∈ s'.validated ↔ c ∈ s.validated
  served : ∀ i, (c, i) ∈ s.served → (c, i) ∈ s'.served
  keeps : ∀ stage, s.handler = some ⟨c, stage⟩ → s'.handler = s.handler
  other :
    ∀ hd, s'.handler = some hd → hd.client = c → s.handler = some hd

theorem SessionLog.congr
    {sends : List (Message MessageType)}
    (h : SessionLog s c sends)
    (hs : SameSession c s s') :
    SessionLog s' c sends := by
  cases h with
  | approved hnot hlog =>
      exact .approved (fun hc => hnot (hs.validated.mp hc)) hlog
  | @serving stage map vector hh hmap hvector hserved hlog =>
      refine .serving ((hs.keeps stage hh).trans hh) ?_ ?_ ?_ hlog
      · rw [hs.environment, hs.slot stage hh]
        exact hmap
      · rw [hs.incommingEntities, hs.slot stage hh]
        exact hvector
      · intro hstage
        rw [hs.slot stage hh]
        exact hs.served _ (hserved hstage)
  | @served i map vector hval hdone hmap hvector hserved hlog =>
      refine .served (hs.validated.mpr hval) ?_ ?_ ?_ (hs.served _ hserved) hlog
      · intro hd hhd hclient
        exact hdone hd (hs.other hd hhd hclient) hclient
      · rw [hs.environment]
        exact hmap
      · rw [hs.incommingEntities]
        exact hvector

theorem Session.congr
    {conn : Connection MessageType}
    (h : Session s c conn)
    (hs : SameSession c s s') :
    Session s' c conn :=
  ⟨h.turn, h.log.congr hs⟩

/-- A handler of another connection. -/
theorem sameSession_afterIo
    {d : ConnId} {e : IoEvent} {conn conn' : Connection MessageType}
    {u : Upcall MessageType}
    (hd : d ≠ c)
    (hidle : e.movesBytes = true ∨ s.handler = none)
    (hio : Connection.IoStep conn e conn' u) :
    SameSession c s (s.afterIo d conn' u) := by
  cases u with
  | none =>
      exact ⟨rfl, rfl, fun _ _ => rfl, Iff.rfl, fun _ => id, fun _ _ => rfl,
        fun _ hhd _ => hhd⟩
  | incoming msg =>
      exact ⟨rfl, rfl, fun _ _ => rfl, Iff.rfl, fun _ => id, fun _ _ => rfl,
        fun _ hhd _ => hhd⟩
  | validated =>
      have hnone : s.handler = none := by
        rcases hidle with hmoves | hnone
        · have hu := upcall_of_movesBytes hio hmoves
          cases hu
        · exact hnone
      refine ⟨rfl, rfl, fun _ _ => rfl, ?_, fun _ => id, ?_, ?_⟩
      · show c ∈ s.validated ++ [d] ↔ _
        simp [Ne.symm hd]
      · intro stage hh
        rw [hnone] at hh
        cases hh
      · rintro hd' ⟨⟩ hclient
        exact absurd hclient hd

/-- A step of `on_client_validated` for another client. -/
theorem sameSession_handler
    {hd : Handler} {msgs : List (Message MessageType)} {next : Option Stage}
    (hh : s.handler = some hd)
    (hclient : hd.client ≠ c)
    (h : Transmits s s' hd msgs next) :
    SameSession c s s' where
  environment := h.world.environment
  incommingEntities := h.world.incommingEntities
  slot := fun _ _ => h.world.slot
  validated := by rw [h.world.validated]
  served := by
    intro i hi
    rw [h.served]
    exact List.mem_append_left _ hi
  keeps := by
    intro stage hh'
    rw [hh] at hh'
    cases hh'
    exact absurd rfl hclient
  other := by
    intro hd' hh' hclient'
    rw [h.handler] at hh'
    cases next with
    | none => cases hh'
    | some stage =>
        cases hh'
        exact absurd hclient' hclient

/-- The environment is running once a client is approved. -/
theorem WorldInv.running_of_approved
    (h : WorldInv s)
    (hc : c ∈ s.deqConnections) :
    s.environment.pc = .running := by
  refine h.late fun hnone => ?_
  have hlt := h.serving.gate.approved c hc
  simp [hnone] at hlt

end Frame

section Steps

variable {s s' : Server} {c : ConnId} {conn conn' : Connection MessageType}

/-- A handler of the client's own connection. -/
theorem Session.io
    {e : IoEvent} {u : Upcall MessageType}
    (h : Session s c conn)
    (hworld : WorldInv s)
    (hgate : GateInv (s.afterIo c conn' u))
    (hidle : e.movesBytes = true ∨ s.handler = none)
    (hposted : ∀ i, e = .runSend i → i = 0)
    (hfirst : conn.ChallengeFirst (.io e))
    (happroved : c ∈ s.deqConnections)
    (hio : Connection.IoStep conn e conn' u) :
    Session (s.afterIo c conn' u) c conn' := by
  have hsends : conn'.sends = conn.sends :=
    Connection.ioStep_sends hio hposted
  obtain ⟨hout, _⟩ := Connection.ioStep_challenge hio h.turn.owner
  refine ⟨?_, ?_⟩
  · rw [hout]
    exact Connection.ioStep_inTurn hio hfirst h.turn
  · rw [hsends]
    cases u with
    | none =>
        exact h.log.congr
          ⟨rfl, rfl, fun _ _ => rfl, Iff.rfl, fun _ => id, fun _ _ => rfl,
            fun _ hhd _ => hhd⟩
    | incoming msg =>
        exact h.log.congr
          ⟨rfl, rfl, fun _ _ => rfl, Iff.rfl, fun _ => id, fun _ _ => rfl,
            fun _ hhd _ => hhd⟩
    | validated =>
        -- a client is validated once, while no other one is served
        have hnot : c ∉ s.validated := by
          intro hval
          have honce : (s.validated ++ [c]).Nodup := hgate.once
          rw [List.nodup_append] at honce
          exact honce.2.2 c hval c (List.mem_singleton_self c) rfl
        cases h.log with
        | approved _ hlog =>
            let s₁ := s.afterIo c conn' .validated
            have hmaps := (hworld.food (hworld.running_of_approved happroved)).2
            have hvectors := hworld.serving.startup.vectors_length
            have hroom := hworld.serving.room
            have hslot : s.slot < s.deqConnections.length := by
              have hpos := List.length_pos_of_mem happroved
              have hlt := s.nMapsCount.toNat_lt
              unfold slot
              omega
            have hmap := List.getElem?_eq_getElem
              (show s.slot < s.environment.maps.length by omega)
            have hvector := List.getElem?_eq_getElem
              (show s.slot < s.incommingEntities.length by omega)
            exact .serving (s := s₁) rfl hmap hvector
              (fun hstage => absurd rfl hstage) hlog
        | serving hh =>
            rcases hidle with hmoves | hnone
            · have hu := upcall_of_movesBytes hio hmoves
              cases hu
            · rw [hnone] at hh
              cases hh
        | served hval => exact absurd hval hnot

/-- A step of `on_client_validated`. -/
theorem Session.handler
    {hd : Handler} {map : Map} {vector : List Entity}
    {msgs : List (Message MessageType)} {next : Option Stage}
    {e : HandlerEvent}
    (h : Session s c conn)
    (hval : hd.client ∈ s.validated)
    (hh : s.handler = some hd)
    (hreads : ReadsAll vector hd.stage)
    (hmap : s.environment.maps[s.slot]? = some map)
    (hvector : s.incommingEntities[s.slot]? = some vector)
    (hstage : StageStep map vector hd.stage e msgs next)
    (htransmits : Transmits s s' hd msgs next)
    (hclient : hd.client = c) :
    Session s' c (serveConnection msgs next conn) := by
  obtain ⟨client, stage⟩ := hd
  obtain rfl : client = c := hclient
  have hworld := htransmits.world
  have hsends :
      (serveConnection msgs next conn).sends = conn.sends ++ msgs := by
    cases next with
    | none =>
        simp only [serveConnection, Connection.foldl_send]
        exact (List.append_assoc _ _ _).symm
    | some stage =>
        simp only [serveConnection, Connection.foldl_send]
        exact (List.append_assoc _ _ _).symm
  have hturn :
      Connection.InTurn (serveConnection msgs next conn).nHandshakeOut
        (serveConnection msgs next conn) := by
    cases next with
    | none =>
        simp only [serveConnection, Connection.foldl_send]
        exact h.turn.congr (.update id)
    | some stage =>
        simp only [serveConnection, Connection.foldl_send]
        exact h.turn.congr (.update id)
  refine ⟨hturn, ?_⟩
  rw [hsends]
  cases h.log with
  | approved hnot => exact absurd hval hnot
  | served _ hdone => exact absurd rfl (hdone _ hh)
  | @serving stage' map' vector' hh' hmap' hvector' hserved hlog =>
      cases hh.symm.trans hh'
      obtain rfl := Option.some.inj (hmap.symm.trans hmap')
      obtain rfl := Option.some.inj (hvector.symm.trans hvector')
      rw [← hworld.environment, ← hworld.slot] at hmap
      rw [← hworld.incommingEntities, ← hworld.slot] at hvector
      have hserved' :
          stage ≠ .layout ∨ msgs ≠ [] → (client, s'.slot) ∈ s'.served := by
        intro hsome
        rw [hworld.slot, htransmits.served]
        rcases hsome with hstage' | hmsgs
        · exact List.mem_append_left _ (hserved hstage')
        · refine List.mem_append_right _ ?_
          rw [List.mem_replicate]
          exact ⟨by simpa using hmsgs, rfl⟩
      cases next with
      | some stage' =>
          refine .serving htransmits.handler hmap hvector ?_ ?_
          · intro _
            refine hserved' ?_
            cases hstage with
            | layout => exact Or.inr (by simp)
            | config => exact Or.inr (by simp)
            | size => exact Or.inr (by simp)
            | copy => exact Or.inl (by simp)
            | count => exact Or.inl (by simp)
          · rw [hlog, hstage.sentBefore]
            rfl
      | none =>
          refine .served ?_ ?_ hmap hvector ?_ ?_
          · rw [hworld.validated]
            exact hval
          · intro hd hhd
            rw [htransmits.handler] at hhd
            cases hhd
          · refine hserved' ?_
            cases hstage with
            | entities => exact Or.inr (by simp)
          · rw [hlog]
            exact hstage.startupMessages hreads

/-- A step of the server, seen from one of its clients. -/
theorem step_sessionInv
    {n : UInt64}
    (hfew : FewMaps n)
    (s : Server) (e : ServerEvent) (s' : Server)
    (h : SessionInv c s ∧ s.nMapsCount = n)
    (horder : Regular s e ∧ InOrder c s e)
    (hstep : s.step e = some s') :
    SessionInv c s' ∧ s'.nMapsCount = n := by
  obtain ⟨⟨hworld, hsession⟩, hcount⟩ := h
  obtain ⟨hworld', hcount'⟩ :=
    step_worldInv hfew s e s' ⟨hworld, hcount⟩ horder.1 hstep
  refine ⟨⟨hworld', ?_⟩, hcount'⟩
  have hgate := hworld.serving.gate
  cases step_cases hstep with
  | startServer =>
      intro hc
      obtain ⟨conn, hconn, hs⟩ := hsession hc
      exact ⟨conn, hconn, hs.congr
        ⟨rfl, rfl, fun _ _ => rfl, Iff.rfl, fun _ => id, fun _ _ => rfl,
          fun _ hhd _ => hhd⟩⟩
  | startEnvironment hpc =>
      intro hc
      rw [hworld.running_of_approved hc] at hpc
      cases hpc
  | environment henv =>
      intro hc
      simp [Environment.step, hworld.running_of_approved hc] at henv
  | fault => cases hworld'.crash
  | @approve now hidle hroom =>
      intro hc
      rcases List.mem_append.mp hc with hc | hc
      · obtain ⟨conn, hconn, hs⟩ := hsession hc
        refine ⟨conn, ?_, hs.congr
          ⟨rfl, rfl, ?_, Iff.rfl, fun _ => id, fun _ _ => rfl,
            fun _ hhd _ => hhd⟩⟩
        · show (s.connections ++ [_])[c]? = _
          rw [List.getElem?_append_left (hgate.approved c hc), hconn]
        · intro stage hh
          rw [hidle] at hh
          cases hh
      · obtain rfl := List.mem_singleton.mp hc
        refine ⟨_, List.getElem?_concat_length, ?_, .approved ?_ rfl⟩
        · exact Connection.inTurn_acceptConnection acceptMessage now _
        · exact fun hval => Nat.lt_irrefl _ (hgate.known _ hval)
  | refuse hidle hfull =>
      intro hc
      obtain ⟨conn, hconn, hs⟩ := hsession hc
      refine ⟨conn, ?_, hs.congr
        ⟨rfl, rfl, fun _ _ => rfl, Iff.rfl, fun _ => id, fun _ _ => rfl,
          fun _ hhd _ => hhd⟩⟩
      show (s.connections ++ [_])[c]? = _
      rw [List.getElem?_append_left (hgate.approved c hc), hconn]
  | acceptFailed => exact hsession
  | @io d e conn conn' u hidle hconn hio =>
      intro hc
      rw [afterIo_deqConnections] at hc
      rw [afterIo_connections]
      obtain ⟨connC, hconnC, hs⟩ := hsession hc
      by_cases hd : d = c
      · obtain rfl := hd
        obtain rfl := Option.some.inj (hconn.symm.trans hconnC)
        refine ⟨conn', List.getElem?_set_self ?_, ?_⟩
        · exact (List.getElem?_eq_some_iff.mp hconn).1
        · refine hs.io hworld hworld'.serving.gate hidle ?_ ?_ hc hio
          · rintro i rfl
            exact horder.2.posted i rfl
          · exact horder.2.first e conn rfl hconn
      · refine ⟨connC, ?_, ?_⟩
        · rw [List.getElem?_set_ne hd, hconnC]
        · exact hs.congr (sameSession_afterIo hd hidle hio)
  | @handler e hd s' hh hhandler =>
      intro hc
      obtain ⟨map, vector, msgs, next, hmap, hvector, hstage, htransmits⟩ :=
        hworld.handlerStep hh hstep
      rw [htransmits.world.deqConnections] at hc
      rw [htransmits.connections]
      obtain ⟨conn, hconn, hs⟩ := hsession hc
      by_cases hclient : hd.client = c
      · refine ⟨serveConnection msgs next conn, ?_, ?_⟩
        · rw [hclient, List.getElem?_modify_eq, hconn]
          rfl
        · exact hs.handler (hgate.served hd hh) hh
            (hworld.reads hd vector hh hvector) hmap hvector hstage
            htransmits hclient
      · refine ⟨conn, ?_, hs.congr (sameSession_handler hh hclient htransmits)⟩
        rw [List.getElem?_modify_ne _ _ hclient, hconn]
  | update =>
      intro hc
      obtain ⟨conn, hconn, hs⟩ := hsession hc
      exact ⟨conn, hconn, hs.congr
        ⟨rfl, rfl, fun _ _ => rfl, Iff.rfl, fun _ => id, fun _ _ => rfl,
          fun _ hhd _ => hhd⟩⟩

end Steps

section Startup

variable {s : Server} {c : ConnId} {conn : Connection MessageType}

/-- The start-up messages of the map and the vector at a place. -/
structure StartsWith
    (s : Server) (i : Nat) (msgs : List (Message MessageType)) (map : Map)
    (vector : List Entity) : Prop where
  maps : s.environment.maps[i]? = some map
  vectors : s.incommingEntities[i]? = some vector
  startup : startupMessages map.conLay map.config vector = some msgs

/-- Before it comes to a statement, `on_client_validated` has sent some of the
start-up messages. -/
theorem sentBefore_prefix (map : Map) (vector : List Entity) (stage : Stage) :
    ∃ msgs,
      startupMessages map.conLay map.config vector = some msgs ∧
        acceptMessage :: sentBefore map vector stage <+: msgs := by
  refine ⟨_, by rw [startupMessages, entitiesMessage_length]; rfl, ?_⟩
  rw [List.prefix_cons_inj]
  cases stage with
  | layout => exact List.nil_prefix
  | config => exact List.prefix_append [_] _
  | entitiesSize => exact List.prefix_append [_, _] _
  | entities announced entMsg copied counted =>
      exact List.prefix_append [_, _, _] _

/-- What an approved client was sent is a beginning of the start-up messages of
one map; everything but the first message counts as data of this map. -/
theorem SessionInv.sends_prefix
    (h : SessionInv c s)
    (hc : c ∈ s.deqConnections)
    (hconn : s.connections[c]? = some conn) :
    ∃ i map vector msgs,
      StartsWith s i msgs map vector ∧ conn.sends <+: msgs ∧
        (1 < conn.sends.length → (c, i) ∈ s.served) := by
  obtain ⟨conn', hconn', hs⟩ := h.session hc
  obtain rfl := Option.some.inj (hconn.symm.trans hconn')
  cases hs.log with
  | approved _ hlog =>
      -- nothing is known yet about the map: the first one will do
      have hworld := h.world
      have hmaps := (hworld.food (hworld.running_of_approved hc)).2
      have hvectors := hworld.serving.startup.vectors_length
      have hroom := hworld.serving.room
      have hpos := List.length_pos_of_mem hc
      have hmap := List.getElem?_eq_getElem
        (show 0 < s.environment.maps.length by omega)
      have hvector := List.getElem?_eq_getElem
        (show 0 < s.incommingEntities.length by omega)
      obtain ⟨msgs, hmsgs, hpre⟩ :=
        sentBefore_prefix s.environment.maps[0] s.incommingEntities[0] .layout
      refine ⟨0, _, _, msgs, ⟨hmap, hvector, hmsgs⟩, ?_, ?_⟩
      · rw [hlog]
        exact hpre
      · intro hlong
        rw [hlog] at hlong
        exact absurd hlong (Nat.lt_irrefl 1)
  | @serving stage map vector hh hmap hvector hserved hlog =>
      obtain ⟨msgs, hmsgs, hpre⟩ := sentBefore_prefix map vector stage
      refine ⟨s.slot, map, vector, msgs, ⟨hmap, hvector, hmsgs⟩, ?_, ?_⟩
      · rw [hlog]
        exact hpre
      · intro hlong
        refine hserved ?_
        rintro rfl
        rw [hlog] at hlong
        exact absurd hlong (Nat.lt_irrefl 1)
  | @served i map vector _ _ hmap hvector hserved hlog =>
      exact ⟨i, map, vector, _, ⟨hmap, hvector, hlog⟩, List.prefix_rfl,
        fun _ => hserved⟩

end Startup

end Server

end SpeciesSimulator
