import SpeciesSimulator.System

/-!
# A server and its client run a link

The connection of a server with one of its clients and the connection of the
client are the two ends of a link: in an orderly run, and whatever the other
clients do, these two connections take steps of a link or none.  A run of
`on_client_validated` is one step of the link, after which the reader goes on at
once; in the process it takes several, and the reader goes on after the last.

Main facts:
* `step_linked`: a step of the system is an orderly run of the link;
* `refines_link`: so what an orderly run of the system leaves of the two
  connections is reachable by an orderly run of the link.
-/

namespace SpeciesSimulator

open ByteLayout Transition Message

namespace Connection

section Reader

variable {T : Type _} [Layout (MessageHeader T)]
variable {c c' : Connection T} {e : IoEvent} {u : Upcall T}

/-- Bytes that move do not mind the read that is started at last. -/
theorem ioStep_mfReadHeader
    (hio : IoStep c e c' u)
    (hmoves : e.movesBytes = true) :
    IoStep c.mfReadHeader e c'.mfReadHeader .none := by
  cases hio with
  | @recv i bytes r hr hopen hwant =>
      have hlt := (List.getElem?_eq_some_iff.mp hr).1
      have hr' : c.mfReadHeader.reads[i]? = some r := by
        simp only [mfReadHeader, asyncRead]
        rw [List.getElem?_append_left hlt, hr]
      have hstep := IoStep.recv hr' hopen hwant
      simp only [mfReadHeader, asyncRead, List.set_append_left _ _ hlt] at hstep
      exact hstep
  | transfer hw hopen hleft => exact .transfer hw hopen hleft
  | runSend => cases hmoves
  | runClose => cases hmoves
  | connected => cases hmoves
  | connectFailed => cases hmoves
  | readDone => cases hmoves
  | readFail => cases hmoves
  | writeDone => cases hmoves
  | writeFail => cases hmoves

/-- What is left of a handler once its caller has gone on. -/
def afterUpcall (c : Connection T) : Upcall T → Connection T
  | .none => c
  | .incoming _ => c
  | .validated => c.mfReadHeader

/-- A handler of the io thread is a step of the connection. -/
theorem step_of_ioStep
    (hio : IoStep c e c' u) :
    c.step (.io e) = some (c'.afterUpcall u) := by
  simp only [step, hio.ioStep_eq]
  cases u with
  | none => rfl
  | incoming msg => rfl
  | validated => rfl

/-- Calls of `send` are steps of a connection. -/
theorem run_send (c : Connection T) (msgs : List (Message T)) :
    run step c (msgs.map .send) = some (msgs.foldl send c) := by
  induction msgs generalizing c with
  | nil =>
      rfl
  | cons msg msgs ih =>
      have hstep : c.step (.send msg) = some (c.send msg) := rfl
      rw [List.map_cons, run_cons_of_step hstep, ih, List.foldl_cons]

/-- Nobody has to wait before a call of `send`. -/
theorem meets_send
    {C : Connection T → ConnEvent T → Prop}
    (hC : ∀ c msg, C c (.send msg))
    (c : Connection T) (msgs : List (Message T)) :
    Meets step C c (msgs.map .send) := by
  refine meets_of_forall ?_ c
  intro c e he
  obtain ⟨msg, _, rfl⟩ := List.mem_map.mp he
  exact hC c msg

/-- The reader goes on before or after messages are sent. -/
theorem foldl_send_mfReadHeader (c : Connection T) (msgs : List (Message T)) :
    msgs.foldl send c.mfReadHeader = (msgs.foldl send c).mfReadHeader := by
  rw [foldl_send, foldl_send]
  rfl

/-- One step, if it meets the condition. -/
theorem reaches_of_step
    {C : Connection T → ConnEvent T → Prop} {ev : ConnEvent T}
    (hC : C c ev)
    (hstep : c.step ev = some c') :
    ReachableBy step C c c' :=
  (reachableBy_refl C c).snoc hC hstep

end Reader

end Connection

namespace Server

section Link

variable {s s' : Server} {c : ConnId} {conn conn' : Connection MessageType}

/-- The server's end of a link: while `on_client_validated` runs for the client,
the reader is taken to have gone on already. -/
def linkEnd (c : ConnId) (s : Server) (conn : Connection MessageType) :
    Connection MessageType :=
  match s.handler with
  | some hd => if hd.client = c then conn.mfReadHeader else conn
  | none => conn

theorem linkEnd_of_idle
    (hidle : ∀ hd, s.handler = some hd → hd.client ≠ c)
    (conn : Connection MessageType) :
    s.linkEnd c conn = conn := by
  unfold linkEnd
  split
  · next hd hh => rw [if_neg (hidle hd hh)]
  · rfl

theorem linkEnd_of_serving
    {hd : Handler}
    (hh : s.handler = some hd)
    (hclient : hd.client = c)
    (conn : Connection MessageType) :
    s.linkEnd c conn = conn.mfReadHeader := by
  simp only [linkEnd, hh, if_pos hclient]

/-- Only the reads of the connection may differ. -/
theorem linkEnd_field
    {α : Type _} {f : Connection MessageType → α}
    (hf : ∀ conn, f conn.mfReadHeader = f conn)
    (c : ConnId) (s : Server) (conn : Connection MessageType) :
    f (s.linkEnd c conn) = f conn := by
  unfold linkEnd
  split
  · split
    · exact hf conn
    · rfl
  · rfl

@[simp] theorem linkEnd_wire
    (c : ConnId) (s : Server) (conn : Connection MessageType) :
    (s.linkEnd c conn).wire = conn.wire :=
  linkEnd_field (fun _ => rfl) c s conn

@[simp] theorem linkEnd_received
    (c : ConnId) (s : Server) (conn : Connection MessageType) :
    (s.linkEnd c conn).received = conn.received :=
  linkEnd_field (fun _ => rfl) c s conn

@[simp] theorem linkEnd_ran
    (c : ConnId) (s : Server) (conn : Connection MessageType) :
    (s.linkEnd c conn).ran = conn.ran :=
  linkEnd_field (fun _ => rfl) c s conn

@[simp] theorem linkEnd_sends
    (c : ConnId) (s : Server) (conn : Connection MessageType) :
    (s.linkEnd c conn).sends = conn.sends :=
  linkEnd_field (fun _ => rfl) c s conn

@[simp] theorem linkEnd_isOpen
    (c : ConnId) (s : Server) (conn : Connection MessageType) :
    (s.linkEnd c conn).isOpen = conn.isOpen :=
  linkEnd_field (fun _ => rfl) c s conn

@[simp] theorem linkEnd_delivered
    (c : ConnId) (s : Server) (conn : Connection MessageType) :
    (s.linkEnd c conn).delivered = conn.delivered :=
  linkEnd_field (fun _ => rfl) c s conn

/-- The server's end of a link takes steps of a link, or none. -/
def EndSteps
    (c : ConnId) (s s' : Server) (conn : Connection MessageType) : Prop :=
  ∃ conn', s'.connections[c]? = some conn' ∧
    ReachableBy Connection.step Connection.ChallengeFirst (s.linkEnd c conn)
      (s'.linkEnd c conn')

/-- A step that does not concern the connection. -/
theorem endSteps_of_same
    (hconn : s'.connections[c]? = some conn)
    (hend : s'.linkEnd c conn = s.linkEnd c conn) :
    EndSteps c s s' conn := by
  refine ⟨conn, hconn, ?_⟩
  rw [hend]
  exact reachableBy_refl _ _

/-- A handler of the client's own connection. -/
theorem endSteps_io
    {e : IoEvent} {u : Upcall MessageType}
    (hlt : c < s.connections.length)
    (hidle : e.movesBytes = true ∨ s.handler = none)
    (hfirst : Connection.ChallengeFirst conn (.io e))
    (hio : Connection.IoStep conn e conn' u) :
    EndSteps c s (s.afterIo c conn' u) conn := by
  refine ⟨conn', ?_, ?_⟩
  · rw [afterIo_connections]
    exact List.getElem?_set_self hlt
  · have hstep := Connection.step_of_ioStep hio
    by_cases hserving : ∃ hd, s.handler = some hd ∧ hd.client = c
    · -- only bytes move while the handler is running
      obtain ⟨hd, hh, hclient⟩ := hserving
      have hmoves : e.movesBytes = true := by
        rcases hidle with hmoves | hnone
        · exact hmoves
        · rw [hh] at hnone
          cases hnone
      obtain rfl := upcall_of_movesBytes hio hmoves
      have hstep' :=
        Connection.step_of_ioStep (Connection.ioStep_mfReadHeader hio hmoves)
      rw [linkEnd_of_serving hh hclient,
        linkEnd_of_serving (s := s.afterIo c conn' .none) hh hclient]
      exact Connection.reaches_of_step hfirst hstep'
    · have hnot : ∀ hd, s.handler = some hd → hd.client ≠ c :=
        fun hd hh hclient => hserving ⟨hd, hh, hclient⟩
      rw [linkEnd_of_idle hnot]
      cases u with
      | none =>
          rw [linkEnd_of_idle (s := s.afterIo c conn' .none) hnot]
          exact Connection.reaches_of_step hfirst hstep
      | incoming msg =>
          rw [linkEnd_of_idle (s := s.afterIo c conn' (.incoming msg)) hnot]
          exact Connection.reaches_of_step hfirst hstep
      | validated =>
          rw [linkEnd_of_serving (s := s.afterIo c conn' .validated) rfl rfl]
          exact Connection.reaches_of_step hfirst hstep

/-- A step of `on_client_validated` sends messages. -/
theorem endSteps_handler
    {hd : Handler} {msgs : List (Message MessageType)} {next : Option Stage}
    (hh : s.handler = some hd)
    (hconn : s.connections[c]? = some conn)
    (htransmits : Transmits s s' hd msgs next) :
    EndSteps c s s' conn := by
  have hhandler := htransmits.handler
  by_cases hclient : hd.client = c
  · refine ⟨serveConnection msgs next conn, ?_, ?_⟩
    · rw [htransmits.connections, hclient, List.getElem?_modify_eq, hconn]
      rfl
    · have hsame :
          s'.linkEnd c (serveConnection msgs next conn) =
            (msgs.foldl Connection.send conn).mfReadHeader := by
        cases next with
        | none =>
            rw [linkEnd_of_idle]
            · rfl
            · intro hd' hh'
              rw [hhandler] at hh'
              cases hh'
        | some stage =>
            exact linkEnd_of_serving (s := s') hhandler hclient _
      rw [hsame, linkEnd_of_serving hh hclient,
        ← Connection.foldl_send_mfReadHeader]
      refine ⟨_, Connection.meets_send ?_ _ msgs, Connection.run_send _ _⟩
      rintro c msg i n w ⟨⟩
  · refine endSteps_of_same ?_ ?_
    · rw [htransmits.connections, List.getElem?_modify_ne _ _ hclient, hconn]
    · rw [linkEnd_of_idle, linkEnd_of_idle]
      · intro hd' hh'
        rw [hh] at hh'
        cases hh'
        exact hclient
      · intro hd' hh'
        rw [hhandler] at hh'
        cases next with
        | none => cases hh'
        | some stage =>
            cases hh'
            exact hclient

/-- Every step of the server is a run of the client's end of the link. -/
theorem endSteps_of_step
    {e : ServerEvent}
    (h : WorldInv s)
    (hconn : s.connections[c]? = some conn)
    (horder : InOrder c s e)
    (hstep : s.step e = some s') :
    EndSteps c s s' conn := by
  have hlt := (List.getElem?_eq_some_iff.mp hconn).1
  cases step_cases hstep with
  | startServer => exact endSteps_of_same hconn rfl
  | startEnvironment => exact endSteps_of_same hconn rfl
  | environment => exact endSteps_of_same hconn rfl
  | fault => exact endSteps_of_same hconn rfl
  | acceptFailed => exact endSteps_of_same hconn rfl
  | update => exact endSteps_of_same hconn rfl
  | approve =>
      refine endSteps_of_same ?_ rfl
      show (s.connections ++ _)[c]? = _
      rw [List.getElem?_append_left hlt, hconn]
  | refuse =>
      refine endSteps_of_same ?_ rfl
      show (s.connections ++ _)[c]? = _
      rw [List.getElem?_append_left hlt, hconn]
  | @io d e connD conn' u hidle hconnD hio =>
      by_cases hd : d = c
      · obtain rfl := hd
        obtain rfl := Option.some.inj (hconn.symm.trans hconnD)
        exact endSteps_io hlt hidle (horder.first e conn rfl hconn) hio
      · refine endSteps_of_same ?_ ?_
        · rw [afterIo_connections, List.getElem?_set_ne hd, hconn]
        · cases u with
          | none => rfl
          | incoming msg => rfl
          | validated =>
              -- the client of the new handler is another one
              have hnone : s.handler = none := by
                rcases hidle with hmoves | hnone
                · have hu := upcall_of_movesBytes hio hmoves
                  cases hu
                · exact hnone
              rw [linkEnd_of_idle, linkEnd_of_idle]
              · intro hd' hh'
                rw [hnone] at hh'
                cases hh'
              · rintro _ ⟨⟩
                exact hd
  | handler hh hhandler =>
      obtain ⟨map, vector, msgs, next, _, _, _, htransmits⟩ :=
        h.handlerStep hh hstep
      exact endSteps_handler hh hconn htransmits

end Link

end Server

namespace ClientProcess

section Link

variable {flags : StartFlags} {p p' : ClientProcess} {e : ClientEvent}

/-- Handlers of `send` of the client wait for its reply. -/
def SendsFollow (p : ClientProcess) : Prop :=
  p.connection.sends ≠ [] → p.connection.HasReplied

/-- Every step of a client process is a run of its end of the link. -/
theorem endSteps_of_step
    (howner : p.connection.nowner = .client)
    (hfollow : SendsFollow p)
    (hconnects : Connects p e)
    (hstep : p.step e = some p') :
    ReachableBy Connection.step Connection.SendsFollow p.connection
      p'.connection := by
  have hquiet
      (h : p'.connection = p.connection ∨
        ∃ msg, p'.connection = p.connection.send msg) :
      ReachableBy Connection.step Connection.SendsFollow p.connection
        p'.connection := by
    rcases h with h | ⟨msg, h⟩
    · rw [h]
      exact reachableBy_refl _ _
    · rw [h]
      have hsend : p.connection.step (.send msg) = some (p.connection.send msg) :=
        rfl
      refine Connection.reaches_of_step ⟨?_, ?_⟩ hsend
      · rintro isOpen ⟨⟩
      · rintro i msg' ⟨⟩
  cases (step_cases hstep).2 with
  | @io e c u hio =>
      rw [afterIo_connection]
      have hafter : c.afterUpcall u = c := by
        cases u with
        | none => rfl
        | incoming msg => rfl
        | validated =>
            exact absurd rfl (Connection.ioStep_client hio howner).2
      have hstep' := Connection.step_of_ioStep hio
      rw [hafter] at hstep'
      refine Connection.reaches_of_step ⟨?_, ?_⟩ hstep'
      · rintro isOpen ⟨⟩
        exact hconnects isOpen rfl
      · rintro i msg ⟨⟩ hmsg
        refine hfollow fun hnone => ?_
        simp [(List.append_eq_nil_iff.mp hnone).2] at hmsg
  | iterate => exact hquiet (Or.inl rfl)
  | startMap => exact hquiet (Or.inl rfl)
  | update _ hupdate => exact hquiet (Or.inl (update_connection hupdate))
  | map hmap => exact hquiet hmap.connection

end Link

end ClientProcess

namespace System

section Refinement

variable {c : ConnId} {n : UInt64} {flags : StartFlags}

/-- What a system leaves of the two connections is reachable by an orderly run
of a link. -/
structure Linked (c : ConnId) (t : System) : Prop where
  alone :
    ReachableBy Connection.step Connection.SendsFollow Connection.newClient
      t.2.connection
  linked :
    c ∈ t.1.deqConnections → ∀ conn, t.1.connections[c]? = some conn →
      ∃ now uid,
        ReachableBy Link.step Link.Orderly
          (Link.accepted Server.acceptMessage now uid)
          (t.1.linkEnd c conn, t.2.connection)

/-- The client does not send anything before its reply. -/
theorem Inv.sendsFollow
    {t : System}
    (h : Inv c n flags t) :
    ClientProcess.SendsFollow t.2 := by
  intro hsends
  by_cases hc : c ∈ t.1.deqConnections
  · obtain ⟨conn, i, map, sm, msgs, hassigned⟩ :=
      h.exists_assignment hc
    exact (hassigned.view h).hasReplied hassigned.serves hsends
  · exact (h.view_of_not_approved hc).hasReplied ⟨rfl, List.nil_prefix⟩ hsends

/-- A step of the server. -/
theorem Linked.server
    {s s' : Server} {p : ClientProcess} {e : ServerEvent}
    (h : Linked c (s, p))
    (hinv : Inv c n flags (s, p))
    (horder : Server.InOrder c s e)
    (hgot : s'.receivedOf c <+: p.connection.wire)
    (hstep : s.step e = some s') :
    Linked c (s', p) := by
  refine ⟨h.alone, ?_⟩
  intro hc' conn' hconn'
  have hgot' : conn'.received <+: p.connection.wire := by
    rw [Server.receivedOf, hconn'] at hgot
    exact hgot
  by_cases hc : c ∈ s.deqConnections
  · obtain ⟨conn, hconn, _⟩ := hinv.server.session hc
    obtain ⟨now, uid, hreached⟩ := h.linked hc conn hconn
    obtain ⟨conn₁, hconn₁, hend⟩ :=
      Server.endSteps_of_step hinv.server.world hconn horder hstep
    obtain rfl := Option.some.inj (hconn'.symm.trans hconn₁)
    refine ⟨now, uid, hreached.trans (Duplex.reachableBy_inl hend ?_)⟩
    show (s'.linkEnd c conn').received <+: _
    rw [Server.linkEnd_received]
    exact hgot'
  · cases Server.step_cases hstep with
    | @approve now hidle hroom =>
        -- the client has received nothing, whatever it has done by now
        have hlength : c = s.connections.length := by
          rcases List.mem_append.mp hc' with hold | hnew
          · exact absurd hold hc
          · exact List.mem_singleton.mp hnew
        have hnone : s.connections[c]? = none := by
          rw [List.getElem?_eq_none_iff, hlength]
        have hreceived : p.connection.received = [] := by
          have hjoined : p.connection.received <+: s.wireOf c :=
            hinv.joined.right
          rw [Server.wireOf, hnone] at hjoined
          exact List.prefix_nil.mp hjoined
        have hnew : (s.connections ++ _)[c]? = some conn' := hconn'
        rw [hlength, List.getElem?_concat_length] at hnew
        obtain rfl := Option.some.inj hnew
        refine ⟨now, s.nIDCounter, ?_⟩
        rw [Server.linkEnd_of_idle]
        · refine Duplex.reachableBy_inr h.alone ?_
          show p.connection.received <+: _
          rw [hreceived]
          exact List.nil_prefix
        · intro hd hh
          rw [show s.handler = some hd from hh] at hidle
          cases hidle
    | startServer => exact absurd hc' hc
    | startEnvironment => exact absurd hc' hc
    | environment => exact absurd hc' hc
    | fault => exact absurd hc' hc
    | acceptFailed => exact absurd hc' hc
    | update => exact absurd hc' hc
    | refuse => exact absurd hc' hc
    | io =>
        rw [Server.afterIo_deqConnections] at hc'
        exact absurd hc' hc
    | handler hh hhandler =>
        rw [hhandler.sameWorld.deqConnections] at hc'
        exact absurd hc' hc

/-- A step of the client. -/
theorem Linked.client
    {s : Server} {p p' : ClientProcess}
    (h : Linked c (s, p))
    (hend :
      ReachableBy Connection.step Connection.SendsFollow p.connection
        p'.connection)
    (hgot : p'.connection.received <+: s.wireOf c) :
    Linked c (s, p') := by
  refine ⟨h.alone.trans hend, ?_⟩
  intro hc conn hconn
  obtain ⟨now, uid, hreached⟩ := h.linked hc conn hconn
  refine ⟨now, uid, hreached.trans (Duplex.reachableBy_inr hend ?_)⟩
  rw [Server.wireOf, show s.connections[c]? = some conn from hconn] at hgot
  show _ <+: (s.linkEnd c conn).wire
  rw [Server.linkEnd_wire]
  exact hgot

/-- Every step of the system is an orderly run of the link. -/
theorem step_linked
    (t : System) (e : ServerEvent ⊕ ClientEvent) (t' : System)
    (h : Inv c n flags t ∧ Linked c t)
    (horderly : Orderly c t e)
    (hstep : step c t e = some t') :
    Inv c n flags t' ∧ Linked c t' := by
  obtain ⟨hinv, hlinked⟩ := h
  refine ⟨step_inv t e t' hinv horderly hstep, ?_⟩
  cases Duplex.step_cases hstep with
  | @inl e s' hserver hgot =>
      exact hlinked.server hinv (horderly.1 e rfl).2 hgot hserver
  | @inr e p' hclient hgot =>
      refine hlinked.client ?_ hgot
      exact ClientProcess.endSteps_of_step hinv.client.owner
        hinv.sendsFollow (horderly.2 e rfl) hclient

variable {s₀ s : Server} {p : ClientProcess}
  {es : List (ServerEvent ⊕ ClientEvent)}

/-- Nothing has been accepted yet. -/
theorem linked_start
    (hmake : Server.make n = .ok s₀)
    (flags : StartFlags) :
    Linked c (s₀, ClientProcess.start flags) := by
  refine ⟨reachableBy_refl _ _, fun hc => ?_⟩
  obtain ⟨environment, _, rfl⟩ := Server.exists_of_make hmake
  cases hc

theorem Runs.linked
    {t : System}
    (h : Runs Orderly c n flags s₀ es t) :
    Inv c n flags t ∧ Linked c t :=
  run_invariant step_linked
    ⟨inv_start h.make h.few, linked_start h.make flags⟩ h.meets h.runs

/-- Whatever a server and an approved client of it do in order, and whatever its
other clients do: the two connections of this client are in a state that an
orderly run of a link leads to. -/
theorem refines_link
    {conn : Connection MessageType}
    (h : Runs Orderly c n flags s₀ es (s, p))
    (happroved : c ∈ s.deqConnections)
    (hconn : s.connections[c]? = some conn) :
    ∃ now uid les,
      Meets Link.step Link.Orderly
          (Link.accepted Server.acceptMessage now uid) les ∧
        run Link.step (Link.accepted Server.acceptMessage now uid) les =
          some (s.linkEnd c conn, p.connection) :=
  h.linked.2.linked happroved conn hconn

/-- The first client, right after it is accepted. -/
theorem refines_link_accepted :
    ∃ (s : Server) (conn : Connection MessageType) (p : ClientProcess)
      (now : UInt64) (uid : UInt32) (les : List (LinkEvent MessageType)),
      0 ∈ s.deqConnections ∧ s.connections[0]? = some conn ∧
      Meets Link.step Link.Orderly
          (Link.accepted Server.acceptMessage now uid) les ∧
        run Link.step (Link.accepted Server.acceptMessage now uid) les =
          some (s.linkEnd 0 conn, p.connection) := by
  obtain ⟨s₀, s, es, conn, hruns, hc, hconn, _⟩ :=
    exists_accepted ⟨false, false, false, false⟩
  obtain ⟨now, uid, les, hles⟩ :=
    refines_link (hruns.mono fun _ _ h => h.orderly) hc hconn
  exact ⟨s, conn, _, now, uid, les, hc, hconn, hles⟩

end Refinement

end System

end SpeciesSimulator
