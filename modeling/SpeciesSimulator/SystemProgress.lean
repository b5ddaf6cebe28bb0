import SpeciesSimulator.ClientUpdates
import SpeciesSimulator.NetLinkDelivery

/-!
# A client that stays connected is served

As long as both sockets of an approved client are open, a server and this client
can go on, whatever has happened before and whatever the other clients have
done: a running `on_client_validated` comes to its end, the link between the two
advances, which validates the client, everything that was sent is delivered, and
`m_start` processes it.

Main facts:
* `Standing.exists_idle`, `Standing.exists_validated`,
  `Standing.exists_settled`: the stages on the way;
* `Standing.exists_okay`: the client comes to the end of its start-up;
* `Standing.exists_updates`: it sends any number of updates, and all of them
  come in.
-/

namespace SpeciesSimulator

open ByteLayout CondVar Transition Message

/-- The statements of `on_client_validated` that are left. -/
def Stage.left : Stage → Nat
  | .layout => 6
  | .config => 5
  | .entitiesSize => 4
  | .entities _ _ vector counted =>
      1 + vector.isNone.toNat + counted.isNone.toNat

namespace Server

section Handlers

/-- What is left of a running `on_client_validated`. -/
def handlerLeft (s : Server) : Nat :=
  match s.handler with
  | some hd => hd.stage.left
  | none => 0

/-- There is always a next statement. -/
theorem exists_handlerStep (s : Server) (hd : Handler) :
    ∃ e s', s.handlerStep hd e = some s' := by
  obtain ⟨client, stage⟩ := hd
  cases stage with
  | layout => exact ⟨.sendLayout, _, rfl⟩
  | config => exact ⟨.sendConfig, _, rfl⟩
  | entitiesSize => exact ⟨.sendEntitiesSize, _, rfl⟩
  | entities announced entMsg vector counted =>
      cases vector with
      | none => exact ⟨.getVector, _, rfl⟩
      | some vector =>
          cases counted with
          | none => exact ⟨.getSize, _, rfl⟩
          | some counted => exact ⟨.sendEntities, _, rfl⟩

/-- Every statement comes once. -/
theorem StageStep.left
    {map : Map} {vector : List Entity} {stage : Stage} {e : HandlerEvent}
    {msgs : List (Message MessageType)} {next : Option Stage}
    (h : StageStep map vector stage e msgs next) :
    (next.map Stage.left).getD 0 < stage.left := by
  cases h with
  | layout => decide
  | config => decide
  | size =>
      show 3 < 4
      decide
  | copy => simp [Stage.left]
  | count => simp [Stage.left]
  | entities => simp [Stage.left]

/-- A running `on_client_validated` comes closer to its end. -/
theorem WorldInv.exists_handler_step
    {s : Server} {hd : Handler}
    (h : WorldInv s)
    (hh : s.handler = some hd) :
    ∃ e s', s.step (.handler e) = some s' ∧
      s'.handlerLeft < s.handlerLeft := by
  obtain ⟨e, s', hhandler⟩ := exists_handlerStep s hd
  have hstep : s.step (.handler e) = some s' := by
    simp [step, h.crash, hh, hhandler]
  obtain ⟨map, vector, msgs, next, _, _, hstage, htransmits⟩ :=
    h.handlerStep hh hstep
  refine ⟨e, s', hstep, ?_⟩
  have hleft := hstage.left
  simp only [handlerLeft, htransmits.handler, hh]
  cases next with
  | none => exact hleft
  | some stage => exact hleft

/-- A step of `on_client_validated` neither reads nor closes anything. -/
theorem Transmits.exists_connection
    {s s' : Server} {hd : Handler} {msgs : List (Message MessageType)}
    {next : Option Stage} {c : ConnId} {conn' : Connection MessageType}
    (h : Transmits s s' hd msgs next)
    (hconn' : s'.connections[c]? = some conn') :
    ∃ conn, s.connections[c]? = some conn ∧
      conn'.isOpen = conn.isOpen ∧ conn'.received = conn.received := by
  rw [h.connections] at hconn'
  by_cases hclient : hd.client = c
  · rw [hclient, List.getElem?_modify_eq] at hconn'
    obtain ⟨conn, hconn, rfl⟩ := Option.map_eq_some_iff.mp hconn'
    refine ⟨conn, hconn, ?_⟩
    cases next with
    | none =>
        rw [serveConnection, Connection.foldl_send]
        exact ⟨rfl, rfl⟩
    | some stage =>
        rw [serveConnection, Connection.foldl_send]
        exact ⟨rfl, rfl⟩
  · rw [List.getElem?_modify_ne _ _ hclient] at hconn'
    exact ⟨conn', hconn', rfl, rfl⟩

end Handlers

section Queue

/-- Only one connection has handlers. -/
def OnlyFor (c : ConnId) (_ : Server) (e : ServerEvent) : Prop :=
  ∀ d e', e = .io d e' → d = c

/-- `update` passes on whatever is in the queue. -/
theorem exists_drained
    {s : Server} (c : ConnId)
    (hcrash : s.crash = none) :
    ReachableBy step
      (fun s e => Regular s e ∧ InOrder c s e ∧ OnlyFor c s e) s
      { s with qMessagesIn := [] } := by
  generalize hq : s.qMessagesIn = q
  induction q generalizing s with
  | nil =>
      rw [← hq]
      exact reachableBy_refl _ s
  | cons first rest ih =>
      have hstep : s.step .update = some { s with qMessagesIn := rest } := by
        simp [step, hcrash, hq]
      have hfirst :
          ReachableBy step
            (fun s e => Regular s e ∧ InOrder c s e ∧ OnlyFor c s e) s
            { s with qMessagesIn := rest } := by
        refine (reachableBy_refl _ s).snoc ⟨?_, ?_, ?_⟩ hstep
        · exact regular_of_thread (by simp) (by simp) (by simp)
        · exact inOrder_of_ne_io (by simp)
        · rintro d e ⟨⟩
      exact hfirst.trans (ih (s := { s with qMessagesIn := rest }) hcrash rfl)

end Queue

end Server

namespace ClientProcess

section Startup

variable {flags : StartFlags} {challenge : UInt64} {sm : Client.ServerMap}
variable {msgs sent : List (Message MessageType)} {p : ClientProcess}

/-- Another message is processed. -/
theorem exists_step_iterate
    {msg : Message MessageType} {rest : List (Message MessageType)}
    (hokay : p.starting.client.startupOkay = false)
    (hfault : p.starting.fault = none)
    (hopen : p.connection.isOpen = true)
    (hincoming : p.starting.incoming = msg :: rest) :
    ∃ starting,
      p.starting.step (.iterate p.connection.isOpen) = some starting ∧
        p.step .iterate = some { p with starting := starting } ∧
        starting.incoming = rest := by
  obtain ⟨starting, hstep, hrest⟩ :
      ∃ starting,
        p.starting.step (.iterate p.connection.isOpen) = some starting ∧
          starting.incoming = rest := by
    simp only [Starting.step, hokay, hfault, hopen, hincoming,
      Bool.false_eq_true, Option.isSome_none, or_self, if_false, if_true]
    cases Client.startMessage (p.starting.client, p.starting.flags) msg with
    | ok q => exact ⟨_, rfl, rfl⟩
    | error fault => exact ⟨_, rfl, rfl⟩
  refine ⟨starting, hstep, ?_, hrest⟩
  simp [step, hfault, hstep]

/-- `m_start` comes to its end when everything that was sent has come in. -/
theorem View.exists_startup
    (h : View flags challenge sm msgs sent p)
    (hserves : Serves sm msgs sent)
    (hopen : p.connection.isOpen = true)
    (hall : p.connection.delivered = msgs) :
    ∃ p', ReachableBy step (fun p e => Connects p e ∧ InOrder p e) p p' ∧
      (View flags challenge sm msgs sent p' ∧
        p'.connection = p.connection) ∧
      p'.starting.client.startupOkay = true := by
  refine exists_reachableBy_of_progress
    (fun p => p.starting.incoming.length) ?_ ⟨h, rfl⟩
  rintro q ⟨hview, hsame⟩ hnot
  cases hview.progress with
  | playing hplays => exact absurd hplays.replica.okay hnot
  | starting hokay _ _ hprocessed =>
      obtain ⟨done, hsplit, hdone⟩ := hprocessed.split
      rw [hsame, hall] at hsplit
      cases hincoming : q.starting.incoming with
      | nil =>
          -- all messages have been processed
          rw [hincoming, List.append_nil] at hsplit
          obtain ⟨c, flags', hprocess, hreplica⟩ :=
            Client.process_startupMessages sm flags hserves.startup
          rw [hview.fault, ← hsplit, hprocess] at hdone
          cases hdone
          exact absurd hreplica.okay hnot
      | cons msg rest =>
          have hopen' : q.connection.isOpen = true := by
            rw [hsame]
            exact hopen
          obtain ⟨starting, hiterate, hstep, hrest⟩ :=
            exists_step_iterate hokay hview.fault hopen' hincoming
          refine ⟨.iterate, _, hstep, ⟨?_, ?_⟩,
            ⟨hview.iterate hserves hiterate, hsame⟩, ?_⟩
          · rintro isOpen ⟨⟩
          · rintro i ⟨⟩
          · show starting.incoming.length < _
            rw [hrest, List.length_cons]
            exact Nat.lt_succ_self _

end Startup

section Sending

variable {flags : StartFlags} {challenge : UInt64} {sm : Client.ServerMap}
variable {msgs sent : List (Message MessageType)} {p : ClientProcess}

/-- What is left before the thread of the map sends a message. -/
def left (p : ClientProcess) : Nat :=
  match p.mapPc with
  | .created => 9
  | .startUp => 8
  | .run => 7
  | .wait customCond => if customCond = .blocked then 6 else 5
  | .update => 4
  | .push vector counted => 1 + vector.isNone.toNat + counted.isNone.toNat
  | .returned => 0

/-- A step that comes closer to the next message, or sends it. -/
structure Sends (p : ClientProcess) (e : ClientEvent) (p' : ClientProcess) :
    Prop where
  step : p.step e = some p'
  quiet : ∀ e', e ≠ .io e'
  okay : p'.starting.client.startupOkay = true
  connection :
    p'.connection = p.connection ∧ p'.left < p.left ∨
      p'.left = 7 ∧ ∃ msg, p'.connection = p.connection.send msg

/-- After start-up the thread of the map goes on. -/
theorem View.exists_sends_step
    (h : View flags challenge sm msgs sent p)
    (hokay : p.starting.client.startupOkay = true) :
    ∃ e p', Sends p e p' := by
  have hfault := h.fault
  cases h.progress with
  | starting hnot =>
      rw [hokay] at hnot
      cases hnot
  | playing hplays hincoming hdelivered hreads =>
      obtain ⟨cm, _, _, _, hcm, _⟩ := hplays.exists_map
      cases hpc : p.mapPc with
      | created =>
          refine ⟨.startMap, { p with mapPc := .startUp }, ?_, by simp, hokay,
            ?_⟩
          · simp [step, hfault, hpc, hokay, hcm]
          · exact Or.inl ⟨rfl, by simp [left, hpc]⟩
      | startUp =>
          obtain ⟨c', hstart, hplays'⟩ := hplays.startUpMap
          refine ⟨.startUp, p.settle .run (.ok c'), ?_, by simp,
            hplays'.replica.okay, ?_⟩
          · simp [step, hfault, mapStep, hpc, hstart]
          · exact Or.inl ⟨rfl, by simp [left, hpc, settle]⟩
      | run =>
          refine ⟨.wait, { p with mapPc := .wait .blocked }, ?_, by simp, hokay,
            ?_⟩
          · simp [step, hfault, mapStep, hpc]
          · exact Or.inl ⟨rfl, by simp [left, hpc]⟩
      | wait customCond =>
          rw [hpc] at hreads
          cases customCond with
          | away => exact absurd rfl hreads
          | blocked =>
              -- nobody replaces the entities: the thread wakes up for no reason
              refine ⟨.wakeUp,
                { p with mapPc := .wait .woken, wakeUps := p.wakeUps + 1 }, ?_,
                by simp, hokay, ?_⟩
              · simp [step, hfault, mapStep, hpc, Waiter.wakeUp]
              · exact Or.inl ⟨rfl, by simp [left, hpc]⟩
          | woken =>
              refine ⟨.waitEnd, { p with mapPc := .update }, ?_, by simp, hokay,
                ?_⟩
              · simp [step, hfault, mapStep, hpc]
              · exact Or.inl ⟨rfl, by simp [left, hpc]⟩
      | update =>
          obtain ⟨b', _, hrun, hplays'⟩ := hplays.runMap hcm
          refine ⟨.updateEntities,
            ({ p with rounds := p.rounds + 1 }).settle (.push none none) (.ok _),
            ?_, by simp, hplays'.replica.okay, ?_⟩
          · simp [step, hfault, mapStep, hpc, hrun]
          · exact Or.inl ⟨rfl, by simp [left, hpc, settle]⟩
      | push vector counted =>
          cases vector with
          | none =>
              refine ⟨.getVector,
                { p with mapPc := .push (some sm.entities) counted }, ?_,
                by simp, hokay, ?_⟩
              · simp [step, hfault, mapStep, hpc, withVector_of_plays _ hplays]
              · exact Or.inl ⟨rfl, by simp [left, hpc]⟩
          | some vector =>
              cases counted with
              | none =>
                  refine ⟨.getSize,
                    { p with
                      mapPc := .push (some vector) (some sm.entities.length) },
                    ?_, by simp, hokay, ?_⟩
                  · simp [step, hfault, mapStep, hpc,
                      withVector_of_plays _ hplays]
                  · exact Or.inl ⟨rfl, by simp [left, hpc]⟩
              | some counted =>
                  rw [hpc] at hreads
                  obtain rfl := hreads.1 vector rfl
                  obtain rfl := hreads.2 counted rfl
                  obtain ⟨msg, client, hsend, hplays'⟩ :=
                    exists_send_of_plays hplays
                  refine ⟨.send, p.send sm.entities sm.entities.length, ?_,
                    by simp, ?_, ?_⟩
                  · simp [step, hfault, mapStep, hpc]
                  · rw [hsend]
                    exact hplays'.replica.okay
                  · rw [hsend]
                    exact Or.inr ⟨rfl, msg, rfl⟩
      | returned =>
          rw [hpc] at hreads
          cases hreads

/-- The thread of the map can send any number of messages. -/
theorem ClientInv.exists_sends
    {k : Nat}
    (h : ClientInv flags p)
    (hserves : Serves sm msgs sent)
    (hgiven : p.connection.received <+: toBytes challenge ++ frames sent)
    (hokay : p.starting.client.startupOkay = true)
    (hk : p.connection.sends.length ≤ k) :
    ∃ p', ReachableBy step (fun p e => Connects p e ∧ InOrder p e) p p' ∧
      (ClientInv flags p' ∧ p'.starting.client.startupOkay = true ∧
        p'.connection.received = p.connection.received ∧
        p'.connection.isOpen = p.connection.isOpen ∧
        p'.connection.sends.length ≤ k) ∧
      p'.connection.sends.length = k := by
  refine exists_reachableBy_of_progress
    (fun q => 8 * (k - q.connection.sends.length) + q.left) ?_
    ⟨h, hokay, rfl, rfl, hk⟩
  rintro q ⟨hq, hokay, hreceived, hopen, hle⟩ hnot
  rw [← hreceived] at hgiven
  have hview := hq.view challenge sm msgs sent hserves hgiven
  obtain ⟨e, q', hsends⟩ := hview.exists_sends_step hokay
  have hconnects : Connects q e := fun isOpen => hsends.quiet _
  have hq' := step_clientInv q e q' hq hconnects hsends.step
  refine ⟨e, q', hsends.step, ⟨hconnects, fun i he => ?_⟩, ?_⟩
  · exact absurd he (hsends.quiet _)
  rcases hsends.connection with ⟨hsame, hcloser⟩ | ⟨hleft, msg, hsent⟩
  · rw [hsame]
    exact ⟨⟨hq', hsends.okay, hreceived, hopen, hle⟩,
      Nat.add_lt_add_left hcloser _⟩
  · have hlen :
        (q.connection.send msg).sends.length =
          q.connection.sends.length + 1 := by
      simp [Connection.sends, Connection.send, Nat.add_assoc]
    rw [hsent, hlen, hleft]
    refine ⟨⟨hq', hsends.okay, hreceived, hopen, by omega⟩, by omega⟩

end Sending

end ClientProcess

namespace System

section Model

/-- Everything is in order, and the other connections do nothing. -/
def Alone (c : ConnId) (t : System) (e : ServerEvent ⊕ ClientEvent) : Prop :=
  Duplex.OnLeft
      (fun s e =>
        Server.Regular s e ∧ Server.InOrder c s e ∧ Server.OnlyFor c s e)
      t e ∧
    Duplex.OnRight
      (fun p e => ClientProcess.Connects p e ∧ ClientProcess.InOrder p e) t e

/-- Both sockets of an approved client are open, and the client has sent some
messages. -/
structure Standing
    (c : ConnId) (n : UInt64) (flags : StartFlags)
    (toServer : List (Message MessageType)) (t : System) : Prop where
  inv : Inv c n flags t
  linked : Linked c t
  approved : c ∈ t.1.deqConnections
  serverOpen : ∀ conn, t.1.connections[c]? = some conn → conn.isOpen = true
  clientOpen : t.2.connection.isOpen = true
  sends : t.2.connection.sends = toServer

/-- What the link between the two has still to do. -/
def distance (c : ConnId) (t : System) : Nat :=
  match t.1.connections[c]? with
  | some conn =>
      Link.distance t.2.connection.sends conn.sends
        (t.1.linkEnd c conn, t.2.connection)
  | none => 0

/-- The link between the two cannot advance. -/
def Settled (c : ConnId) (t : System) : Prop :=
  ∀ conn, t.1.connections[c]? = some conn →
    Link.Settled t.2.connection.sends conn.sends
      (t.1.linkEnd c conn, t.2.connection)

end Model

section Stages

variable {c : ConnId} {n : UInt64} {flags : StartFlags}
  {toServer : List (Message MessageType)} {t : System}
variable {s : Server} {p : ClientProcess} {conn conn' : Connection MessageType}

theorem Alone.inOrder
    {e : ServerEvent ⊕ ClientEvent}
    (h : Alone c t e) :
    AllInOrder c t e :=
  ⟨fun e' he => ⟨(h.1 e' he).1, (h.1 e' he).2.1⟩, h.2⟩

theorem Alone.orderly
    {e : ServerEvent ⊕ ClientEvent}
    (h : Alone c t e) :
    Orderly c t e :=
  h.inOrder.orderly

theorem Standing.exists_conn
    (h : Standing c n flags toServer t) :
    ∃ conn, t.1.connections[c]? = some conn := by
  obtain ⟨conn, hconn, _⟩ := h.inv.server.session h.approved
  exact ⟨conn, hconn⟩

/-- A statement of `on_client_validated`. -/
theorem Standing.handler
    {hd : Handler} {e : HandlerEvent} {s' : Server}
    (h : Standing c n flags toServer (s, p))
    (hh : s.handler = some hd)
    (hserver : s.step (.handler e) = some s') :
    Alone c (s, p) (.inl (.handler e)) ∧
      step c (s, p) (.inl (.handler e)) = some (s', p) ∧
      Standing c n flags toServer (s', p) ∧
      s'.validated = s.validated := by
  obtain ⟨map, vector, msgs, next, _, _, _, htransmits⟩ :=
    h.inv.server.world.handlerStep hh hserver
  have halone : Alone c (s, p) (.inl (.handler e)) := by
    refine ⟨?_, by rintro _ ⟨⟩⟩
    rintro _ ⟨⟩
    exact ⟨Server.regular_of_thread (by simp) (by simp) (by simp),
      Server.inOrder_of_ne_io (by simp), by rintro d e' ⟨⟩⟩
  have hstep : step c (s, p) (.inl (.handler e)) = some (s', p) := by
    refine Duplex.step_inl hserver ?_
    show s'.receivedOf c <+: p.connection.wire
    unfold Server.receivedOf
    split
    · next conn' hconn' =>
      obtain ⟨conn, hconn, _, hreceived⟩ :=
        htransmits.exists_connection hconn'
      have hgot : s.receivedOf c <+: p.connection.wire := h.inv.joined.left
      rw [Server.receivedOf, hconn] at hgot
      rw [hreceived]
      exact hgot
    · exact List.nil_prefix
  obtain ⟨hinv, hlinked⟩ :=
    step_linked _ _ _ ⟨h.inv, h.linked⟩ halone.orderly hstep
  refine ⟨halone, hstep,
    { inv := hinv
      linked := hlinked
      approved := ?_
      serverOpen := ?_
      clientOpen := h.clientOpen
      sends := h.sends }, htransmits.world.validated⟩
  · show c ∈ s'.deqConnections
    rw [htransmits.world.deqConnections]
    exact h.approved
  · intro conn' hconn'
    obtain ⟨conn, hconn, hopen, _⟩ := htransmits.exists_connection hconn'
    rw [hopen]
    exact h.serverOpen conn hconn

/-- A running `on_client_validated` comes to its end. -/
theorem Standing.exists_idle
    (h : Standing c n flags toServer t) :
    ∃ t', ReachableBy (step c) (Alone c) t t' ∧
      (Standing c n flags toServer t' ∧ t'.1.validated = t.1.validated) ∧
      t'.1.handler = none := by
  refine exists_reachableBy_of_progress (fun t => t.1.handlerLeft) ?_ ⟨h, rfl⟩
  rintro ⟨s, p⟩ ⟨hs, hval⟩ hbusy
  obtain ⟨hd, hh⟩ := Option.ne_none_iff_exists'.mp hbusy
  obtain ⟨e, s', hserver, hcloser⟩ :=
    hs.inv.server.world.exists_handler_step hh
  obtain ⟨halone, hstep, hs', hval'⟩ := hs.handler hh hserver
  exact ⟨_, _, hstep, halone, ⟨hs', hval'.trans hval⟩, hcloser⟩

/-- A handler of the server's end of the link. -/
theorem Standing.serverAdvances
    {e : IoEvent}
    (h : Standing c n flags toServer (s, p))
    (hidle : s.handler = none)
    (hconn : s.connections[c]? = some conn)
    (hfirst : Connection.ChallengeFirst conn (.io e))
    (hadv :
      Link.ServerAdvances p.connection.sends conn.sends (conn, p.connection) e
        conn') :
    ∃ s', Alone c (s, p) (.inl (.io c e)) ∧
      step c (s, p) (.inl (.io c e)) = some (s', p) ∧
      Standing c n flags toServer (s', p) ∧
      distance c (s', p) < distance c (s, p) ∧
      (s'.handler = none ∧ s'.validated = s.validated ∨
        c ∉ s.validated ∧ c ∈ s'.validated) := by
  have hlt := (List.getElem?_eq_some_iff.mp hconn).1
  have hconnStep := hadv.step
  simp only [Connection.step] at hconnStep
  obtain ⟨conn₁, u, hio⟩ : ∃ conn₁ u, conn.ioStep e = some (conn₁, u) := by
    cases hio : conn.ioStep e with
    | none =>
        rw [hio] at hconnStep
        cases hconnStep
    | some r => exact ⟨r.1, r.2, rfl⟩
  have hafter : conn' = conn₁.afterUpcall u := by
    have hstep := Connection.step_of_ioStep (Connection.ioStep_cases hio)
    exact Option.some.inj (hadv.step.symm.trans hstep)
  have hserver := Server.step_io h.inv.server.world.crash hidle hconn hio
  have hconn₁ : (s.afterIo c conn₁ u).connections[c]? = some conn₁ := by
    rw [Server.afterIo_connections]
    exact List.getElem?_set_self hlt
  have hend : (s.afterIo c conn₁ u).linkEnd c conn₁ = conn' := by
    rw [hafter]
    cases u with
    | none => exact Server.linkEnd_of_idle (by simp [Server.afterIo, hidle]) _
    | incoming msg =>
        exact Server.linkEnd_of_idle (by simp [Server.afterIo, hidle]) _
    | validated =>
        exact Server.linkEnd_of_serving
          (s := s.afterIo c conn₁ .validated) rfl rfl _
  have hfields {α : Type} {f : Connection MessageType → α}
      (hf : ∀ conn, f conn.mfReadHeader = f conn) :
      f conn₁ = f conn' := by
    rw [← hend, Server.linkEnd_field hf]
  have hsends : conn₁.sends = conn.sends :=
    (hfields fun _ => rfl).trans hadv.sent
  have halone : Alone c (s, p) (.inl (.io c e)) := by
    refine ⟨?_, by rintro _ ⟨⟩⟩
    rintro _ ⟨⟩
    refine ⟨Server.regular_of_thread (by simp) (by simp) (by simp), ⟨?_, ?_⟩, ?_⟩
    · rintro i ⟨⟩
      exact hadv.inOrder i rfl
    · rintro _ conn₂ ⟨⟩ hconn₂
      obtain rfl := Option.some.inj (hconn.symm.trans hconn₂)
      exact hfirst
    · rintro d e' ⟨⟩
      rfl
  have hstep :
      step c (s, p) (.inl (.io c e)) = some (s.afterIo c conn₁ u, p) := by
    refine Duplex.step_inl hserver ?_
    show (s.afterIo c conn₁ u).receivedOf c <+: p.connection.wire
    rw [Server.receivedOf, hconn₁]
    show conn₁.received <+: _
    rw [hfields (f := (·.received)) fun _ => rfl]
    exact hadv.got
  obtain ⟨hinv, hlinked⟩ :=
    step_linked _ _ _ ⟨h.inv, h.linked⟩ halone.orderly hstep
  refine ⟨s.afterIo c conn₁ u, halone, hstep,
    { inv := hinv
      linked := hlinked
      approved := ?_
      serverOpen := ?_
      clientOpen := h.clientOpen
      sends := h.sends }, ?_, ?_⟩
  · rw [Server.afterIo_deqConnections]
    exact h.approved
  · intro conn₂ hconn₂
    obtain rfl := Option.some.inj (hconn₁.symm.trans hconn₂)
    rw [hfields (f := (·.isOpen)) fun _ => rfl]
    exact hadv.isOpen
  · simp only [distance, hconn₁, hconn, hend, hsends]
    rw [Server.linkEnd_of_idle (by simp [hidle])]
    exact Nat.add_lt_add_right hadv.closer _
  · cases u with
    | none => exact Or.inl ⟨hidle, rfl⟩
    | incoming msg => exact Or.inl ⟨hidle, rfl⟩
    | validated =>
        refine Or.inr ⟨fun hval => ?_, List.mem_append_right _ (by simp)⟩
        have honce : (s.validated ++ [c]).Nodup :=
          hinv.server.world.serving.gate.once
        rw [List.nodup_append] at honce
        exact honce.2.2 c hval c (List.mem_singleton_self c) rfl

/-- A handler of the client's end of the link. -/
theorem Standing.clientAdvances
    {e : IoEvent}
    (h : Standing c n flags toServer (s, p))
    (hidle : s.handler = none)
    (hconn : s.connections[c]? = some conn)
    (hfollow : Connection.SendsFollow p.connection (.io e))
    (hadv :
      Link.ClientAdvances p.connection.sends conn.sends (conn, p.connection) e
        conn') :
    ∃ p', Alone c (s, p) (.inr (.io e)) ∧
      step c (s, p) (.inr (.io e)) = some (s, p') ∧
      Standing c n flags toServer (s, p') ∧
      distance c (s, p') < distance c (s, p) := by
  have hconnStep := hadv.step
  simp only [Connection.step] at hconnStep
  obtain ⟨conn₁, u, hio⟩ : ∃ conn₁ u, p.connection.ioStep e = some (conn₁, u) := by
    cases hio : p.connection.ioStep e with
    | none =>
        rw [hio] at hconnStep
        cases hconnStep
    | some r => exact ⟨r.1, r.2, rfl⟩
  have hafter : conn' = conn₁ := by
    have hstep := Connection.step_of_ioStep (Connection.ioStep_cases hio)
    have hsame := Option.some.inj (hadv.step.symm.trans hstep)
    cases u with
    | none => exact hsame
    | incoming msg => exact hsame
    | validated =>
        exact absurd rfl
          (Connection.ioStep_client (Connection.ioStep_cases hio)
            h.inv.client.owner).2
  subst hafter
  have hclient : p.step (.io e) = some (p.afterIo conn' u) := by
    have hfault : p.starting.fault = none := h.inv.fault
    simp [ClientProcess.step, hfault, hio]
  have hconnection : (p.afterIo conn' u).connection = conn' :=
    ClientProcess.afterIo_connection p conn' u
  have hsends : conn'.sends = p.connection.sends := hadv.sent
  have halone : Alone c (s, p) (.inr (.io e)) := by
    refine ⟨by rintro _ ⟨⟩, ?_⟩
    rintro _ ⟨⟩
    refine ⟨?_, ?_⟩
    · rintro isOpen ⟨⟩
      exact hfollow.1 isOpen rfl
    · rintro i ⟨⟩
      exact hadv.inOrder i rfl
  have hstep :
      step c (s, p) (.inr (.io e)) = some (s, p.afterIo conn' u) := by
    refine Duplex.step_inr hclient ?_
    show (p.afterIo conn' u).connection.received <+: s.wireOf c
    rw [hconnection, Server.wireOf, hconn]
    exact hadv.got
  obtain ⟨hinv, hlinked⟩ :=
    step_linked _ _ _ ⟨h.inv, h.linked⟩ halone.orderly hstep
  refine ⟨p.afterIo conn' u, halone, hstep,
    { inv := hinv
      linked := hlinked
      approved := h.approved
      serverOpen := h.serverOpen
      clientOpen := ?_
      sends := ?_ }, ?_⟩
  · show (p.afterIo conn' u).connection.isOpen = true
    rw [hconnection]
    exact hadv.isOpen
  · show (p.afterIo conn' u).connection.sends = toServer
    rw [hconnection, hsends]
    exact h.sends
  · simp only [distance, hconn, hconnection, hsends]
    rw [Server.linkEnd_of_idle (by simp [hidle])]
    exact Nat.add_lt_add_left hadv.closer _

/-- A link that is not settled comes closer to it, or the client is validated. -/
theorem Standing.exists_advance
    (h : Standing c n flags toServer t)
    (hidle : t.1.handler = none)
    (hnot : ¬ Settled c t) :
    ∃ e t', step c t e = some t' ∧ Alone c t e ∧
      Standing c n flags toServer t' ∧ distance c t' < distance c t ∧
      (t'.1.handler = none ∧ t'.1.validated = t.1.validated ∨
        c ∉ t.1.validated ∧ c ∈ t'.1.validated) := by
  obtain ⟨s, p⟩ := t
  by_contra hnone
  refine hnot fun conn hconn => ?_
  have hend : s.linkEnd c conn = conn :=
    Server.linkEnd_of_idle (by simp [show s.handler = none from hidle]) _
  show Link.Settled _ _ (s.linkEnd c conn, p.connection)
  rw [hend]
  refine ⟨?_, ?_⟩
  · intro e conn' hfirst hadv
    obtain ⟨s', halone, hstep, hs', hcloser, hval⟩ :=
      h.serverAdvances hidle hconn hfirst hadv
    exact hnone ⟨_, _, hstep, halone, hs', hcloser, hval⟩
  · intro e conn' hfollow hadv
    obtain ⟨p', halone, hstep, hs', hcloser⟩ :=
      h.clientAdvances hidle hconn hfollow hadv
    exact hnone ⟨_, _, hstep, halone, hs', hcloser, Or.inl ⟨hidle, rfl⟩⟩

/-- The link between the two is live. -/
theorem Standing.live
    (h : Standing c n flags toServer t)
    (hannounced : Connection.Announced toServer)
    (hconn : t.1.connections[c]? = some conn) :
    ∃ now,
      Link.Live now toServer conn.sends (t.1.linkEnd c conn, t.2.connection) := by
  obtain ⟨now, uid, les, horderly, hrun⟩ := h.linked.linked h.approved conn hconn
  obtain ⟨conn₁, i, map, sm, msgs, hassigned⟩ :=
    h.inv.exists_assignment h.approved
  obtain rfl := Option.some.inj (hconn.symm.trans hassigned.connections)
  refine ⟨now, ?_⟩
  have hlive :=
    Link.live_of_run horderly hrun
      (by rw [Server.linkEnd_isOpen]; exact h.serverOpen conn hconn)
      h.clientOpen
      (by
        rw [Server.linkEnd_sends]
        exact
          (ClientProcess.Serves.mk hassigned.startup hassigned.sends).announced)
      (by rw [h.sends]; exact hannounced)
  rw [h.sends, Server.linkEnd_sends] at hlive
  exact hlive

/-- A settled link has validated the client. -/
theorem Standing.validated_of_settled
    (h : Standing c n flags toServer t)
    (hannounced : Connection.Announced toServer)
    (hidle : t.1.handler = none)
    (hsettled : Settled c t) :
    c ∈ t.1.validated := by
  obtain ⟨conn, hconn⟩ := h.exists_conn
  obtain ⟨now, hlive⟩ := h.live hannounced hconn
  have hset := hsettled conn hconn
  rw [h.sends] at hset
  have hpast := hlive.server_frames hset
  have hend : t.1.linkEnd c conn = conn :=
    Server.linkEnd_of_idle (by simp [hidle]) _
  rw [hend] at hpast
  cases (h.inv.server.world.serving.gate.gates c conn hconn).2 with
  | awaiting _ _ hreads =>
      have hfirst :
          conn.reads[0]? =
            some ⟨.validation, byteSize UInt64, conn.received⟩ := by
        rw [hreads, List.getElem?_cons_zero]
      exact absurd rfl (hpast.state.payload_ne hfirst)
  | shut _ _ hclosed =>
      rw [h.serverOpen conn hconn] at hclosed
      cases hclosed
  | passed _ hval => exact hval

/-- The client is validated sooner or later. -/
theorem Standing.exists_validated
    (h : Standing c n flags toServer t)
    (hannounced : Connection.Announced toServer)
    (hidle : t.1.handler = none) :
    ∃ t', ReachableBy (step c) (Alone c) t t' ∧
      (Standing c n flags toServer t' ∧
        (t'.1.handler = none ∨ c ∈ t'.1.validated)) ∧
      c ∈ t'.1.validated := by
  refine exists_reachableBy_of_progress (distance c) ?_ ⟨h, Or.inl hidle⟩
  rintro t ⟨hs, hidle | hval⟩ hnot
  · have hunsettled : ¬ Settled c t := fun hset =>
      hnot (hs.validated_of_settled hannounced hidle hset)
    obtain ⟨e, t', hstep, halone, hs', hcloser, hnext⟩ :=
      hs.exists_advance hidle hunsettled
    refine ⟨e, t', hstep, halone, ⟨hs', ?_⟩, hcloser⟩
    exact hnext.imp (fun hsame => hsame.1) fun hnew => hnew.2
  · exact absurd hval hnot

/-- Once the client is validated the link settles. -/
theorem Standing.exists_settled
    (h : Standing c n flags toServer t)
    (hidle : t.1.handler = none)
    (hval : c ∈ t.1.validated) :
    ∃ t', ReachableBy (step c) (Alone c) t t' ∧
      (Standing c n flags toServer t' ∧ t'.1.handler = none ∧
        c ∈ t'.1.validated) ∧
      Settled c t' := by
  refine exists_reachableBy_of_progress (distance c) ?_ ⟨h, hidle, hval⟩
  rintro t ⟨hs, hidle, hval⟩ hunsettled
  obtain ⟨e, t', hstep, halone, hs', hcloser, hnext⟩ :=
    hs.exists_advance hidle hunsettled
  refine ⟨e, t', hstep, halone, ⟨hs', ?_⟩, hcloser⟩
  rcases hnext with ⟨hidle', hsame⟩ | ⟨hnot, _⟩
  · exact ⟨hidle', by rw [hsame]; exact hval⟩
  · exact absurd hval hnot

/-- Sooner or later the client is served and everything that was sent is
delivered. -/
theorem Standing.exists_served
    (h : Standing c n flags toServer t)
    (hannounced : Connection.Announced toServer) :
    ∃ t', ReachableBy (step c) (Alone c) t t' ∧
      Standing c n flags toServer t' ∧ t'.1.handler = none ∧
      c ∈ t'.1.validated ∧ Settled c t' := by
  obtain ⟨t₁, hreach₁, ⟨h₁, _⟩, hidle₁⟩ := h.exists_idle
  obtain ⟨t₂, hreach₂, ⟨h₂, _⟩, hval₂⟩ :=
    h₁.exists_validated hannounced hidle₁
  obtain ⟨t₃, hreach₃, ⟨h₃, hsame₃⟩, hidle₃⟩ := h₂.exists_idle
  obtain ⟨t₄, hreach₄, ⟨h₄, hidle₄, hval₄⟩, hsettled⟩ :=
    h₃.exists_settled hidle₃ (by rw [hsame₃]; exact hval₂)
  exact ⟨t₄, ((hreach₁.trans hreach₂).trans hreach₃).trans hreach₄, h₄,
    hidle₄, hval₄, hsettled⟩

/-- A client that has been served was sent all messages of its map. -/
theorem Assignment.sends_eq
    {i : Nat} {map : Map} {sm : Client.ServerMap}
    {msgs : List (Message MessageType)}
    (h : Assignment c t conn i map sm msgs)
    (hinv : Inv c n flags t)
    (hc : c ∈ t.1.deqConnections)
    (hval : c ∈ t.1.validated)
    (hidle : t.1.handler = none) :
    conn.sends = msgs := by
  obtain ⟨conn₁, hconn₁, hsession⟩ := hinv.server.session hc
  obtain rfl := Option.some.inj (h.connections.symm.trans hconn₁)
  have hfive {layout : WinConsoleLayout} {config : MapConfig}
      {es : List Entity} {ms : List (Message MessageType)}
      (hms : Server.startupMessages layout config es = some ms) :
      ms.length = 5 := by
    obtain ⟨_, _, _, _, rfl⟩ := Server.startupMessages_eq hms
    rfl
  cases hsession.log with
  | approved hnot => exact absurd hval hnot
  | serving hh =>
      rw [hidle] at hh
      cases hh
  | served _ _ _ _ _ hlog =>
      exact h.sends.eq_of_length (by rw [hfive hlog, hfive h.startup])

/-- Everything that the server has sent is delivered on a settled link. -/
theorem Standing.delivered_of_settled
    {i : Nat} {map : Map} {sm : Client.ServerMap}
    {msgs : List (Message MessageType)}
    (h : Standing c n flags toServer t)
    (hannounced : Connection.Announced toServer)
    (hidle : t.1.handler = none)
    (hval : c ∈ t.1.validated)
    (hsettled : Settled c t)
    (hassigned : Assignment c t conn i map sm msgs) :
    t.2.connection.delivered = msgs ∧
      conn.delivered = deliveries [] toServer := by
  obtain ⟨now, hlive⟩ := h.live hannounced hassigned.connections
  have hset := hsettled conn hassigned.connections
  rw [h.sends] at hset
  have hdelivered := hlive.delivered_of_settled hset
  have hall := hassigned.sends_eq h.inv h.approved hval hidle
  refine ⟨?_, ?_⟩
  · have hclient := hdelivered.toClient
    rw [hall, Client.deliveries_startupMessages sm hassigned.startup] at hclient
    exact hclient
  · have hserver := hdelivered.toServer
    rw [Server.linkEnd_delivered] at hserver
    exact hserver

/-- The client goes on alone, and its socket stays open. -/
theorem Standing.client
    {p' : ClientProcess}
    (h : Standing c n flags toServer (s, p))
    (hreach :
      ReachableBy ClientProcess.step
        (fun p e => ClientProcess.Connects p e ∧ ClientProcess.InOrder p e) p p')
    (hreceived : p'.connection.received = p.connection.received)
    (hopen : p'.connection.isOpen = p.connection.isOpen) :
    ReachableBy (step c) (Alone c) (s, p) (s, p') ∧
      Standing c n flags p'.connection.sends (s, p') := by
  have hall : ReachableBy (step c) (Alone c) (s, p) (s, p') := by
    refine Duplex.reachableBy_inr hreach ?_
    show p'.connection.received <+: s.wireOf c
    rw [hreceived]
    exact h.inv.joined.right
  obtain ⟨hinv, hlinked⟩ :=
    (hall.mono fun _ _ h => Alone.orderly h).invariant
      (step_linked) ⟨h.inv, h.linked⟩
  exact ⟨hall,
    { inv := hinv
      linked := hlinked
      approved := h.approved
      serverOpen := h.serverOpen
      clientOpen := hopen.trans h.clientOpen
      sends := rfl }⟩

/-- A client that has not come to the end of its start-up can do so. -/
theorem Standing.exists_startup
    (h : Standing c n flags [] t) :
    ∃ t', ReachableBy (step c) (Alone c) t t' ∧
      Standing c n flags [] t' ∧
      t'.2.starting.client.startupOkay = true := by
  have hannounced : Connection.Announced ([] : List (Message MessageType)) :=
    List.forall_mem_nil _
  obtain ⟨⟨s, p⟩, hreach₁, h₁, hidle, hval, hsettled⟩ :=
    h.exists_served hannounced
  obtain ⟨conn, i, map, sm, msgs, hassigned⟩ :=
    h₁.inv.exists_assignment h₁.approved
  obtain ⟨hall, _⟩ :=
    h₁.delivered_of_settled hannounced hidle hval hsettled hassigned
  obtain ⟨p', hreach₂, ⟨_, hsame⟩, hokay⟩ :=
    (hassigned.view h₁.inv).exists_startup hassigned.serves h₁.clientOpen hall
  obtain ⟨hreach, h₂⟩ :=
    h₁.client hreach₂ (by rw [hsame]) (by rw [hsame])
  rw [hsame, h₁.sends] at h₂
  exact ⟨_, hreach₁.trans hreach, h₂, hokay⟩

/-- Messages that are in the queue of the server are passed on. -/
theorem Standing.exists_drained
    (h : Standing c n flags toServer (s, p)) :
    ReachableBy (step c) (Alone c) (s, p)
      ({ s with qMessagesIn := [] }, p) := by
  refine Duplex.reachableBy_inl (Server.exists_drained c ?_) ?_
  · exact h.inv.server.world.crash
  · exact h.inv.joined.left

/-- A client that has not come to the end of its start-up has not sent
anything. -/
theorem Inv.sends_eq_nil
    (h : Inv c n flags t)
    (hc : c ∈ t.1.deqConnections)
    (hokay : t.2.starting.client.startupOkay = false) :
    t.2.connection.sends = [] := by
  obtain ⟨conn, i, map, sm, msgs, hassigned⟩ := h.exists_assignment hc
  cases (hassigned.view h).progress with
  | starting _ _ hsends => exact hsends
  | playing hplays =>
      rw [hplays.replica.okay] at hokay
      cases hokay

/-- The client's start-up comes to its end, if it has not done so yet. -/
theorem Standing.exists_okay
    (h : Standing c n flags toServer t) :
    ∃ t', ReachableBy (step c) (Alone c) t t' ∧
      Standing c n flags toServer t' ∧
      t'.2.starting.client.startupOkay = true := by
  cases hokay : t.2.starting.client.startupOkay with
  | true => exact ⟨t, reachableBy_refl _ _, h, hokay⟩
  | false =>
      obtain rfl : toServer = [] := by
        rw [← h.sends]
        exact h.inv.sends_eq_nil h.approved hokay
      exact h.exists_startup

/-- As many updates as can be counted for a full map are sent, and all of them
come in. -/
theorem Standing.exists_updates
    {k : Nat}
    (h : Standing c n flags toServer t)
    (hupdating : Updating c n flags t)
    (hk : toServer.length ≤ k)
    (hcount : byteSize Entity * (maxFoodPerMap * k) < 2 ^ 32) :
    ∃ i vector t', ReachableBy (step c) (Alone c) t t' ∧
      c ∈ t'.1.deqConnections ∧ t'.2.connection.sends.length = k ∧
      t'.1.incommingEntities[i]? = some vector ∧
      (k ≠ 0 → (c, i) ∈ t'.1.served) ∧
      k ≤ t'.2.wakeUps ∧ t'.1.qMessagesIn = [] ∧
      t'.1.deliveredOf c = ClientMap.updates vector k := by
  obtain ⟨⟨s₁, p₁⟩, hreach₁, h₁, hokay⟩ := h.exists_okay
  -- the client sends what is missing
  have hk₁ : p₁.connection.sends.length ≤ k := by
    rw [show p₁.connection.sends = toServer from h₁.sends]
    exact hk
  obtain ⟨conn₁, _, _, _, _, hassigned₁⟩ :=
    h₁.inv.exists_assignment h₁.approved
  obtain ⟨p₂, hreach₂, ⟨_, _, hreceived, hopen, _⟩, hlen⟩ :=
    h₁.inv.client.exists_sends hassigned₁.serves hassigned₁.given hokay hk₁
  obtain ⟨hreach₂, h₂⟩ := h₁.client hreach₂ hreceived hopen
  have hupdating₂ :=
    ((hreach₁.trans hreach₂).mono fun _ _ h => Alone.inOrder h).invariant
      (step_updating) hupdating
  obtain ⟨_, i₂, _, sm₂, _, hassigned₂, hupdates₂, _⟩ :=
    hupdating₂.exists_assignment h₂.approved
  rw [hlen] at hupdates₂
  have hannounced : Connection.Announced p₂.connection.sends := by
    rw [hupdates₂.sends]
    refine ClientMap.announced_updates (lt_of_le_of_lt ?_ hcount)
    exact Nat.mul_le_mul_left _
      (Nat.mul_le_mul_right k
        (h₂.inv.server.world.serving.startup.vector_length hassigned₂.entities))
  -- all of it is delivered
  obtain ⟨⟨s₃, p₃⟩, hreach₃, h₃, hidle, hval, hsettled⟩ :=
    h₂.exists_served hannounced
  have hupdating₃ :=
    (hreach₃.mono fun _ _ h => Alone.inOrder h).invariant
      (step_updating) hupdating₂
  obtain ⟨conn₃, i, _, sm₃, _, hassigned₃, hupdates₃, hserved⟩ :=
    hupdating₃.exists_assignment h₃.approved
  obtain ⟨_, hdelivered⟩ :=
    h₃.delivered_of_settled hannounced hidle hval hsettled hassigned₃
  rw [← h₃.sends] at hdelivered hlen
  rw [hlen] at hupdates₃
  refine ⟨i, sm₃.entities, _,
    ((hreach₁.trans hreach₂).trans hreach₃).trans h₃.exists_drained,
    h₃.approved, hlen, hassigned₃.entities, ?_,
    (Nat.le_add_right k _).trans hupdates₃.woken, rfl, ?_⟩
  · intro hne
    refine hserved fun hnone => hne ?_
    rw [← hlen, hnone]
    rfl
  · show s₃.deliveredOf c = _
    rw [Server.deliveredOf, hassigned₃.connections]
    show conn₃.delivered = _
    rw [hdelivered, hupdates₃.sends, ClientMap.deliveries_updates]

theorem standing_of_open
    (hinv : Inv c n flags t)
    (hlinked : Linked c t)
    (hc : c ∈ t.1.deqConnections)
    (hconn : t.1.connections[c]? = some conn)
    (hserver : conn.isOpen = true)
    (hclient : t.2.connection.isOpen = true) :
    Standing c n flags t.2.connection.sends t where
  inv := hinv
  linked := hlinked
  approved := hc
  serverOpen := by
    intro conn' hconn'
    obtain rfl := Option.some.inj (hconn.symm.trans hconn')
    exact hserver
  clientOpen := hclient
  sends := rfl

end Stages

end System

end SpeciesSimulator
