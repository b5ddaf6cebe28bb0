import SpeciesSimulator.NetClientReader
import SpeciesSimulator.ServerSlots

/-!
# What a refused client is told

`on_client_connect` sends a refused client the message `Server_Denial`, sleeps
and returns `false`; the accept handler then drops the connection, which closes
its socket.  The message is only posted by then: the handler that would write
it runs on the io thread after the accept handler, on a connection that is
gone.

Main facts:
* `reachable_refusedInv`: nothing is ever written to the socket of a refused
  client;
* `orphan_wire`: if something kept the connection and its socket, the message
  would be written without a challenge before it;
* `refused_never_told`: no client takes the denial from either.
-/

namespace SpeciesSimulator

open ByteLayout Transition ListSlots Message

universe u

namespace Connection

section Orphans

variable {T : Type u} [Layout (MessageHeader T)]
variable {msg : Message T} {c c' : Connection T}

/-- How far the only message of a connection has come. -/
inductive Sending (msg : Message T) (c : Connection T) : Prop
  | posted
      (hposted : c.posted = [msg])
      (hq : c.qMessagesOut = [])
      (hw : c.writes = [])
      (hwire : c.wire = [])
  | header (left : List UInt8)
      (hposted : c.posted = [])
      (hq : c.qMessagesOut = [msg])
      (hw : c.writes = [⟨.header, left⟩])
      (hwire : c.wire ++ left = toBytes msg.header)
  | body (left : List UInt8)
      (hposted : c.posted = [])
      (hq : c.qMessagesOut = [msg])
      (hw : c.writes = [⟨.body, left⟩])
      (hwire : c.wire ++ left = frame msg)
  | ended
      (hposted : c.posted = [])
      (hw : c.writes = [])
      (hwire : c.wire <+: frame msg)

/-- A connection for which one message was sent and nothing else was started. -/
structure Orphan (msg : Message T) (c : Connection T) : Prop where
  reads : c.reads = []
  closing : c.closing = 0
  connecting : c.connecting = false
  sending : Sending msg c

/-- What is on the wire is a part of the message. -/
theorem Sending.wire_prefix
    (h : Sending msg c) :
    c.wire <+: frame msg := by
  cases h with
  | posted hposted hq hw hwire =>
      rw [hwire]
      exact List.nil_prefix
  | header left hposted hq hw hwire =>
      have hhead : c.wire <+: toBytes msg.header := ⟨left, hwire⟩
      exact hhead.trans (List.prefix_append _ _)
  | body left hposted hq hw hwire => exact ⟨left, hwire⟩
  | ended hposted hw hwire => exact hwire

/-- The only outstanding write is of the header or of the body. -/
theorem Orphan.transfer
    {i n : Nat} {w : PendingWrite}
    (h : Orphan msg c)
    (hw : c.writes[i]? = some w) :
    Orphan msg
      { c with
        writes := c.writes.set i { w with left := w.left.drop n }
        wire := c.wire ++ w.left.take n } := by
  refine ⟨h.reads, h.closing, h.connecting, ?_⟩
  cases h.sending with
  | posted hposted hq hnone hwire => simp [hnone] at hw
  | header left hposted hq hone hwire =>
      obtain ⟨rfl, _, hset⟩ := only_item hw hone
      refine .header _ hposted hq (hset _) ?_
      simpa using hwire
  | body left hposted hq hone hwire =>
      obtain ⟨rfl, _, hset⟩ := only_item hw hone
      refine .body _ hposted hq (hset _) ?_
      simpa using hwire
  | ended hposted hnone hwire => simp [hnone] at hw

/-- A completed write. -/
theorem Orphan.writeDone
    {i : Nat} {w : PendingWrite}
    (h : Orphan msg c)
    (hw : c.writes[i]? = some w)
    (hleft : w.left = []) :
    Orphan msg ((c.dropWrite i).onWrite w) := by
  cases h.sending with
  | posted hposted hq hnone hwire => simp [hnone] at hw
  | header left hposted hq hone hwire =>
      obtain ⟨rfl, herase, _⟩ := only_item hw hone
      have hnil : left = [] := hleft
      rw [hnil, List.append_nil] at hwire
      have hq' : (c.dropWrite i).qMessagesOut = [msg] := hq
      simp only [onWrite, onWriteHeader, hq', mfWriteBody, popAndContinue]
      split
      · refine ⟨h.reads, h.closing, h.connecting, ?_⟩
        refine .body msg.body hposted hq ?_ ?_
        · simp [asyncWrite, herase, dropWrite]
        · show c.wire ++ msg.body = frame msg
          rw [hwire]
          rfl
      · refine ⟨h.reads, h.closing, h.connecting, ?_⟩
        refine .ended hposted herase ?_
        show c.wire <+: frame msg
        rw [hwire]
        exact List.prefix_append _ _
  | body left hposted hq hone hwire =>
      obtain ⟨rfl, herase, _⟩ := only_item hw hone
      have hq' : (c.dropWrite i).qMessagesOut = [msg] := hq
      simp only [onWrite, onWriteBody, hq', popAndContinue]
      refine ⟨h.reads, h.closing, h.connecting, ?_⟩
      exact .ended hposted herase ⟨left, hwire⟩
  | ended hposted hnone hwire => simp [hnone] at hw

/-- A write that failed is not started again. -/
theorem Orphan.writeFail
    {i : Nat} {w : PendingWrite}
    (h : Orphan msg c)
    (hw : c.writes[i]? = some w) :
    Orphan msg ((c.dropWrite i).close) := by
  refine ⟨h.reads, h.closing, h.connecting, ?_⟩
  have hwire := h.sending.wire_prefix
  cases h.sending with
  | posted hposted hq hnone => simp [hnone] at hw
  | header left hposted hq hone =>
      have herase := (only_item hw hone).2.1
      exact .ended hposted herase hwire
  | body left hposted hq hone =>
      have herase := (only_item hw hone).2.1
      exact .ended hposted herase hwire
  | ended hposted hnone => simp [hnone] at hw

/-- A handler of such a connection. -/
theorem ioStep_orphan
    {e : IoEvent} {u : Upcall T}
    (h : Orphan msg c)
    (hio : IoStep c e c' u) :
    Orphan msg c' ∧ u = .none := by
  cases hio with
  | @runSend i msg' hmsg =>
      refine ⟨?_, rfl⟩
      cases h.sending with
      | posted hposted hq hw hwire =>
          obtain ⟨rfl, herase, _⟩ := only_item hmsg hposted
          have hq' : (c.dropPosted i).qMessagesOut = [] := hq
          rw [onSend_of_empty hq']
          refine ⟨h.reads, h.closing, h.connecting, ?_⟩
          refine .header (toBytes msg'.header) herase rfl ?_ ?_
          · simp [mfWriteHeader, asyncWrite, dropPosted, hw]
          · simp [mfWriteHeader, asyncWrite, dropPosted, hwire]
      | header left hposted => simp [hposted] at hmsg
      | body left hposted => simp [hposted] at hmsg
      | ended hposted => simp [hposted] at hmsg
  | runClose hclosing =>
      rw [h.closing] at hclosing
      exact absurd hclosing (Nat.lt_irrefl 0)
  | connected hconn =>
      rw [h.connecting] at hconn
      cases hconn
  | connectFailed hconn =>
      rw [h.connecting] at hconn
      cases hconn
  | recv hr => simp [h.reads] at hr
  | readDone hr => simp [h.reads] at hr
  | readFail hr => simp [h.reads] at hr
  | transfer hw hopen hleft => exact ⟨h.transfer hw, rfl⟩
  | writeDone hw hleft => exact ⟨h.writeDone hw hleft, rfl⟩
  | writeFail hw => exact ⟨h.writeFail hw, rfl⟩

/-- What is written is a part of the message, and nothing comes before it. -/
theorem orphan_wire [Inhabited T]
    {now : UInt64} {es : List IoEvent}
    (hrun :
      run step ((make .server now true).send msg) (es.map .io) = some c) :
    c.wire <+: frame msg := by
  have h₀ : Orphan msg ((make .server now true).send msg) :=
    ⟨rfl, rfl, rfl, .posted rfl rfl rfl rfl⟩
  have hstep :
      ∀ (c : Connection T) (e : IoEvent) (c' : Connection T),
        Orphan msg c → c.step (.io e) = some c' → Orphan msg c' := by
    intro c e c' h hstep
    rcases step_cases hstep with
      ⟨msg', he, _⟩ | ⟨he, _⟩ | ⟨e₀, u, c₀, he, hio, hc'⟩
    · cases he
    · cases he
    · obtain ⟨h', hu⟩ := ioStep_orphan h hio
      rcases hc' with rfl | ⟨hvalidated, _⟩
      · exact h'
      · rw [hu] at hvalidated
        cases hvalidated
  have h : Orphan msg c := by
    refine
      run_invariant (C := fun _ e => ∃ e₀, e = .io e₀) (I := Orphan msg)
        ?_ h₀ ?_ hrun
    · rintro c _ c' h ⟨e, rfl⟩ hs
      exact hstep c e c' h hs
    · refine meets_of_forall ?_ _
      intro _ e he
      obtain ⟨e₀, _, rfl⟩ := List.mem_map.mp he
      exact ⟨e₀, rfl⟩
  exact h.sending.wire_prefix

end Orphans

section Told

/-- Some client that is given what was written takes one message from it, the
denial. -/
def Told (c : Connection MessageType) : Prop :=
  ∃ (es : List (ConnEvent MessageType)) (client : Connection MessageType)
      (msg : Message MessageType),
    run step newClient es = some client ∧
      client.received = c.wire ∧
      client.delivered = [msg] ∧
      msg.header.id = .serverDenial ∧
      msg.body = Server.denialMessage.body

/-- Where a client looks for the size there is a part of the text. -/
theorem starved_denial :
    Starved MessageType (frame Server.denialMessage) := by
  decide

theorem not_told_of_prefix
    {c : Connection MessageType}
    (hwire : c.wire <+: frame Server.denialMessage) :
    ¬ c.Told := by
  rintro ⟨es, client, msg, hrun, hstream, hdel, _⟩
  rw [← hstream] at hwire
  rw [delivered_eq_nil starved_denial hrun hwire] at hdel
  cases hdel

end Told

/-- The socket of a connection that nobody may write to. -/
structure Silent (c : Connection MessageType) : Prop where
  closed : c.isOpen = false
  wire : c.wire = []

/-- No bytes move through a closed socket. -/
theorem Silent.ioStep
    {c c' : Connection MessageType} {e : IoEvent} {u : Upcall MessageType}
    (h : Silent c)
    (hside : ServerSide c)
    (hio : IoStep c e c' u) :
    Silent c' := by
  have hclosed : c'.isOpen = false := by
    rcases ioStep_isOpen hside hio with ⟨_, hopen⟩ | ⟨_, hopen⟩
    · exact hopen
    · exact hopen.trans h.closed
  refine ⟨hclosed, ?_⟩
  cases hio with
  | runSend hmsg => exact (hands_onSend _ _).wire.trans h.wire
  | runClose hclosing => exact h.wire
  | connected hconn => exact h.wire
  | connectFailed hconn => exact h.wire
  | recv hr hopen hwant => exact h.wire
  | @readDone i r c' u hr hfull hon =>
      have howner : (c.dropRead i).nowner = .server := hside.owner
      exact (sameOutput_onRead (Or.inl howner) hon).wire.trans h.wire
  | readFail hr => exact h.wire
  | transfer hw hopen hleft =>
      rw [h.closed] at hopen
      cases hopen
  | @writeDone i w hw hleft =>
      have howner : (c.dropWrite i).nowner = .server := hside.owner
      cases hm : w.isMessage with
      | true => exact (hands_onWrite _ hm).wire.trans h.wire
      | false =>
          rw [onWrite_validation_of_server howner hm]
          exact h.wire
  | writeFail hw => exact h.wire

end Connection

namespace Server

/-- Nothing was written to the socket of a client that is not approved. -/
structure RefusedInv (s : Server) : Prop where
  gates : GateInv s
  refused :
    Every (fun c conn => c ∉ s.deqConnections → Connection.Silent conn)
      s.connections

section StepLemma

variable {s s' : Server} {e : ServerEvent}

/-- A step that approves nobody keeps the refused sockets as they are. -/
theorem RefusedInv.of_every
    (h : GateInv s')
    (hdeq : s'.deqConnections = s.deqConnections)
    (hevery :
      Every (fun c conn => c ∉ s.deqConnections → Connection.Silent conn)
        s'.connections) :
    RefusedInv s' := by
  refine ⟨h, ?_⟩
  rw [hdeq]
  exact hevery

/-- `on_client_validated` sends to an approved client. -/
theorem RefusedInv.handlerStep
    {hd : Handler} {he : HandlerEvent}
    (h : RefusedInv s)
    (hh : s.handler = some hd)
    (hgates : GateInv s')
    (hstep : HandlerStep s hd he s') :
    RefusedInv s' := by
  have happroved := h.gates.handler_approved hh
  have hworld := hstep.sameWorld
  refine .of_every hgates hworld.deqConnections ?_
  rcases hstep.connections with hsame | ⟨f, hmodify, _⟩
  · rw [hsame]
    exact h.refused
  · rw [hmodify]
    exact h.refused.modify fun _ _ _ hnot => absurd happroved hnot

theorem step_refusedInv
    (s : Server) (e : ServerEvent) (s' : Server)
    (h : RefusedInv s)
    (hstep : s.step e = some s') :
    RefusedInv s' := by
  have hgates : GateInv s' := step_gateInv s e s' h.gates hstep
  cases step_cases hstep with
  | startServer => exact .of_every hgates rfl h.refused
  | startEnvironment => exact .of_every hgates rfl h.refused
  | environment => exact .of_every hgates rfl h.refused
  | fault => exact .of_every hgates rfl h.refused
  | acceptFailed => exact h
  | update => exact .of_every hgates rfl h.refused
  | approve =>
      refine ⟨hgates, Every.concat ?_ ?_⟩
      · refine h.refused.mono ?_
        intro c conn _ hsilent hnot
        exact hsilent fun hc => hnot (List.mem_append_left _ hc)
      · intro hnot
        exact absurd (List.mem_append_right _ (List.mem_singleton_self _)) hnot
  | refuse =>
      refine .of_every hgates rfl (Every.concat h.refused ?_)
      exact fun _ => ⟨rfl, rfl⟩
  | @io c e conn conn' u hidle hconn hio =>
      have hside := (h.gates.gates c conn hconn).1
      refine .of_every hgates (afterIo_deqConnections s c conn' u) ?_
      rw [afterIo_connections]
      exact h.refused.set fun _ hnot =>
        (h.refused c conn hconn hnot).ioStep hside hio
  | handler hh hhandler => exact h.handlerStep hh hgates hhandler

end StepLemma

section Runs

variable {nmapSize : UInt64} {s₀ s : Server}

/-- Nothing is ever written to the socket of a refused client. -/
theorem reachable_refusedInv
    (hmake : make nmapSize = .ok s₀)
    (hreach : Reachable step s₀ s) :
    RefusedInv s := by
  refine reachable_invariant step_refusedInv ⟨gateInv_of_make hmake, ?_⟩ hreach
  obtain ⟨environment, _, rfl⟩ := exists_of_make hmake
  exact every_nil

/-- No refused client is ever told.  It would not be told either if the
connection outlived the accept handler with its socket open. -/
theorem refused_never_told
    {es : List ServerEvent} {c : ConnId} {conn : Connection MessageType}
    (hmake : make nmapSize = .ok s₀)
    (hrun : run step s₀ es = some s)
    (hconn : s.connections[c]? = some conn)
    (hrefused : c ∉ s.deqConnections) :
    conn.wire = [] ∧ ¬ conn.Told ∧
      ∀ (now : UInt64) (ios : List IoEvent)
          (orphan : Connection MessageType),
        run Connection.step
            ((Connection.make .server now true).send denialMessage)
            (ios.map .io) = some orphan →
          ¬ orphan.Told := by
  have h : RefusedInv s := reachable_refusedInv hmake ⟨es, hrun⟩
  have hwire := (h.refused c conn hconn hrefused).wire
  refine ⟨hwire, Connection.not_told_of_prefix ?_, ?_⟩
  · rw [hwire]
    exact List.nil_prefix
  · intro now ios orphan horphan
    exact Connection.not_told_of_prefix (Connection.orphan_wire horphan)

/-- The second client of a server with one map. -/
theorem refused_never_told_second_client :
    ∃ s₀ s conn, make 1 = .ok s₀ ∧
      run step s₀ [.startServer, .accept 1, .accept 2, .io 1 (.runSend 0)] =
        some s ∧
      s.connections[1]? = some conn ∧ 1 ∉ s.deqConnections ∧
      conn.wire = [] := by
  have hrun :
      ∃ s₀ s conn, make 1 = .ok s₀ ∧
        run step s₀ [.startServer, .accept 1, .accept 2, .io 1 (.runSend 0)] =
          some s ∧
        s.connections[1]? = some conn ∧ 1 ∉ s.deqConnections :=
    ⟨_, _, _, rfl, rfl, rfl, by decide⟩
  obtain ⟨s₀, s, conn, hmake, hrun, hconn, hrefused⟩ := hrun
  exact ⟨s₀, s, conn, hmake, hrun, hconn, hrefused,
    (refused_never_told hmake hrun hconn hrefused).1⟩

/-- All handlers that were posted for it have run, and it is not told. -/
theorem refused_never_told_fails_on_second_client :
    ∃ s₀ s conn, make 1 = .ok s₀ ∧
      run step s₀ [.startServer, .accept 1, .accept 2, .io 1 (.runSend 0)] =
        some s ∧
      s.connections[1]? = some conn ∧ s.deqConnections = [0] ∧
      conn.posted = [] ∧ ¬ conn.Told := by
  refine ⟨_, _, _, rfl, rfl, rfl, rfl, rfl, ?_⟩
  exact Connection.not_told_of_prefix List.nil_prefix

end Runs

end Server

end SpeciesSimulator
