import SpeciesSimulator.NetGate
import SpeciesSimulator.Server

/-!
# What a client must do to be heard and served

The gates of all connections of a server, over every run: any number of
connections, any bytes from their peers, failures and closings at any time.

Main facts:
* `step_gateInv`: every step keeps every connection behind its gate and
  validates a connection at most once;
* `validation_gate`: messages are taken from a connection, and data of a map
  are sent to it, only after the right reply; after a wrong one nothing more
  is read.
-/

namespace SpeciesSimulator

open ByteLayout Transition ListSlots

/-- Messages that carry data of a map. -/
def MessageType.isMapData : MessageType → Bool
  | .sendMapConsoleLayout => true
  | .sendMapLayout => true
  | .sendEntitiesSize => true
  | .sendEntities => true
  | _ => false

namespace Connection

/-- A connection whose reply was wrong: no byte was taken for a header or a
body, and the socket is closed, or the handler of the only read that is
outstanding is about to close it. -/
structure TurnedAway (c : Connection MessageType) : Prop where
  delivered : c.delivered = []
  temp : c.tempMessageIn = Message.fresh
  reading :
    c.reads = [] ∧ c.isOpen = false ∨
      c.reads = [⟨.validation, byteSize UInt64, c.received⟩] ∧
        ∃ c', c.ioStep (.readDone 0) = some (c', .none) ∧
          c'.reads = [] ∧ c'.isOpen = false

end Connection

namespace Server

/-- Messages for clients that were not validated. -/
def IsPublic (msg : Message MessageType) : Prop :=
  msg.header.id.isMapData = false

/-- The gate of the connection with a place. -/
def Gated (s : Server) (c : ConnId) (conn : Connection MessageType) : Prop :=
  Connection.ServerSide conn ∧
    Connection.GateState IsPublic (c ∈ s.deqConnections) (c ∈ s.validated)
      conn

/-- Every connection is behind its gate, and only validated ones are heard and
served. -/
structure GateInv (s : Server) : Prop where
  gates : Every s.Gated s.connections
  heard : ∀ p ∈ s.qMessagesIn, p.1 ∈ s.validated
  served : ∀ h, s.handler = some h → h.client ∈ s.validated
  once : s.validated.Nodup
  known : ∀ c ∈ s.validated, c < s.connections.length
  approved : ∀ c ∈ s.deqConnections, c < s.connections.length

section Frame

variable {s s' : Server}

/-- Gates do not depend on the environment and the history. -/
theorem GateInv.congr
    (h : GateInv s)
    (hconn : s'.connections = s.connections)
    (hdeq : s'.deqConnections = s.deqConnections)
    (hval : s'.validated = s.validated)
    (hq : ∀ p ∈ s'.qMessagesIn, p ∈ s.qMessagesIn)
    (hh : ∀ h', s'.handler = some h' → h'.client ∈ s.validated) :
    GateInv s' := by
  refine ⟨?_, ?_, ?_, ?_, ?_, ?_⟩
  · unfold Gated
    rw [hconn, hdeq, hval]
    exact h.gates
  · rw [hval]
    exact fun p hp => h.heard p (hq p hp)
  · rw [hval]
    exact hh
  · rw [hval]
    exact h.once
  · rw [hval, hconn]
    exact h.known
  · rw [hdeq, hconn]
    exact h.approved

/-- The gate of another connection is not concerned. -/
theorem Gated.congr
    {c : ConnId} {conn : Connection MessageType}
    (h : s.Gated c conn)
    (hdeq : c ∈ s.deqConnections ↔ c ∈ s'.deqConnections)
    (hval : c ∈ s.validated ↔ c ∈ s'.validated) :
    s'.Gated c conn :=
  ⟨h.1, h.2.congr_iff hdeq hval⟩

end Frame

section Passing

variable {s : Server}

/-- A validated connection has been approved and has given the right reply. -/
theorem GateInv.passed
    {c : ConnId} {conn : Connection MessageType}
    (h : GateInv s)
    (hval : c ∈ s.validated)
    (hconn : s.connections[c]? = some conn) :
    c ∈ s.deqConnections ∧ Connection.Passed conn := by
  cases (h.gates c conn hconn).2 with
  | awaiting _ hnot _ _ _ => exact absurd hval hnot
  | shut hnot _ _ _ => exact absurd hval hnot
  | passed happroved _ hpassed => exact ⟨happroved, hpassed⟩

theorem GateInv.exists_passed
    {c : ConnId}
    (h : GateInv s)
    (hval : c ∈ s.validated) :
    ∃ conn, s.connections[c]? = some conn ∧ c ∈ s.deqConnections ∧
      Connection.Passed conn := by
  have hconn := List.getElem?_eq_getElem (h.known c hval)
  exact ⟨_, hconn, h.passed hval hconn⟩

/-- While `on_client_validated` runs, its client is approved. -/
theorem GateInv.handler_approved
    {hd : Handler}
    (h : GateInv s)
    (hh : s.handler = some hd) :
    hd.client ∈ s.deqConnections := by
  obtain ⟨conn, _, happroved, _⟩ := h.exists_passed (h.served hd hh)
  exact happroved

end Passing

section StepLemma

variable {s s' : Server}

/-- A handler of a connection leaves the other gates alone. -/
theorem gateInv_afterIo
    {c : ConnId} {conn conn' : Connection MessageType}
    {u : Upcall MessageType}
    (h : GateInv s)
    (hconn : s.connections[c]? = some conn)
    (hgate :
      Connection.GateStep IsPublic (c ∈ s.deqConnections) (c ∈ s.validated)
        conn' u) :
    GateInv (s.afterIo c conn' u) := by
  have hc : c < s.connections.length :=
    (List.getElem?_eq_some_iff.mp hconn).1
  have hlen :
      (s.afterIo c conn' u).connections.length = s.connections.length := by
    rw [afterIo_connections, List.length_set]
  have happ :
      ∀ i ∈ (s.afterIo c conn' u).deqConnections,
        i < (s.afterIo c conn' u).connections.length := by
    rw [afterIo_deqConnections, hlen]
    exact h.approved
  have hknown :
      ∀ i ∈ s.validated, i < (s.afterIo c conn' u).connections.length := by
    rw [hlen]
    exact h.known
  obtain ⟨hside, ⟨rfl, happroved, hnot, hpassed⟩ | ⟨hu, hstate, hheard⟩⟩ :=
    hgate
  · -- the connection is validated now
    have hgates :
        Every (s.afterIo c conn' .validated).Gated
          (s.connections.set c conn') := by
      intro i conni hi
      rw [List.getElem?_set] at hi
      split at hi
      · next hci =>
        subst i
        obtain rfl := Option.some.inj hi
        have hval : c ∈ s.validated ++ [c] := by simp
        exact ⟨hside, .passed happroved hval hpassed⟩
      · next hci =>
        refine (h.gates i conni hi).congr Iff.rfl ?_
        show i ∈ s.validated ↔ i ∈ s.validated ++ [c]
        simp [Ne.symm hci]
    have hsub : ∀ i ∈ s.validated, i ∈ s.validated ++ [c] :=
      fun i hi => List.mem_append_left _ hi
    refine ⟨hgates, fun p hp => hsub _ (h.heard p hp), ?_, ?_, ?_, happ⟩
    · intro hd hhd
      cases hhd
      exact List.mem_append_right _ (List.mem_singleton.mpr rfl)
    · refine List.nodup_append.mpr ⟨h.once, by simp, ?_⟩
      intro a ha b hb hab
      obtain rfl := List.mem_singleton.mp hb
      exact hnot (hab ▸ ha)
    · intro i hi
      rcases List.mem_append.mp hi with hi | hi
      · exact hknown i hi
      · obtain rfl := List.mem_singleton.mp hi
        rw [hlen]
        exact hc
  · -- every gate is as it was
    have hgates : Every s.Gated (s.connections.set c conn') :=
      h.gates.set fun _ => ⟨hside, hstate⟩
    cases u with
    | none => exact ⟨hgates, h.heard, h.served, h.once, hknown, happ⟩
    | incoming msg =>
        refine ⟨hgates, ?_, h.served, h.once, hknown, happ⟩
        intro p hp
        rcases List.mem_append.mp hp with hp | hp
        · exact h.heard p hp
        · obtain rfl := List.mem_singleton.mp hp
          exact hheard msg rfl
    | validated => exact absurd rfl hu

/-- What `on_client_validated` does to a connection that has passed. -/
theorem GateInv.touch
    {c : ConnId}
    {f : Connection MessageType → Connection MessageType}
    (h : GateInv s)
    (hval : c ∈ s.validated)
    (hf :
      ∀ conn, Connection.ServerSide conn → Connection.Passed conn →
        Connection.ServerSide (f conn) ∧ Connection.Passed (f conn))
    (hconn : s'.connections = s.connections.modify c f)
    (hworld : SameWorld s s')
    (hh : ∀ h', s'.handler = some h' → h'.client = c) :
    GateInv s' := by
  have hlen : s'.connections.length = s.connections.length := by
    rw [hconn, List.length_modify]
  refine ⟨?_, ?_, ?_, ?_, ?_, ?_⟩
  · have hgates : Every s.Gated s'.connections := by
      rw [hconn]
      refine h.gates.modify ?_
      intro conn hc hgated
      obtain ⟨happroved, hpassed⟩ := h.passed hval hc
      obtain ⟨hside, hpassed'⟩ := hf conn hgated.1 hpassed
      exact ⟨hside, .passed happroved hval hpassed'⟩
    refine hgates.mono ?_
    intro i conn _ hgated
    refine hgated.congr ?_ ?_
    · rw [hworld.deqConnections]
    · rw [hworld.validated]
  · rw [hworld.qMessagesIn, hworld.validated]
    exact h.heard
  · intro h' hh'
    rw [hworld.validated, hh h' hh']
    exact hval
  · rw [hworld.validated]
    exact h.once
  · rw [hworld.validated, hlen]
    exact h.known
  · rw [hworld.deqConnections, hlen]
    exact h.approved

/-- Sending to a connection that has passed. -/
theorem passed_send (msg : Message MessageType) :
    ∀ conn, Connection.ServerSide conn → Connection.Passed conn →
      Connection.ServerSide (conn.send msg) ∧
        Connection.Passed (conn.send msg) := by
  intro conn hside hpassed
  exact ⟨⟨hside.owner, hside.connecting, hside.check⟩,
    ⟨hpassed.frames, hpassed.reply⟩⟩

/-- Going on with `mf_read_header`. -/
theorem passed_mfReadHeader :
    ∀ conn : Connection MessageType,
      Connection.ServerSide conn → Connection.Passed conn →
        Connection.ServerSide conn.mfReadHeader ∧
          Connection.Passed conn.mfReadHeader := by
  intro conn hside hpassed
  refine ⟨⟨hside.owner, hside.connecting, hside.check⟩, ?_, hpassed.reply⟩
  intro r hr
  rcases List.mem_append.mp hr with hr | hr
  · exact hpassed.frames r hr
  · obtain rfl := List.mem_singleton.mp hr
    simp

/-- A step of `on_client_validated` keeps the gates. -/
theorem handlerStep_gateInv
    {hd : Handler} {e : HandlerEvent}
    (h : GateInv s)
    (hh : s.handler = some hd)
    (hstep : HandlerStep s hd e s') :
    GateInv s' := by
  have hval : hd.client ∈ s.validated := h.served hd hh
  have hworld := hstep.sameWorld
  have hclient := hstep.handler hh
  have hserved : ∀ h', s'.handler = some h' → h'.client ∈ s.validated := by
    intro h' hh'
    rw [hclient h' hh']
    exact hval
  have hq : ∀ p ∈ s'.qMessagesIn, p ∈ s.qMessagesIn := by
    rw [hworld.qMessagesIn]
    exact fun p hp => hp
  rcases hstep.connections with hsame | ⟨f, hconn, msg, rfl | rfl⟩
  · exact h.congr hsame hworld.deqConnections hworld.validated hq hserved
  · exact h.touch hval (passed_send msg) hconn hworld hclient
  · refine h.touch hval ?_ hconn hworld hclient
    intro conn hside hpassed
    obtain ⟨hside', hpassed'⟩ := passed_send msg conn hside hpassed
    exact passed_mfReadHeader _ hside' hpassed'

/-- A new connection is approved or shut, the others stay as they are. -/
theorem GateInv.connect
    {conn : Connection MessageType}
    (h : GateInv s)
    (hconn : s'.connections = s.connections ++ [conn])
    (hgated : s'.Gated s.connections.length conn)
    (hdeq :
      ∀ c, c ∈ s'.deqConnections →
        c ∈ s.deqConnections ∨ c = s.connections.length)
    (hsub : ∀ c ∈ s.deqConnections, c ∈ s'.deqConnections)
    (hval : s'.validated = s.validated)
    (hq : s'.qMessagesIn = s.qMessagesIn)
    (hidle : s'.handler = none) :
    GateInv s' := by
  refine ⟨?_, ?_, ?_, ?_, ?_, ?_⟩
  · rw [hconn]
    refine Every.concat ?_ hgated
    intro i conni hi
    have hlt : i < s.connections.length :=
      (List.getElem?_eq_some_iff.mp hi).1
    refine (h.gates i conni hi).congr ⟨hsub i, ?_⟩ (by rw [hval])
    intro hi'
    rcases hdeq i hi' with hi' | rfl
    · exact hi'
    · exact absurd hlt (Nat.lt_irrefl _)
  · rw [hq, hval]
    exact h.heard
  · intro h' hh'
    rw [hidle] at hh'
    cases hh'
  · rw [hval]
    exact h.once
  · intro c hc
    rw [hval] at hc
    rw [hconn, List.length_append, List.length_singleton]
    exact Nat.lt_succ_of_lt (h.known c hc)
  · intro c hc
    rw [hconn, List.length_append, List.length_singleton]
    rcases hdeq c hc with hc | rfl
    · exact Nat.lt_succ_of_lt (h.approved c hc)
    · exact Nat.lt_succ_self _

/-- Every step of the server keeps every gate. -/
theorem step_gateInv
    (s : Server) (e : ServerEvent) (s' : Server)
    (h : GateInv s)
    (hstep : s.step e = some s') :
    GateInv s' := by
  have hnew : s.connections.length ∉ s.validated := by
    intro hmem
    exact absurd (h.known _ hmem) (Nat.lt_irrefl _)
  have hsame : ∀ p ∈ s.qMessagesIn, p ∈ s.qMessagesIn := fun p hp => hp
  cases step_cases hstep with
  | startServer => exact h.congr rfl rfl rfl hsame h.served
  | startEnvironment => exact h.congr rfl rfl rfl hsame h.served
  | environment => exact h.congr rfl rfl rfl hsame h.served
  | fault => exact h.congr rfl rfl rfl hsame h.served
  | @approve now hidle hroom =>
      refine h.connect rfl ⟨⟨rfl, rfl, rfl⟩, ?_⟩ ?_ ?_ rfl rfl hidle
      · have happroved :
            s.connections.length ∈
              s.deqConnections ++ [s.connections.length] := by
          simp
        have hpublic : IsPublic acceptMessage := rfl
        exact Connection.gateState_acceptConnection happroved hnew hpublic
          _ _
      · intro c hc
        rcases List.mem_append.mp hc with hc | hc
        · exact Or.inl hc
        · exact Or.inr (List.mem_singleton.mp hc)
      · exact fun c hc => List.mem_append_left _ hc
  | @refuse now hidle hfull =>
      refine h.connect rfl ⟨⟨rfl, rfl, rfl⟩, ?_⟩ ?_ ?_ rfl rfl hidle
      · have hpublic : IsPublic denialMessage := rfl
        exact Connection.gateState_refused hnew hpublic now
      · exact fun c hc => Or.inl hc
      · exact fun c hc => hc
  | acceptFailed => exact h
  | io hidle hconn hio =>
      obtain ⟨hside, hstate⟩ := h.gates _ _ hconn
      exact gateInv_afterIo h hconn (Connection.ioStep_gate hio hside hstate)
  | handler hh hhandler => exact handlerStep_gateInv h hh hhandler
  | @update p rest hq =>
      refine h.congr rfl rfl rfl ?_ h.served
      intro p' hp'
      rw [hq]
      exact List.mem_cons_of_mem p hp'

end StepLemma

section Runs

/-- A new server has no connections. -/
theorem gateInv_of_make
    {nmapSize : UInt64} {s : Server}
    (h : make nmapSize = .ok s) :
    GateInv s := by
  obtain ⟨environment, _, rfl⟩ := exists_of_make h
  refine ⟨every_nil, ?_, ?_, List.nodup_nil, ?_, ?_⟩
  · exact fun p hp => by cases hp
  · exact fun hd hhd => by cases hhd
  · exact fun c hc => by cases hc
  · exact fun c hc => by cases hc

/-- Every reachable server keeps its connections behind their gates. -/
theorem reachable_gateInv
    {nmapSize : UInt64} {s₀ s : Server}
    (hmake : make nmapSize = .ok s₀)
    (hreach : Reachable step s₀ s) :
    GateInv s :=
  reachable_invariant step_gateInv (gateInv_of_make hmake) hreach

/-- Whoever is sent data of a map has given the right reply. -/
theorem GateInv.replyCorrect_of_mapData
    {s : Server} {c : ConnId} {conn : Connection MessageType}
    {msg : Message MessageType}
    (h : GateInv s)
    (hconn : s.connections[c]? = some conn)
    (hmsg : msg ∈ conn.posted ++ conn.ran)
    (hdata : msg.header.id.isMapData = true) :
    conn.ReplyCorrect := by
  have hclosed :
      Connection.Untouched IsPublic conn → conn.ReplyCorrect := by
    intro huntouched
    have hpublic : msg.header.id.isMapData = false :=
      huntouched.messages msg hmsg
    rw [hpublic] at hdata
    cases hdata
  cases (h.gates c conn hconn).2 with
  | awaiting _ _ _ _ huntouched => exact hclosed huntouched
  | shut _ _ _ huntouched => exact hclosed huntouched
  | passed _ _ hpassed => exact hpassed.reply

/-- A complete reply that is wrong turns the connection away. -/
theorem GateInv.turnedAway
    {s : Server} {c : ConnId} {conn : Connection MessageType}
    (h : GateInv s)
    (hconn : s.connections[c]? = some conn)
    (hlen : byteSize UInt64 ≤ conn.received.length)
    (hwrong : ¬ conn.ReplyCorrect) :
    conn.TurnedAway := by
  obtain ⟨hside, hstate⟩ := h.gates c conn hconn
  cases hstate with
  | awaiting _ _ hreads hle huntouched =>
      have hfull := Nat.le_antisymm hle hlen
      exact ⟨huntouched.delivered, huntouched.temp,
        Or.inr
          ⟨hreads,
            Connection.closed_of_wrong_reply hside hreads hfull hwrong⟩⟩
  | shut _ hreads hclosed huntouched =>
      exact ⟨huntouched.delivered, huntouched.temp,
        Or.inl ⟨hreads, hclosed⟩⟩
  | passed _ _ hpassed => exact absurd hpassed.reply hwrong

/-- In every reachable state, a connection has given the right reply if a
message from it is in `m_qMessagesIn` or if data of a map was sent to it; no
connection was validated twice; and a connection whose first bytes are a wrong
reply is turned away. -/
theorem validation_gate
    {nmapSize : UInt64} {s₀ s : Server}
    (hmake : make nmapSize = .ok s₀)
    (hreach : Reachable step s₀ s) :
    (∀ (c : ConnId) (msg : Message MessageType), (c, msg) ∈ s.qMessagesIn →
      ∃ conn, s.connections[c]? = some conn ∧ conn.ReplyCorrect) ∧
    (∀ (c : ConnId) (conn : Connection MessageType),
      s.connections[c]? = some conn →
      ∀ msg ∈ conn.posted ++ conn.ran,
        msg.header.id.isMapData = true → conn.ReplyCorrect) ∧
    s.validated.Nodup ∧
    (∀ (c : ConnId) (conn : Connection MessageType),
      s.connections[c]? = some conn →
      byteSize UInt64 ≤ conn.received.length → ¬ conn.ReplyCorrect →
        conn.TurnedAway) := by
  have h := reachable_gateInv hmake hreach
  refine ⟨?_, ?_, h.once, ?_⟩
  · intro c msg hmsg
    obtain ⟨conn, hconn, _, hpassed⟩ := h.exists_passed (h.heard _ hmsg)
    exact ⟨conn, hconn, hpassed.reply⟩
  · intro c conn hconn msg hmsg hdata
    exact h.replyCorrect_of_mapData hconn hmsg hdata
  · intro c conn hconn hlen hwrong
    exact h.turnedAway hconn hlen hwrong

/-- Two clients are approved and both answer; one reply is right. -/
theorem validation_gate_two_replies :
    ∃ s₀ s, make 2 = .ok s₀ ∧
      run step s₀
          [.startServer, .accept 1, .accept 2,
            .io 0 (.recv 0 (toBytes (mfScramble 1))),
            .io 1 (.recv 0 (toBytes (0 : UInt64))),
            .io 0 (.readDone 0)] = some s ∧
      s.validated = [0] ∧ s.validated.Nodup ∧
      ∃ conn, s.connections[1]? = some conn ∧ conn.TurnedAway := by
  refine ⟨_, _, rfl, rfl, rfl, ?_⟩
  have h :=
    @validation_gate 2 _ _ rfl
      ⟨[.startServer, .accept 1, .accept 2,
          .io 0 (.recv 0 (toBytes (mfScramble 1))),
          .io 1 (.recv 0 (toBytes (0 : UInt64))),
          .io 0 (.readDone 0)], rfl⟩
  have hturned := h.2.2.2 1 _ rfl (by decide) (by decide)
  exact ⟨h.2.2.1, _, rfl, hturned⟩

end Runs

end Server

end SpeciesSimulator
