import SpeciesSimulator.Lib.Duplex
import SpeciesSimulator.NetClientEnd

/-!
# A server's and a client's connection

The two ends of one socket: the connection that the accept handler of the
server has approved and the connection of the client that called
`connect_to_server`.  What one end transfers reaches the other in order, at
any time and in any pieces; handlers run in any order on both sides, and reads
and writes may fail.

On either side the messages have to wait for the handshake: no byte of a
server's message is transferred before the challenge, and no handler of `send`
of the client runs before its reply is written.  A run in which this is so, and
in which the client does not fail to connect, is orderly.

Main facts:
* `link_delivers`: each end delivers a beginning of what the messages of the
  other one, in the order of their handlers, deliver;
* `link_validates`: a complete reply is always found to be right.
-/

namespace SpeciesSimulator

open ByteLayout Transition Message

universe u

namespace Connection

variable {T : Type u} [Layout (MessageHeader T)]

section Logs

variable {c c' : Connection T} {e : IoEvent} {u : Upcall T}

/-- A handler that reads or writes hands bytes over, but transfers none. -/
theorem onRead_wire
    {r : PendingRead}
    (hon : c.onRead r = (c', u)) :
    c'.wire = c.wire := by
  cases onRead_cases hon with
  | validated => rfl
  | refused => rfl
  | reply => rfl
  | header => rfl
  | noBody => rfl
  | body => rfl

theorem onWrite_wire (c : Connection T) (w : PendingWrite) :
    (c.onWrite w).wire = c.wire := by
  cases hm : w.isMessage with
  | true => exact (hands_onWrite c hm).wire
  | false =>
      have hp : w.payload = .validation := by
        simpa [PendingWrite.isMessage] using hm
      simp only [onWrite, hp, onWriteValidation]
      split
      · rfl
      · rfl

/-- Bytes that went over the wire do not come back. -/
theorem ioStep_wire
    (hio : IoStep c e c' u) :
    c.wire <+: c'.wire := by
  cases hio with
  | @runSend i msg hmsg =>
      rw [(hands_onSend (c.dropPosted i) msg).wire]
      exact List.prefix_rfl
  | runClose => exact List.prefix_rfl
  | connected => exact List.prefix_rfl
  | connectFailed => exact List.prefix_rfl
  | recv => exact List.prefix_rfl
  | readDone hr hfull hon =>
      rw [onRead_wire hon]
      exact List.prefix_rfl
  | readFail => exact List.prefix_rfl
  | transfer => exact List.prefix_append _ _
  | writeDone hw hleft =>
      rw [onWrite_wire]
      exact List.prefix_rfl
  | writeFail => exact List.prefix_rfl

theorem step_logs
    (c : Connection T) (e : ConnEvent T) (c' : Connection T)
    (hstep : c.step e = some c') :
    c.wire <+: c'.wire ∧ c.received <+: c'.received := by
  rcases step_cases hstep with
    ⟨msg, _, rfl⟩ | ⟨_, rfl⟩ | ⟨e₀, u, c₀, rfl, hio, hc'⟩
  · exact ⟨List.prefix_rfl, List.prefix_rfl⟩
  · rw [disconnect_eq]
    exact ⟨List.prefix_rfl, List.prefix_rfl⟩
  · have hlogs := And.intro (ioStep_wire hio) (ioStep_received hio)
    rcases hc' with rfl | ⟨_, rfl⟩
    · exact hlogs
    · exact hlogs

/-- A connection at one end of a socket. -/
def party : Duplex.Party (Connection T) (ConnEvent T) UInt8 where
  step := step
  sent := wire
  got := received
  sent_grows c e c' hstep := (step_logs c e c' hstep).1
  got_grows c e c' hstep := (step_logs c e c' hstep).2

end Logs

end Connection

/-- The server's end and the client's end of a socket. -/
abbrev Link (T : Type u) := Connection T × Connection T

/-- A step of the server's end, or of the client's end. -/
abbrev LinkEvent (T : Type u) := ConnEvent T ⊕ ConnEvent T

namespace Link

open Connection

variable {T : Type u} [Layout (MessageHeader T)]

def step : Link T → LinkEvent T → Option (Link T) :=
  Duplex.step party party

/-- Messages follow the handshake on both sides. -/
def Orderly (l : Link T) (e : LinkEvent T) : Prop :=
  Duplex.OnLeft ChallengeFirst l e ∧ Duplex.OnRight SendsFollow l e

/-- The server has approved the client, who is about to find out. -/
def accepted [Inhabited T]
    (greeting : Message T) (now : UInt64) (uid : UInt32) : Link T :=
  (acceptConnection greeting now uid, newClient)

section Ends

variable {now : UInt64} {toServer toClient : List (Message T)}
variable {l l' : Link T}

/-- The two ends of a link, as far as what is sent are beginnings of
`toServer` and `toClient`. -/
structure Ends
    (now : UInt64) (toServer toClient : List (Message T)) (l : Link T) :
    Prop where
  server : ServerEnd now toServer l.1
  client : ClientEnd now toClient l.2
  joined : Duplex.Joined party party l

/-- What one end has sent is a part of the stream that the other one is given. -/
theorem Ends.phase
    (h : Ends now toServer toClient l)
    (hsent : l.1.ran <+: toClient) :
    ClientPhase now toClient l.2 := by
  refine h.client.phase ?_
  exact (h.joined.right.trans h.server.wire_prefix_of).trans
    ((List.prefix_append_right_inj _).mpr (frames_prefix_of hsent))

theorem Ends.reading
    (h : Ends now toServer toClient l)
    (hserver : l.1.ran <+: toClient)
    (hclient : l.2.ran <+: toServer) :
    ServerReads (mfScramble now) toServer l.1 := by
  refine h.server.reading ?_
  have hwire := (h.phase hserver).wire_prefix_of h.client.unbroken
  exact (h.joined.left.trans hwire).trans
    ((List.prefix_append_right_inj _).mpr (frames_prefix_of hclient))

variable [Inhabited T]

theorem ends_accepted
    (greeting : Message T) (now : UInt64) (uid : UInt32) :
    Ends now toServer toClient (accepted greeting now uid) where
  server := serverEnd_acceptConnection greeting now uid
  client := clientEnd_newClient
  joined := ⟨List.nil_prefix, List.nil_prefix⟩

/-- An orderly run keeps both ends in place. -/
theorem run_ends
    {greeting : Message T} {uid : UInt32} {es : List (LinkEvent T)}
    (hserver : Announced toServer)
    (hclient : Announced toClient)
    (horderly : Meets step Orderly (accepted greeting now uid) es)
    (hrun : run step (accepted greeting now uid) es = some l) :
    Ends now toServer toClient l := by
  have h₀ : Ends now toServer toClient (accepted greeting now uid) :=
    ends_accepted greeting now uid
  obtain ⟨hfirst, hfollow⟩ := meets_and_iff.mp horderly
  exact
    { server :=
        run_invariant (step_serverEnd hserver) h₀.server
          (Duplex.meets_left hfirst hrun) (Duplex.run_left hrun)
      client :=
        run_invariant (step_clientEnd hclient) h₀.client
          (Duplex.meets_right hfollow hrun) (Duplex.run_right hrun)
      joined := Duplex.run_joined h₀.joined hrun }

/-- In every orderly run of a link, what each end has delivered is a beginning
of what the messages of the other one deliver, in the order in which their
handlers ran: no message is lost, doubled or overtaken. -/
theorem link_delivers
    (greeting : Message T) (now : UInt64) (uid : UInt32)
    {es : List (LinkEvent T)} {server client : Connection T}
    (horderly : Meets step Orderly (accepted greeting now uid) es)
    (hrun : run step (accepted greeting now uid) es = some (server, client))
    (hserver : Announced server.ran)
    (hclient : Announced client.ran) :
    client.delivered <+: deliveries [] server.ran ∧
      server.delivered <+: deliveries [] client.ran := by
  have h : Ends now client.ran server.ran (server, client) :=
    run_ends hclient hserver horderly hrun
  exact ⟨(h.phase List.prefix_rfl).delivered,
    (h.reading List.prefix_rfl List.prefix_rfl).delivered⟩

/-- In every orderly run of a link, a reply that has been read completely is
the right one: its handler validates the client, it is never turned down. -/
theorem link_validates
    (greeting : Message T) (now : UInt64) (uid : UInt32)
    {es : List (LinkEvent T)} {server client : Connection T}
    (horderly : Meets step Orderly (accepted greeting now uid) es)
    (hrun : run step (accepted greeting now uid) es = some (server, client))
    (hserver : Announced server.ran)
    (hclient : Announced client.ran)
    {i : Nat} {r : PendingRead}
    (hr : server.reads[i]? = some r)
    (hreply : r.payload = .validation)
    (hfull : r.got.length = r.want) :
    ∃ server', server.ioStep (.readDone i) = some (server', .validated) := by
  have h : Ends now client.ran server.ran (server, client) :=
    run_ends hclient hserver horderly hrun
  have hreads := h.reading List.prefix_rfl List.prefix_rfl
  have hwire := (h.phase List.prefix_rfl).wire_prefix_of h.client.unbroken
  obtain ⟨server', u, hon⟩ :
      ∃ server' u, (server.dropRead i).onRead r = (server', u) :=
    ⟨_, _, rfl⟩
  obtain ⟨_, hvalidates, _⟩ :=
    hreads.readDone hclient h.server.turn.owner h.server.check
      (h.joined.left.trans hwire) hr hfull hon
  obtain rfl := hvalidates hreply
  exact ⟨server', by simp [ioStep, hr, hfull, hon]⟩

end Ends

section Sample

/-- The handshake without interruptions. -/
def handshake (now : UInt64) : List (LinkEvent MessageType) :=
  [.inl (.io (.transfer 0 8)), .inl (.io (.writeDone 0)),
    .inr (.io .connected), .inr (.io (.recv 0 (toBytes now))),
    .inr (.io (.readDone 0)), .inr (.io (.transfer 0 8)),
    .inr (.io (.writeDone 0)),
    .inl (.io (.recv 0 (toBytes (mfScramble now)))),
    .inl (.io (.readDone 0))]

/-- The greeting goes out and is read. -/
def greet (msg : Message MessageType) : List (LinkEvent MessageType) :=
  [.inl (.io (.transfer 0 8)), .inl (.io (.writeDone 0)),
    .inr (.io (.recv 0 (toBytes msg.header))), .inr (.io (.readDone 0))]

/-- The greeting of the sample. -/
def ping : Message MessageType :=
  Message.fresh.setId .serverPing

/-- A run is orderly in which the server only goes on with its first write and
the client sends nothing. -/
theorem orderly_of_forall
    {es : List (LinkEvent MessageType)}
    (hfirst : ∀ i n, .inl (.io (.transfer i n)) ∈ es → i = 0)
    (hsend : ∀ i, .inr (.io (.runSend i)) ∉ es)
    (hconn : ∀ isOpen, .inr (.io (.connectFailed isOpen)) ∉ es)
    {now : UInt64} {l : Link MessageType}
    (h : InTurn now l.1) :
    Meets step Orderly l es := by
  have hturn (l : Link MessageType) (e : ConnEvent MessageType)
      (he : .inl e ∈ es) (h : InTurn now l.1) :
      ChallengeFirst l.1 e := by
    refine h.challengeFirst ?_
    rintro i n rfl
    exact hfirst i n he
  refine meets_of_invariant (I := fun l => InTurn now l.1) ?_ ?_ h
  · intro l e he l' h hstep
    cases Duplex.step_cases hstep with
    | inl hserver hgot => exact step_inTurn h (hturn l _ he h) hserver
    | inr hclient hgot => exact h
  · intro l e he h
    refine ⟨?_, ?_⟩
    · rintro e₀ rfl
      exact hturn l e₀ he h
    · rintro e₀ rfl
      refine ⟨?_, ?_⟩
      · rintro isOpen rfl
        exact hconn isOpen he
      · rintro i msg rfl
        exact absurd he (hsend i)

/-- The greeting is queued while the challenge is still outstanding. -/
theorem link_delivers_ping :
    ∃ server client,
      run step (accepted ping 1 10000)
          (.inl (.io (.runSend 0)) :: handshake 1 ++ greet ping) =
          some (server, client) ∧
        server.ran = [ping] ∧ client.delivered = [ping] ∧
        client.delivered <+: deliveries [] server.ran ∧
        server.delivered <+: deliveries [] client.ran := by
  have hrun :
      run step (accepted ping 1 10000)
          (.inl (.io (.runSend 0)) :: handshake 1 ++ greet ping) = some _ :=
    rfl
  refine ⟨_, _, hrun, rfl, rfl, link_delivers ping 1 10000 ?_ hrun ?_ ?_⟩
  · refine orderly_of_forall ?_ ?_ ?_ (inTurn_acceptConnection ping 1 10000)
    · simp [handshake, greet]
    · simp [handshake, greet]
    · simp [handshake, greet]
  · exact List.forall_mem_singleton.mpr rfl
  · exact List.forall_mem_nil _

/-- The reply to challenge 1 has been read. -/
theorem link_validates_reply :
    ∃ server client server',
      run step (accepted ping 1 10000) (handshake 1).dropLast =
          some (server, client) ∧
        server.ioStep (.readDone 0) = some (server', .validated) := by
  have hrun :
      run step (accepted ping 1 10000) (handshake 1).dropLast = some _ :=
    rfl
  have horderly :
      Meets step Orderly (accepted ping 1 10000) (handshake 1).dropLast := by
    refine orderly_of_forall ?_ ?_ ?_ (inTurn_acceptConnection ping 1 10000)
    · simp [handshake]
    · simp [handshake]
    · simp [handshake]
  obtain ⟨server', hserver'⟩ :=
    link_validates ping 1 10000 horderly hrun (List.forall_mem_nil _)
      (List.forall_mem_nil _) (i := 0) rfl rfl rfl
  exact ⟨_, _, server', hrun, hserver'⟩

end Sample

end Link

end SpeciesSimulator
