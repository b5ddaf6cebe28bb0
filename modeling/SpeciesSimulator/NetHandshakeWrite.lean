import SpeciesSimulator.NetWire

/-!
# The challenge and the first message on one socket

The accept handler of the server lets `on_client_connect` send a message and
then starts the write of the challenge.  The message is only posted, but the
handler that queues it looks at `m_qMessagesOut` alone: if it runs while the
challenge is still being written, it starts a second write on the same socket.

A connection that is spared this is in one of two phases:

* challenge: the challenge is the only outstanding write and nothing has been
  queued yet;
* frames: the challenge is over, every outstanding write is a message write,
  and what was written is the challenge followed by the bytes handed over.

Main fact: `one_write_iff`, at most one write is outstanding and the stream is
the challenge followed by frames, in every state of a run, exactly when no
handler of `send` runs while the challenge is being written.
-/

namespace SpeciesSimulator

open ByteLayout Transition Message

universe u

namespace Connection

variable {T : Type u}

section Accept

variable [Inhabited T]

/-- The connection that the accept handler leaves behind when it approves a
client: `on_client_connect` has sent `greeting`, `connect_to_client` has
started the handshake. -/
def acceptConnection
    (greeting : Message T) (now : UInt64) (uid : UInt32) : Connection T :=
  ((make .server now true).send greeting).connectToClient uid

end Accept

/-- The challenge is still being written. -/
def WritingChallenge (c : Connection T) : Prop :=
  ∃ w ∈ c.writes, w.isMessage = false

/-- No handler of `send` runs while the challenge is being written. -/
def SendsWait (c : Connection T) (e : ConnEvent T) : Prop :=
  ∀ i msg, e = .io (.runSend i) → c.posted[i]? = some msg →
    ¬ c.WritingChallenge

/-- At most one outstanding write, and a stream of the challenge followed by
frames. -/
def OrderlyStream [Layout (MessageHeader T)]
    (challenge : UInt64) (c : Connection T) : Prop :=
  c.writes.length ≤ 1 ∧
    c.wire <+: toBytes challenge ++ frames c.ran

section Phases

variable [Layout (MessageHeader T)]
variable {challenge : UInt64}

omit [Layout (MessageHeader T)] in
/-- The challenge is over: only message writes are outstanding, and the stream
is the challenge followed by what was handed over; a failed write leaves a gap
only after the socket was closed. -/
structure AfterChallenge (challenge : UInt64) (c : Connection T) : Prop where
  messages : OnlyMessages c
  opened : c.isOpen = true → Intact (toBytes challenge) c
  stream : c.wire <+: toBytes challenge ++ c.handed

/-- The two phases of a connection whose writes take turns. -/
inductive TakingTurns (challenge : UInt64) (c : Connection T) : Prop
  | challenge (left : List UInt8)
      (hw : c.writes = [⟨.validation, left⟩])
      (hq : c.qMessagesOut = [])
      (hran : c.ran = [])
      (hh : c.handed = [])
      (hfront : c.emptyFront = false)
      (hwire : c.wire ++ left = toBytes challenge)
  | afterChallenge
      (hafter : AfterChallenge challenge c)
      (hchain : SendInv c ∨ Stuck c)

/-- A server connection whose writes take turns. -/
structure TurnInv (challenge : UInt64) (c : Connection T) : Prop where
  turns : TakingTurns challenge c
  owner : c.nowner = .server
  connecting : c.connecting = false

omit [Layout (MessageHeader T)] in
theorem AfterChallenge.congr
    {c c' : Connection T}
    (h : AfterChallenge challenge c)
    (hs : SameOutput c c') :
    AfterChallenge challenge c' where
  messages := h.messages.congr hs
  opened := fun hopen => (h.opened (hs.isOpen hopen)).congr hs
  stream := by
    rw [hs.wire, hs.handed]
    exact h.stream

omit [Layout (MessageHeader T)] in
theorem AfterChallenge.hands
    {c c' : Connection T}
    (h : AfterChallenge challenge c)
    (hs : Hands c c') :
    AfterChallenge challenge c' := by
  obtain ⟨ws, _, _, hhanded⟩ := hs.started
  refine ⟨h.messages.hands hs, ?_, ?_⟩
  · intro hopen
    rw [hs.isOpen] at hopen
    exact (h.opened hopen).hands hs
  · rw [hs.wire, hhanded, ← List.append_assoc]
    exact h.stream.trans (List.prefix_append _ _)

omit [Layout (MessageHeader T)] in
theorem AfterChallenge.transfer
    {c : Connection T} {i n : Nat} {w : PendingWrite}
    (h : AfterChallenge challenge c)
    (hlen : c.writes.length ≤ 1)
    (hw : c.writes[i]? = some w)
    (hopen : c.isOpen = true) :
    AfterChallenge challenge
      { c with
        writes := c.writes.set i { w with left := w.left.drop n }
        wire := c.wire ++ w.left.take n } := by
  have hintact := (h.opened hopen).transfer hlen hw n
  exact ⟨h.messages.transfer hw, fun _ => hintact, ⟨_, hintact⟩⟩

/-- The challenge is through, nothing has been handed over yet. -/
theorem takingTurns_of_idle
    {c : Connection T}
    (hw : c.writes = [])
    (hq : c.qMessagesOut = [])
    (hran : c.ran = [])
    (hh : c.handed = [])
    (hfront : c.emptyFront = false)
    (hwire : c.wire <+: toBytes challenge)
    (hopen : c.isOpen = true → c.wire = toBytes challenge) :
    TakingTurns challenge c := by
  refine .afterChallenge ⟨?_, ?_, ?_⟩ (Or.inl ⟨.idle hq ?_ ?_, hfront⟩)
  · simp [OnlyMessages, hw]
  · intro h
    simp [Intact, unsent, hw, hh, hopen h]
  · simpa [hh] using hwire
  · simp [messageWrites, hw]
  · simp [hh, hran]

theorem TakingTurns.congr
    {c c' : Connection T}
    (h : TakingTurns challenge c)
    (hs : SameOutput c c') :
    TakingTurns challenge c' := by
  cases h with
  | challenge left hw hq hran hh hfront hwire =>
      refine .challenge left (hs.writes.trans hw) (hs.queue.trans hq)
        (hs.ran.trans hran) (hs.handed.trans hh) (hs.front.trans hfront) ?_
      rw [hs.wire, hwire]
  | afterChallenge hafter hchain =>
      refine .afterChallenge (hafter.congr hs) ?_
      rcases hchain with hchain | hchain
      · exact Or.inl (hchain.congr hs.sameWriter)
      · exact Or.inr (hchain.congr hs.sameWriter)

theorem TurnInv.congr
    {c c' : Connection T}
    (h : TurnInv challenge c)
    (hs : SameOutput c c') :
    TurnInv challenge c' where
  turns := h.turns.congr hs
  owner := hs.owner.trans h.owner
  connecting := hs.connecting.trans h.connecting

/-- Taking turns makes an orderly stream. -/
theorem TakingTurns.orderlyStream
    {c : Connection T}
    (h : TakingTurns challenge c) :
    OrderlyStream challenge c := by
  cases h with
  | challenge left hw hq hran hh hfront hwire =>
      refine ⟨by simp [hw], ?_⟩
      rw [← hwire, List.append_assoc]
      exact List.prefix_append _ _
  | afterChallenge hafter hchain =>
      have hhanded : c.handed <+: frames c.ran := by
        rcases hchain with hchain | hchain
        · exact hchain.handed_prefix
        · exact hchain.handed
      refine ⟨hafter.messages.writes_length hchain, hafter.stream.trans ?_⟩
      exact List.prefix_append_right_inj _ |>.mpr hhanded

end Phases

section StepLemma

variable [Layout (MessageHeader T)]
variable {challenge : UInt64}

/-- Completion of the only outstanding write. -/
theorem turnInv_writeDone
    {c : Connection T} {i : Nat} {w : PendingWrite}
    (h : TurnInv challenge c)
    (hw : c.writes[i]? = some w)
    (hleft : w.left = []) :
    TurnInv challenge ((c.dropWrite i).onWrite w) := by
  cases h.turns with
  | challenge left hone hq hran hh hfront hwire =>
      obtain ⟨rfl, herase, _⟩ := ListSlots.only_item hw hone
      have hnil : left = [] := hleft
      subst hnil
      rw [List.append_nil] at hwire
      have howner : (c.dropWrite i).nowner = .server := h.owner
      rw [onWrite_validation_of_server howner rfl]
      refine ⟨?_, h.owner, h.connecting⟩
      refine takingTurns_of_idle herase hq hran hh hfront ?_ ?_
      · show c.wire <+: _
        rw [hwire]
      · intro _
        exact hwire
  | afterChallenge hafter hchain =>
      have hm := hafter.messages w (List.mem_of_getElem? hw)
      have hlen := hafter.messages.writes_length hchain
      have hdrop : AfterChallenge challenge (c.dropWrite i) :=
        ⟨hafter.messages.dropWrite i,
          fun hopen => (hafter.opened hopen).dropWrite hlen hw hleft,
          hafter.stream⟩
      have hands := hands_onWrite (c.dropWrite i) hm
      refine
        ⟨.afterChallenge (hdrop.hands hands) ?_,
          hands.owner.trans h.owner, hands.connecting.trans h.connecting⟩
      exact ioStep_chain (.writeDone hw hleft) hchain

/-- Failure of the only outstanding write. -/
theorem turnInv_writeFail
    {c : Connection T} {i : Nat} {w : PendingWrite}
    (h : TurnInv challenge c)
    (hw : c.writes[i]? = some w) :
    TurnInv challenge ((c.dropWrite i).close) := by
  refine ⟨?_, h.owner, h.connecting⟩
  cases h.turns with
  | challenge left hone hq hran hh hfront hwire =>
      obtain ⟨_, herase, _⟩ := ListSlots.only_item hw hone
      refine takingTurns_of_idle herase hq hran hh hfront ⟨left, hwire⟩ ?_
      intro hopen
      simp [close] at hopen
  | afterChallenge hafter hchain =>
      have hdrop : AfterChallenge challenge ((c.dropWrite i).close) :=
        ⟨hafter.messages.dropWrite i,
          fun hopen => by simp [close] at hopen,
          hafter.stream⟩
      exact .afterChallenge hdrop (ioStep_chain (.writeFail hw) hchain)

/-- A handler keeps the writes taking turns, unless it is a handler of `send`
that runs while the challenge is being written. -/
theorem ioStep_turnInv
    {c c' : Connection T} {e : IoEvent} {u : Upcall T}
    (hstep : IoStep c e c' u)
    (h : TurnInv challenge c)
    (hwait : ∀ i, e = .runSend i → ¬ c.WritingChallenge) :
    TurnInv challenge c' := by
  cases hstep with
  | @runSend i msg hmsg =>
      cases h.turns with
      | challenge left hone hq hran hh hfront hwire =>
          have hwriting : c.WritingChallenge :=
            ⟨⟨.validation, left⟩, by simp [hone], rfl⟩
          exact absurd hwriting (hwait i rfl)
      | afterChallenge hafter hchain =>
          have hposted : SameOutput c (c.dropPosted i) :=
            (.update id)
          have hands := hands_onSend (c.dropPosted i) msg
          refine
            ⟨.afterChallenge ((hafter.congr hposted).hands hands) ?_,
              hands.owner.trans h.owner,
              hands.connecting.trans h.connecting⟩
          exact ioStep_chain (.runSend hmsg) hchain
  | runClose hclosing =>
      exact h.congr
        (.update (by simp))
  | connected hconn =>
      rw [h.connecting] at hconn
      cases hconn
  | connectFailed hconn =>
      rw [h.connecting] at hconn
      cases hconn
  | recv hr hopen hwant =>
      exact h.congr (.update id)
  | @readDone i r c' u hr hfull hon =>
      have h₀ : TurnInv challenge (c.dropRead i) :=
        h.congr (.update id)
      exact h₀.congr (sameOutput_onRead (Or.inl h₀.owner) hon)
  | readFail hr =>
      exact h.congr
        (.update (by simp))
  | @transfer i n w hw hopen hleft =>
      refine ⟨?_, h.owner, h.connecting⟩
      cases h.turns with
      | challenge left hone hq hran hh hfront hwire =>
          obtain ⟨rfl, _, hset⟩ := ListSlots.only_item hw hone
          refine .challenge _ (hset _) hq hran hh hfront ?_
          rw [← hwire, List.append_assoc, List.take_append_drop]
      | afterChallenge hafter hchain =>
          have hlen := hafter.messages.writes_length hchain
          refine .afterChallenge (hafter.transfer hlen hw hopen) ?_
          exact ioStep_chain (.transfer hw hopen hleft) hchain
  | writeDone hw hleft =>
      exact turnInv_writeDone h hw hleft
  | writeFail hw =>
      exact turnInv_writeFail h hw

/-- One step keeps the writes taking turns when sends wait. -/
theorem step_turnInv
    (c : Connection T) (e : ConnEvent T) (c' : Connection T)
    (h : TurnInv challenge c)
    (hwait : SendsWait c e)
    (hstep : c.step e = some c') :
    TurnInv challenge c' := by
  rcases step_cases hstep with
    ⟨msg, _, rfl⟩ | ⟨_, rfl⟩ | ⟨e₀, u, c₀, rfl, hio, hc'⟩
  · exact h.congr (.update id)
  · rw [disconnect_eq]
    exact h.congr (.update id)
  · have h₀ : TurnInv challenge c₀ := by
      refine ioStep_turnInv hio h ?_
      rintro i rfl
      cases hio with
      | runSend hmsg => exact hwait i _ rfl hmsg
    rcases hc' with rfl | ⟨_, rfl⟩
    · exact h₀
    · exact h₀.congr (.update id)

/-- A handler of `send` that does not wait starts a second write. -/
theorem second_write_of_not_sendsWait
    (c : Connection T) (e : ConnEvent T)
    (h : TurnInv challenge c)
    (hwait : ¬ SendsWait c e) :
    ∃ c', c.step e = some c' ∧ ¬ OrderlyStream challenge c' := by
  unfold SendsWait at hwait
  push Not at hwait
  obtain ⟨i, msg, rfl, hmsg, w, hw, hm⟩ := hwait
  cases h.turns with
  | challenge left hone hq hran hh hfront hwire =>
      have hstep :
          c.step (.io (.runSend i)) =
            some ((c.dropPosted i).onSend msg) := by
        simp [step, ioStep, hmsg]
      refine ⟨_, hstep, ?_⟩
      have hq' : (c.dropPosted i).qMessagesOut = [] := hq
      rw [onSend_of_empty hq']
      rintro ⟨hlen, _⟩
      simp [mfWriteHeader, asyncWrite, dropPosted, hone] at hlen
  | afterChallenge hafter hchain =>
      rw [hafter.messages w hw] at hm
      cases hm

end StepLemma

section Runs

variable [Inhabited T] [Layout (MessageHeader T)]

theorem turnInv_acceptConnection
    (greeting : Message T) (now : UInt64) (uid : UInt32) :
    TurnInv now (acceptConnection greeting now uid) := by
  refine ⟨.challenge (toBytes now) ?_ rfl rfl rfl rfl ?_, rfl, rfl⟩
  · rfl
  · rfl

/-- In a run of a server connection from the accept handler on, at most one
write is outstanding in every state and the stream is the challenge followed
by frames, if and only if no handler of `send` runs while the challenge is
being written. -/
theorem one_write_iff
    (greeting : Message T) (now : UInt64) (uid : UInt32)
    (es : List (ConnEvent T)) :
    Always step (OrderlyStream now)
        (acceptConnection greeting now uid) es
      ↔
    Meets step SendsWait (acceptConnection greeting now uid) es := by
  have h₀ := turnInv_acceptConnection greeting now uid
  constructor
  · exact meets_of_always step_turnInv second_write_of_not_sendsWait h₀
  · exact always_of_invariant step_turnInv
      (fun c h => h.turns.orderlyStream) h₀

end Runs

/-- The handler that queues the first message runs at once: two writes are
outstanding, and the message's header ends up inside the challenge. -/
theorem one_write_fails_for_greeting :
    ∃ c : Connection MessageType,
      run step
          (acceptConnection (Message.fresh.setId .serverAccept) 1 10000)
          [.io (.runSend 0), .io (.transfer 0 4), .io (.transfer 1 8),
            .io (.transfer 0 4)] = some c ∧
        c.writes.length = 2 ∧
        ¬ c.wire <+: toBytes (1 : UInt64) ++ frames c.ran := by
  refine ⟨_, rfl, rfl, ?_⟩
  decide

end Connection

end SpeciesSimulator
