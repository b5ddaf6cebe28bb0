import Mathlib.Data.List.Infix
import SpeciesSimulator.Lib.ListSlots
import SpeciesSimulator.NetConnection

/-!
# The queue of outgoing messages

`send` posts a handler that queues its message and starts a chain of writes if
the queue was empty; each completion of a write goes on with the body, or with
the next message.  The chain is described by where it stands:

* idle: nothing is queued and no message write is outstanding;
* header: the header of the front message is being written;
* body: the body of the front message is being written.

In each case the bytes handed to message writes so far, followed by what the
front message and the rest of the queue still have to hand over, are the
frames of all messages in the order in which their handlers ran.  A failed
write ends the chain for good (`Stuck`): the message stays at the front of the
queue, and a later `send` only queues.

Main facts:
* `ioStep_sendInv`: a handler keeps `SendInv`, unless it is a failed write;
* `send_queue_exactly_once`: the law of the queue over whole runs.
-/

namespace SpeciesSimulator

open ByteLayout Transition

universe u

namespace Message

variable {T : Type u} [Layout (MessageHeader T)]

/-- A message on the wire. -/
def frame (msg : Message T) : List UInt8 :=
  toBytes msg.header ++ msg.body

/-- Messages on the wire, one after the other. -/
def frames (msgs : List (Message T)) : List UInt8 :=
  msgs.flatMap frame

@[simp] theorem frames_nil :
    frames ([] : List (Message T)) = [] := by
  rfl

@[simp] theorem frames_cons (msg : Message T) (msgs : List (Message T)) :
    frames (msg :: msgs) = frame msg ++ frames msgs := by
  simp [frames]

@[simp] theorem frames_append (msgs msgs' : List (Message T)) :
    frames (msgs ++ msgs') = frames msgs ++ frames msgs' := by
  simp [frames]

end Message

open Message

/-- A write of `mf_write_header` or `mf_write_body`. -/
def PendingWrite.isMessage (w : PendingWrite) : Bool :=
  w.payload != .validation

namespace Connection

variable {T : Type u}

/-- The outstanding message writes. -/
def messageWrites (c : Connection T) : List PendingWrite :=
  c.writes.filter PendingWrite.isMessage

/-- Nothing that concerns outgoing messages differs. -/
structure SameWriter (c c' : Connection T) : Prop where
  queue : c'.qMessagesOut = c.qMessagesOut
  writes : c'.messageWrites = c.messageWrites
  handed : c'.handed = c.handed
  ran : c'.ran = c.ran
  front : c'.emptyFront = c.emptyFront

theorem SameWriter.refl (c : Connection T) :
    SameWriter c c :=
  ⟨rfl, rfl, rfl, rfl, rfl⟩

/-- Only what concerns outgoing messages is kept. -/
theorem SameWriter.update
    {c : Connection T} {nowner : Owner} {isOpen connecting : Bool}
    {uid : UInt32} {nHandshakeOut nHandshakeIn nHandshakeCheck : UInt64}
    {tempMessageIn : Message T} {posted delivered : List (Message T)}
    {closing : Nat} {reads : List PendingRead} {wire received : List UInt8} :
    SameWriter c
      { c with
        nowner := nowner
        isOpen := isOpen
        uid := uid
        nHandshakeOut := nHandshakeOut
        nHandshakeIn := nHandshakeIn
        nHandshakeCheck := nHandshakeCheck
        tempMessageIn := tempMessageIn
        posted := posted
        closing := closing
        connecting := connecting
        reads := reads
        wire := wire
        received := received
        delivered := delivered } :=
  ⟨rfl, rfl, rfl, rfl, rfl⟩

theorem SameWriter.trans
    {c₁ c₂ c₃ : Connection T}
    (h₁ : SameWriter c₁ c₂)
    (h₂ : SameWriter c₂ c₃) :
    SameWriter c₁ c₃ where
  queue := h₂.queue.trans h₁.queue
  writes := h₂.writes.trans h₁.writes
  handed := h₂.handed.trans h₁.handed
  ran := h₂.ran.trans h₁.ran
  front := h₂.front.trans h₁.front

theorem sameWriter_mfWriteValidation (c : Connection T) :
    SameWriter c c.mfWriteValidation where
  queue := rfl
  writes := by
    simp [messageWrites, mfWriteValidation, asyncWrite, List.filter_append,
      PendingWrite.isMessage]
  handed := rfl
  ran := rfl
  front := rfl

theorem messageWrites_asyncWrite
    (c : Connection T) {payload : Payload} (bytes : List UInt8)
    (hp : payload ≠ .validation) :
    (c.asyncWrite payload bytes).messageWrites =
      c.messageWrites ++ [⟨payload, bytes⟩] := by
  simp [messageWrites, asyncWrite, List.filter_append,
    PendingWrite.isMessage, hp]

theorem messageWrites_ne_nil
    {c : Connection T} {i : Nat} {w : PendingWrite}
    (hw : c.writes[i]? = some w)
    (hm : w.isMessage = true) :
    c.messageWrites ≠ [] := by
  have hmem : w ∈ c.messageWrites :=
    List.mem_filter.mpr ⟨List.mem_of_getElem? hw, hm⟩
  exact List.ne_nil_of_mem hmem

section Invariant

variable [Layout (MessageHeader T)]

/-- Where the chain of message writes stands. -/
inductive WriterState (c : Connection T) : Prop
  | idle
      (hq : c.qMessagesOut = [])
      (hw : c.messageWrites = [])
      (hh : c.handed = frames c.ran)
  | header (msg : Message T) (rest : List (Message T)) (left : List UInt8)
      (hq : c.qMessagesOut = msg :: rest)
      (hw : c.messageWrites = [⟨.header, left⟩])
      (hh : c.handed ++ (msg.body ++ frames rest) = frames c.ran)
  | body (msg : Message T) (rest : List (Message T)) (left : List UInt8)
      (hq : c.qMessagesOut = msg :: rest)
      (hw : c.messageWrites = [⟨.body, left⟩])
      (hh : c.handed ++ frames rest = frames c.ran)

/-- The chain is in order and the queue was never read when empty. -/
structure SendInv (c : Connection T) : Prop where
  state : WriterState c
  front : c.emptyFront = false

/-- The chain after a failed write. -/
structure Stuck (c : Connection T) : Prop where
  queue : c.qMessagesOut ≠ []
  writes : c.messageWrites = []
  handed : c.handed <+: frames c.ran
  front : c.emptyFront = false

theorem SendInv.congr
    {c c' : Connection T}
    (h : SendInv c)
    (hs : SameWriter c c') :
    SendInv c' := by
  refine ⟨?_, hs.front.trans h.front⟩
  cases h.state with
  | idle hq hw hh =>
      refine .idle (hs.queue.trans hq) (hs.writes.trans hw) ?_
      rw [hs.handed, hs.ran, hh]
  | header msg rest left hq hw hh =>
      refine .header msg rest left (hs.queue.trans hq) (hs.writes.trans hw) ?_
      rw [hs.handed, hs.ran, hh]
  | body msg rest left hq hw hh =>
      refine .body msg rest left (hs.queue.trans hq) (hs.writes.trans hw) ?_
      rw [hs.handed, hs.ran, hh]

theorem Stuck.congr
    {c c' : Connection T}
    (h : Stuck c)
    (hs : SameWriter c c') :
    Stuck c' where
  queue := by rw [hs.queue]; exact h.queue
  writes := hs.writes.trans h.writes
  handed := by rw [hs.handed, hs.ran]; exact h.handed
  front := hs.front.trans h.front

theorem SendInv.handed_prefix
    {c : Connection T}
    (h : SendInv c) :
    c.handed <+: frames c.ran := by
  cases h.state with
  | idle hq hw hh =>
      rw [hh]
  | header msg rest left hq hw hh =>
      exact ⟨_, hh⟩
  | body msg rest left hq hw hh =>
      exact ⟨_, hh⟩

theorem SendInv.messageWrites_length
    {c : Connection T}
    (h : SendInv c) :
    c.messageWrites.length ≤ 1 := by
  cases h.state with
  | idle hq hw hh => simp [hw]
  | header msg rest left hq hw hh => simp [hw]
  | body msg rest left hq hw hh => simp [hw]

/-- A message write is outstanding exactly while something is queued. -/
theorem SendInv.messageWrites_iff
    {c : Connection T}
    (h : SendInv c) :
    c.messageWrites ≠ [] ↔ c.qMessagesOut ≠ [] := by
  cases h.state with
  | idle hq hw hh => simp [hq, hw]
  | header msg rest left hq hw hh => simp [hq, hw]
  | body msg rest left hq hw hh => simp [hq, hw]

/-- Start on the front message of a queue that is not being written. -/
theorem sendInv_mfWriteHeader
    {c : Connection T} {msg : Message T} {rest : List (Message T)}
    (hq : c.qMessagesOut = msg :: rest)
    (hw : c.messageWrites = [])
    (hh : c.handed ++ frames (msg :: rest) = frames c.ran)
    (hfront : c.emptyFront = false) :
    SendInv c.mfWriteHeader := by
  have heq :
      c.mfWriteHeader = c.asyncWrite .header (toBytes msg.header) := by
    simp [mfWriteHeader, hq]
  rw [heq]
  refine
    ⟨.header msg rest (toBytes msg.header)
      hq ?_ ?_, hfront⟩
  · rw [messageWrites_asyncWrite c _ (by decide), hw]
    rfl
  · calc
      (c.handed ++ toBytes msg.header) ++ (msg.body ++ frames rest)
          = c.handed ++ frames (msg :: rest) := by
            simp [frame, List.append_assoc]
      _ = frames c.ran := hh

/-- A handler of `send` starts the chain only on an empty queue. -/
theorem onSend_of_empty
    {c : Connection T}
    (hq : c.qMessagesOut = [])
    (msg : Message T) :
    c.onSend msg =
      ({ c with
          qMessagesOut := [msg]
          ran := c.ran ++ [msg] }).mfWriteHeader := by
  simp [onSend, hq]

theorem onSend_of_nonempty
    {c : Connection T}
    (hq : c.qMessagesOut ≠ [])
    (msg : Message T) :
    c.onSend msg =
      { c with
        qMessagesOut := c.qMessagesOut ++ [msg]
        ran := c.ran ++ [msg] } := by
  simp [onSend, hq]

/-- A posted handler of `send` keeps the chain in order. -/
theorem sendInv_onSend
    {c : Connection T}
    (h : SendInv c)
    (msg : Message T) :
    SendInv (c.onSend msg) := by
  cases h.state with
  | idle hq hw hh =>
      rw [onSend_of_empty hq]
      refine sendInv_mfWriteHeader rfl hw ?_ h.front
      simp [hh]
  | header front rest left hq hw hh =>
      rw [onSend_of_nonempty (by simp [hq])]
      refine
        ⟨.header front (rest ++ [msg]) left ?_ hw ?_, h.front⟩
      · simp [hq]
      · simp [← hh]
  | body front rest left hq hw hh =>
      rw [onSend_of_nonempty (by simp [hq])]
      refine
        ⟨.body front (rest ++ [msg]) left ?_ hw ?_, h.front⟩
      · simp [hq]
      · simp [← hh]

/-- Done with the front message. -/
theorem sendInv_popAndContinue
    {c : Connection T} {msg : Message T} {rest : List (Message T)}
    (hq : c.qMessagesOut = msg :: rest)
    (hw : c.messageWrites = [])
    (hh : c.handed ++ frames rest = frames c.ran)
    (hfront : c.emptyFront = false) :
    SendInv c.popAndContinue := by
  cases rest with
  | nil =>
      have heq : c.popAndContinue = { c with qMessagesOut := [] } := by
        simp [popAndContinue, hq]
      rw [heq]
      refine ⟨.idle rfl hw ?_, hfront⟩
      simpa using hh
  | cons next rest =>
      have heq :
          c.popAndContinue =
            ({ c with qMessagesOut := next :: rest }).mfWriteHeader := by
        simp [popAndContinue, hq]
      rw [heq]
      exact sendInv_mfWriteHeader rfl hw hh hfront

/-- Done with the header of the front message. -/
theorem sendInv_onWriteHeader
    {c : Connection T} {msg : Message T} {rest : List (Message T)}
    (hq : c.qMessagesOut = msg :: rest)
    (hw : c.messageWrites = [])
    (hh : c.handed ++ (msg.body ++ frames rest) = frames c.ran)
    (hfront : c.emptyFront = false) :
    SendInv c.onWriteHeader := by
  by_cases hbody : 0 < msg.body.length
  · have heq : c.onWriteHeader = c.asyncWrite .body msg.body := by
      simp [onWriteHeader, mfWriteBody, hq, hbody]
    rw [heq]
    refine
      ⟨.body msg rest msg.body hq ?_ ?_,
        hfront⟩
    · rw [messageWrites_asyncWrite c _ (by decide), hw]
      rfl
    · show (c.handed ++ msg.body) ++ frames rest = frames c.ran
      rw [List.append_assoc, hh]
  · have hnil : msg.body = [] := by
      exact List.eq_nil_of_length_eq_zero (by omega)
    have heq : c.onWriteHeader = c.popAndContinue := by
      simp [onWriteHeader, hq, hnil]
    rw [heq]
    refine sendInv_popAndContinue hq hw ?_ hfront
    simpa [hnil] using hh

end Invariant

section StepLemma

variable [Layout (MessageHeader T)]

/-- Reading does not touch outgoing messages. -/
theorem sameWriter_onRead
    {c c' : Connection T} {r : PendingRead} {u : Upcall T}
    (h : c.onRead r = (c', u)) :
    SameWriter c c' := by
  cases onRead_cases h with
  | validated => exact .update
  | refused => exact .update
  | reply =>
      exact SameWriter.trans .update (sameWriter_mfWriteValidation _)
  | header => exact .update
  | noBody => exact .update
  | body => exact .update

omit [Layout (MessageHeader T)] in
/-- The write of a challenge or of its reply is over. -/
theorem sameWriter_writeDone_validation
    {c : Connection T} {i : Nat} {w : PendingWrite}
    (hw : c.writes[i]? = some w)
    (hm : w.isMessage = false) :
    SameWriter c (c.dropWrite i) where
  queue := rfl
  writes := ListSlots.filter_eraseIdx_of_neg hw hm
  handed := rfl
  ran := rfl
  front := rfl

theorem onWrite_validation
    (c : Connection T) {w : PendingWrite}
    (hm : w.isMessage = false) :
    SameWriter c (c.onWrite w) := by
  have hp : w.payload = .validation := by
    simpa [PendingWrite.isMessage] using hm
  unfold onWrite onWriteValidation
  rw [hp]
  cases hown : c.nowner with
  | server => simpa [hown] using SameWriter.refl c
  | client => exact .update

/-- Transferring some bytes of a write. -/
theorem sendInv_transfer
    {c : Connection T} {i n : Nat} {w : PendingWrite}
    {wire : List UInt8}
    (h : SendInv c)
    (hw : c.writes[i]? = some w) :
    SendInv
      { c with
        writes := c.writes.set i { w with left := w.left.drop n }
        wire := wire } := by
  cases hm : w.isMessage with
  | false =>
      exact h.congr
        ⟨rfl, ListSlots.filter_set_of_neg hw hm hm, rfl, rfl, rfl⟩
  | true =>
      have hset :
          ∀ w₀, c.messageWrites = [w₀] →
            w = w₀ ∧
              (c.writes.set i { w with left := w.left.drop n }).filter
                  PendingWrite.isMessage =
                [{ w with left := w.left.drop n }] := by
        intro w₀ hw₀
        obtain ⟨heq, _, hset⟩ :=
          ListSlots.filter_eq_singleton hw hm hw₀
        exact ⟨heq, hset _ hm⟩
      refine ⟨?_, h.front⟩
      cases h.state with
      | idle hq hmw hh =>
          exact absurd hmw (messageWrites_ne_nil hw hm)
      | header msg rest left hq hmw hh =>
          obtain ⟨heq, hset⟩ := hset _ hmw
          subst heq
          exact .header msg rest _ hq hset hh
      | body msg rest left hq hmw hh =>
          obtain ⟨heq, hset⟩ := hset _ hmw
          subst heq
          exact .body msg rest _ hq hset hh

/-- Completion of a message write. -/
theorem sendInv_writeDone_message
    {c : Connection T} {i : Nat} {w : PendingWrite}
    (h : SendInv c)
    (hw : c.writes[i]? = some w)
    (hm : w.isMessage = true) :
    SendInv ((c.dropWrite i).onWrite w) := by
  cases h.state with
  | idle hq hmw hh =>
      exact absurd hmw (messageWrites_ne_nil hw hm)
  | header msg rest left hq hmw hh =>
      obtain ⟨heq, herase, _⟩ :=
        ListSlots.filter_eq_singleton hw hm hmw
      subst heq
      exact sendInv_onWriteHeader hq herase hh h.front
  | body msg rest left hq hmw hh =>
      obtain ⟨heq, herase, _⟩ :=
        ListSlots.filter_eq_singleton hw hm hmw
      subst heq
      exact sendInv_popAndContinue hq herase hh h.front

/-- A failed message write leaves the chain stuck. -/
theorem stuck_writeFail
    {c : Connection T} {i : Nat} {w : PendingWrite}
    (h : SendInv c)
    (hw : c.writes[i]? = some w)
    (hm : w.isMessage = true) :
    Stuck ((c.dropWrite i).close) := by
  have hne : c.qMessagesOut ≠ [] :=
    h.messageWrites_iff.mp (messageWrites_ne_nil hw hm)
  refine ⟨hne, ?_, h.handed_prefix, h.front⟩
  cases h.state with
  | idle hq hmw hh =>
      exact absurd hq hne
  | header msg rest left hq hmw hh =>
      exact (ListSlots.filter_eq_singleton hw hm hmw).2.1
  | body msg rest left hq hmw hh =>
      exact (ListSlots.filter_eq_singleton hw hm hmw).2.1

/-- Events other than a handler of `send` and the end of a message write do
not concern outgoing messages, up to bytes moved. -/
theorem ioStep_sendInv
    {c c' : Connection T} {e : IoEvent} {u : Upcall T}
    (hstep : IoStep c e c' u)
    (h : SendInv c) :
    SendInv c' ∨ (∃ i, e = .writeFail i) ∧ Stuck c' := by
  cases hstep with
  | @runSend i msg hmsg =>
      have h₀ : SendInv (c.dropPosted i) :=
        h.congr .update
      exact Or.inl (sendInv_onSend h₀ msg)
  | runClose hclosing =>
      exact Or.inl (h.congr .update)
  | connected hconn =>
      exact Or.inl (h.congr .update)
  | connectFailed hconn =>
      exact Or.inl (h.congr .update)
  | recv hr hopen hwant =>
      exact Or.inl (h.congr .update)
  | @readDone i r c' u hr hfull hon =>
      have h₀ : SendInv (c.dropRead i) :=
        h.congr .update
      exact Or.inl (h₀.congr (sameWriter_onRead hon))
  | readFail hr =>
      exact Or.inl (h.congr .update)
  | transfer hw hopen hleft =>
      exact Or.inl (sendInv_transfer h hw)
  | @writeDone i w hw hleft =>
      left
      cases hm : w.isMessage with
      | false =>
          have hs := sameWriter_writeDone_validation hw hm
          exact h.congr (hs.trans (onWrite_validation _ hm))
      | true =>
          exact sendInv_writeDone_message h hw hm
  | @writeFail i w hw =>
      cases hm : w.isMessage with
      | false =>
          left
          have hs := sameWriter_writeDone_validation hw hm
          exact h.congr (hs.trans .update)
      | true =>
          exact Or.inr ⟨⟨i, rfl⟩, stuck_writeFail h hw hm⟩

/-- A stuck chain stays stuck. -/
theorem ioStep_stuck
    {c c' : Connection T} {e : IoEvent} {u : Upcall T}
    (hstep : IoStep c e c' u)
    (h : Stuck c) :
    Stuck c' := by
  have hno :
      ∀ {i : Nat} {w : PendingWrite}, c.writes[i]? = some w →
        w.isMessage = false := by
    intro i w hw
    by_contra hm
    exact messageWrites_ne_nil hw (by simpa using hm) h.writes
  cases hstep with
  | @runSend i msg hmsg =>
      have hq : (c.dropPosted i).qMessagesOut ≠ [] := h.queue
      rw [onSend_of_nonempty hq]
      refine ⟨by simp, h.writes, ?_, h.front⟩
      show c.handed <+: frames (c.ran ++ [msg])
      rw [frames_append]
      exact h.handed.trans (List.prefix_append _ _)
  | runClose hclosing =>
      exact h.congr .update
  | connected hconn =>
      exact h.congr .update
  | connectFailed hconn =>
      exact h.congr .update
  | recv hr hopen hwant =>
      exact h.congr .update
  | @readDone i r c' u hr hfull hon =>
      have h₀ : Stuck (c.dropRead i) :=
        h.congr .update
      exact h₀.congr (sameWriter_onRead hon)
  | readFail hr =>
      exact h.congr .update
  | @transfer i n w hw hopen hleft =>
      have hm : w.isMessage = false := hno hw
      exact h.congr
        ⟨rfl, ListSlots.filter_set_of_neg hw hm hm, rfl, rfl, rfl⟩
  | writeDone hw hleft =>
      have hs := sameWriter_writeDone_validation hw (hno hw)
      exact h.congr (hs.trans (onWrite_validation _ (hno hw)))
  | writeFail hw =>
      have hs := sameWriter_writeDone_validation hw (hno hw)
      exact h.congr (hs.trans .update)

omit [Layout (MessageHeader T)] in
/-- Calls do not touch what the io thread writes. -/
theorem sameWriter_disconnect (c : Connection T) :
    SameWriter c c.disconnect := by
  rw [disconnect_eq]
  exact .update

/-- The event is not the failure of a write. -/
def NoWriteFails (_ : Connection T) (e : ConnEvent T) : Prop :=
  ∀ i, e ≠ .io (.writeFail i)

/-- One step keeps the chain in order. -/
theorem step_sendInv
    (c : Connection T) (e : ConnEvent T) (c' : Connection T)
    (h : SendInv c)
    (hfail : NoWriteFails c e)
    (hstep : c.step e = some c') :
    SendInv c' := by
  rcases step_cases hstep with
    ⟨msg, _, rfl⟩ | ⟨_, rfl⟩ | ⟨e₀, u, c₀, rfl, hio, hc'⟩
  · exact h.congr .update
  · exact h.congr (sameWriter_disconnect c)
  · have h₀ : SendInv c₀ := by
      rcases ioStep_sendInv hio h with h₀ | ⟨⟨i, rfl⟩, _⟩
      · exact h₀
      · exact absurd rfl (hfail i)
    rcases hc' with rfl | ⟨_, rfl⟩
    · exact h₀
    · exact h₀.congr .update

end StepLemma

section Runs

variable [Inhabited T] [Layout (MessageHeader T)]

/-- A connection whose io handlers have not run yet: just constructed, or
asked to connect. -/
inductive Started : Connection T → Prop
  | made (parent : Owner) (now : UInt64) (isOpen : Bool) :
      Started (make parent now isOpen)
  | toServer (parent : Owner) (now : UInt64) (isOpen : Bool) :
      Started (make parent now isOpen).connectToServer
  | toClient (parent : Owner) (now : UInt64) (isOpen : Bool)
      (uid : UInt32) :
      Started ((make parent now isOpen).connectToClient uid)

theorem Started.sendInv
    {c : Connection T}
    (h : Started c) :
    SendInv c := by
  have hmake :
      ∀ (parent : Owner) (now : UInt64) (isOpen : Bool),
        SendInv (make parent now isOpen : Connection T) := by
    intro parent now isOpen
    cases parent with
    | server => exact ⟨.idle rfl rfl rfl, rfl⟩
    | client => exact ⟨.idle rfl rfl rfl, rfl⟩
  cases h with
  | made parent now isOpen =>
      exact hmake parent now isOpen
  | toServer parent now isOpen =>
      refine (hmake parent now isOpen).congr ?_
      cases parent with
      | server => exact SameWriter.refl _
      | client => exact .update
  | toClient parent now isOpen uid =>
      refine (hmake parent now isOpen).congr ?_
      cases parent with
      | server =>
          cases isOpen with
          | false => exact SameWriter.refl _
          | true => exact ⟨rfl, rfl, rfl, rfl, rfl⟩
      | client => exact SameWriter.refl _

/-- In every run in which no write fails, a message write is outstanding
exactly while messages are queued, at most one is, the queue is never read
when empty, and the bytes handed to message writes are a prefix of the frames
in the order in which the posted handlers ran. -/
theorem send_queue_exactly_once
    {c c' : Connection T} {es : List (ConnEvent T)}
    (hstart : Started c)
    (hfails : Meets step NoWriteFails c es)
    (hrun : run step c es = some c') :
    (c'.messageWrites ≠ [] ↔ c'.qMessagesOut ≠ []) ∧
      c'.messageWrites.length ≤ 1 ∧
      c'.emptyFront = false ∧
      c'.handed <+: frames c'.ran := by
  have h : SendInv c' :=
    run_invariant step_sendInv hstart.sendInv hfails hrun
  exact ⟨h.messageWrites_iff, h.messageWrites_length, h.front,
    h.handed_prefix⟩

end Runs

/-- The second message is queued while the first one is being written. -/
theorem send_queue_two_messages :
    ∃ c : Connection MessageType,
      run step (make .client 0 true)
          [.send (Message.fresh.setId .serverGetPing),
            .send (Message.fresh.setId .serverGetStatus),
            .io (.runSend 0), .io (.transfer 0 8), .io (.runSend 0),
            .io (.writeDone 0)] =
        some c ∧
      (c.messageWrites ≠ [] ↔ c.qMessagesOut ≠ []) ∧
      c.messageWrites.length ≤ 1 ∧
      c.emptyFront = false ∧
      c.handed <+: frames c.ran := by
  have hfails :
      Meets step NoWriteFails (make .client 0 true)
        [.send (Message.fresh.setId MessageType.serverGetPing),
          .send (Message.fresh.setId .serverGetStatus),
          .io (.runSend 0), .io (.transfer 0 8), .io (.runSend 0),
          .io (.writeDone 0)] := by
    refine meets_of_forall ?_ _
    rintro c e he i rfl
    simp at he
  have hrun :
      run step (make .client 0 true)
          [.send (Message.fresh.setId MessageType.serverGetPing),
            .send (Message.fresh.setId .serverGetStatus),
            .io (.runSend 0), .io (.transfer 0 8), .io (.runSend 0),
            .io (.writeDone 0)] =
        some _ := rfl
  exact ⟨_, hrun, send_queue_exactly_once (.made .client 0 true) hfails hrun⟩

end Connection

end SpeciesSimulator
