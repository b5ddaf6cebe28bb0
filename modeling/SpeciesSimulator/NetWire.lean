import SpeciesSimulator.NetSendQueue

/-!
# Bytes on the wire

Handlers hand bytes to asynchronous writes, and writes transfer them to the
socket in pieces.  As long as writes take turns, what went over the wire
followed by what is still unsent is what was handed over, after whatever was
on the wire before (`Intact`).

A handler either leaves the writing side of the socket alone (`SameOutput`) or
changes the queue and starts at most one message write (`StartsWrite`), which
is all that is handed over (`Hands`).
-/

namespace SpeciesSimulator

open ByteLayout

universe u

namespace Connection

variable {T : Type u}

/-- Bytes that outstanding writes have not transferred yet. -/
def unsent (c : Connection T) : List UInt8 :=
  c.writes.flatMap PendingWrite.left

/-- Nothing differs that concerns the writing side of the socket; it may have
been closed. -/
structure SameOutput (c c' : Connection T) : Prop where
  queue : c'.qMessagesOut = c.qMessagesOut
  writes : c'.writes = c.writes
  handed : c'.handed = c.handed
  ran : c'.ran = c.ran
  front : c'.emptyFront = c.emptyFront
  wire : c'.wire = c.wire
  isOpen : c'.isOpen = true → c.isOpen = true
  owner : c'.nowner = c.nowner
  connecting : c'.connecting = c.connecting

/-- Only what concerns outgoing bytes is kept; the socket may be closed. -/
theorem SameOutput.update
    {c : Connection T} {isOpen : Bool} {uid : UInt32}
    {nHandshakeOut nHandshakeIn nHandshakeCheck : UInt64}
    {tempMessageIn : Message T} {posted delivered : List (Message T)}
    {closing : Nat} {reads : List PendingRead} {received : List UInt8}
    (hopen : isOpen = true → c.isOpen = true) :
    SameOutput c
      { c with
        isOpen := isOpen
        uid := uid
        nHandshakeOut := nHandshakeOut
        nHandshakeIn := nHandshakeIn
        nHandshakeCheck := nHandshakeCheck
        tempMessageIn := tempMessageIn
        posted := posted
        closing := closing
        reads := reads
        received := received
        delivered := delivered } :=
  ⟨rfl, rfl, rfl, rfl, rfl, rfl, hopen, rfl, rfl⟩

theorem SameOutput.sameWriter
    {c c' : Connection T}
    (h : SameOutput c c') :
    SameWriter c c' where
  queue := h.queue
  writes := by simp [messageWrites, h.writes]
  handed := h.handed
  ran := h.ran
  front := h.front

/-- A handler that starts message writes, if any, and moves no bytes. -/
structure Hands (c c' : Connection T) : Prop where
  wire : c'.wire = c.wire
  isOpen : c'.isOpen = c.isOpen
  owner : c'.nowner = c.nowner
  connecting : c'.connecting = c.connecting
  started :
    ∃ ws : List PendingWrite,
      (∀ w ∈ ws, w.isMessage = true) ∧
      c'.writes = c.writes ++ ws ∧
      c'.handed = c.handed ++ ws.flatMap PendingWrite.left

/-- A handler that changes the queue, and starts at most one message write. -/
inductive StartsWrite (c : Connection T) : Connection T → Prop
  | idle {qMessagesOut : List (Message T)} {emptyFront : Bool} :
      StartsWrite c
        { c with qMessagesOut := qMessagesOut, emptyFront := emptyFront }
  | write {qMessagesOut : List (Message T)} {payload : Payload}
      {bytes : List UInt8}
      (hp : payload ≠ .validation) :
      StartsWrite c
        (({ c with qMessagesOut := qMessagesOut }).asyncWrite payload bytes)

theorem StartsWrite.hands
    {c c' : Connection T}
    (h : StartsWrite c c') :
    Hands c c' := by
  cases h with
  | idle =>
      exact ⟨rfl, rfl, rfl, rfl, [], by simp, by simp, by simp⟩
  | @write _ payload bytes hp =>
      refine ⟨rfl, rfl, rfl, rfl, [⟨payload, bytes⟩], ?_, rfl, ?_⟩
      · simp [PendingWrite.isMessage, hp]
      · simp [asyncWrite, hp]

/-- What is started does not depend on what is queued. -/
theorem StartsWrite.of_queue
    {c c' : Connection T} {qMessagesOut : List (Message T)}
    (h : StartsWrite { c with qMessagesOut := qMessagesOut } c') :
    StartsWrite c c' := by
  cases h with
  | idle => exact .idle
  | write hp => exact .write hp

section Handlers

variable [Layout (MessageHeader T)]

theorem startsWrite_mfWriteHeader (c : Connection T) :
    StartsWrite c c.mfWriteHeader := by
  unfold mfWriteHeader
  split
  · exact .idle
  · exact .write (by decide)

omit [Layout (MessageHeader T)] in
theorem startsWrite_mfWriteBody (c : Connection T) :
    StartsWrite c c.mfWriteBody := by
  unfold mfWriteBody
  split
  · exact .idle
  · exact .write (by decide)

/-- The handler of `send` also records that it has run. -/
theorem startsWrite_onSend (c : Connection T) (msg : Message T) :
    StartsWrite { c with ran := c.ran ++ [msg] } (c.onSend msg) := by
  by_cases hq : c.qMessagesOut = []
  · rw [onSend_of_empty hq]
    exact .of_queue (startsWrite_mfWriteHeader _)
  · rw [onSend_of_nonempty hq]
    exact .idle

theorem startsWrite_popAndContinue (c : Connection T) :
    StartsWrite c c.popAndContinue := by
  unfold popAndContinue
  split
  · exact .idle
  · simp only
    split
    · exact .idle
    · exact .of_queue (startsWrite_mfWriteHeader _)

/-- The handler that runs after the write of a part of a message. -/
theorem startsWrite_onWrite
    (c : Connection T) {w : PendingWrite}
    (hm : w.isMessage = true) :
    StartsWrite c (c.onWrite w) := by
  cases hp : w.payload with
  | validation =>
      simp [PendingWrite.isMessage, hp] at hm
  | header =>
      simp only [onWrite, hp, onWriteHeader]
      split
      · exact .idle
      · split
        · exact startsWrite_mfWriteBody c
        · exact startsWrite_popAndContinue c
  | body =>
      simp only [onWrite, hp, onWriteBody]
      exact startsWrite_popAndContinue c

theorem hands_onSend (c : Connection T) (msg : Message T) :
    Hands c (c.onSend msg) := by
  have h := (startsWrite_onSend c msg).hands
  exact ⟨h.wire, h.isOpen, h.owner, h.connecting, h.started⟩

theorem hands_onWrite
    (c : Connection T) {w : PendingWrite}
    (hm : w.isMessage = true) :
    Hands c (c.onWrite w) :=
  (startsWrite_onWrite c hm).hands

end Handlers

section Reading

variable [Layout (MessageHeader T)]

omit [Layout (MessageHeader T)] in
/-- The server compares the reply with what it expects. -/
theorem onReadValidation_of_server
    {c : Connection T}
    (howner : c.nowner = .server)
    (bytes : List UInt8) :
    c.onReadValidation bytes =
      if ofBytes bytes = c.nHandshakeCheck then
        ({ c with nHandshakeIn := ofBytes bytes }, .validated)
      else
        (({ c with nHandshakeIn := ofBytes bytes }).close, .none) := by
  simp [onReadValidation, howner]

/-- Reading starts no write, except for a client's reply to the challenge. -/
theorem sameOutput_onRead
    {c c' : Connection T} {r : PendingRead} {u : Upcall T}
    (hrole : c.nowner = .server ∨ r.payload ≠ .validation)
    (h : c.onRead r = (c', u)) :
    SameOutput c c' := by
  cases onRead_cases h with
  | validated => exact .update id
  | refused => exact .update fun hfalse => by cases hfalse
  | reply hp hclient =>
      rcases hrole with howner | hne
      · rw [howner] at hclient
        cases hclient
      · exact absurd hp hne
  | header => exact .update id
  | noBody => exact .update id
  | body => exact .update id

/-- The server starts reading frames only once the reply is checked. -/
theorem onWrite_validation_of_server
    {c : Connection T} {w : PendingWrite}
    (howner : c.nowner = .server)
    (hm : w.isMessage = false) :
    c.onWrite w = c := by
  have hp : w.payload = .validation := by
    simpa [PendingWrite.isMessage] using hm
  simp [onWrite, onWriteValidation, hp, howner]

end Reading

section Streams

/-- What is on the wire and what is unsent make up what was handed over,
after the bytes `before`. -/
def Intact (before : List UInt8) (c : Connection T) : Prop :=
  c.wire ++ c.unsent = before ++ c.handed

/-- Only message writes are outstanding. -/
def OnlyMessages (c : Connection T) : Prop :=
  ∀ w ∈ c.writes, w.isMessage = true

variable {before : List UInt8}

theorem Intact.congr
    {c c' : Connection T}
    (h : Intact before c)
    (hs : SameOutput c c') :
    Intact before c' := by
  unfold Intact unsent at h ⊢
  rw [hs.wire, hs.writes, hs.handed]
  exact h

/-- What is handed over joins the end of what is unsent. -/
theorem Intact.hands
    {c c' : Connection T}
    (h : Intact before c)
    (hs : Hands c c') :
    Intact before c' := by
  obtain ⟨ws, _, hwrites, hhanded⟩ := hs.started
  unfold Intact at h ⊢
  have hunsent :
      c'.unsent = c.unsent ++ ws.flatMap PendingWrite.left := by
    simp [unsent, hwrites]
  rw [hs.wire, hunsent, hhanded, ← List.append_assoc, h,
    List.append_assoc]

/-- Transferring bytes of the only write. -/
theorem Intact.transfer
    {c : Connection T} {i : Nat} {w : PendingWrite}
    (h : Intact before c)
    (hlen : c.writes.length ≤ 1)
    (hw : c.writes[i]? = some w)
    (n : Nat) :
    Intact before
      { c with
        writes := c.writes.set i { w with left := w.left.drop n }
        wire := c.wire ++ w.left.take n } := by
  obtain ⟨hone, _, hset⟩ := ListSlots.eq_singleton hlen hw
  have hunsent : c.unsent = w.left := by
    simp [unsent, hone]
  show (c.wire ++ w.left.take n) ++
      (c.writes.set i _).flatMap PendingWrite.left = _
  rw [hset, List.append_assoc]
  simp only [List.flatMap_cons, List.flatMap_nil, List.append_nil,
    List.take_append_drop]
  rw [← hunsent]
  exact h

/-- The only write is through. -/
theorem Intact.dropWrite
    {c : Connection T} {i : Nat} {w : PendingWrite}
    (h : Intact before c)
    (hlen : c.writes.length ≤ 1)
    (hw : c.writes[i]? = some w)
    (hleft : w.left = []) :
    Intact before (c.dropWrite i) := by
  obtain ⟨hone, herase, _⟩ := ListSlots.eq_singleton hlen hw
  have hunsent : c.unsent = [] := by
    simp [unsent, hone, hleft]
  unfold Intact at h
  rw [hunsent] at h
  show c.wire ++ (c.writes.eraseIdx i).flatMap PendingWrite.left = _
  rw [herase]
  exact h

theorem OnlyMessages.congr
    {c c' : Connection T}
    (h : OnlyMessages c)
    (hs : SameOutput c c') :
    OnlyMessages c' := by
  intro w hw
  rw [hs.writes] at hw
  exact h w hw

theorem OnlyMessages.hands
    {c c' : Connection T}
    (h : OnlyMessages c)
    (hs : Hands c c') :
    OnlyMessages c' := by
  obtain ⟨ws, hmessages, hwrites, _⟩ := hs.started
  intro w hw
  rw [hwrites, List.mem_append] at hw
  rcases hw with hw | hw
  · exact h w hw
  · exact hmessages w hw

theorem OnlyMessages.transfer
    {c : Connection T} {i : Nat} {w : PendingWrite}
    {left wire : List UInt8}
    (h : OnlyMessages c)
    (hw : c.writes[i]? = some w) :
    OnlyMessages
      { c with
        writes := c.writes.set i { w with left := left }
        wire := wire } := by
  intro w' hw'
  rcases List.mem_or_eq_of_mem_set hw' with hw' | rfl
  · exact h w' hw'
  · exact h w (List.mem_of_getElem? hw)

theorem OnlyMessages.dropWrite
    {c : Connection T}
    (h : OnlyMessages c)
    (i : Nat) :
    OnlyMessages (c.dropWrite i) := by
  intro w hw
  exact h w (List.mem_of_mem_eraseIdx hw)

theorem OnlyMessages.messageWrites_eq
    {c : Connection T}
    (h : OnlyMessages c) :
    c.messageWrites = c.writes :=
  List.filter_eq_self.mpr h

end Streams

section Chains

variable [Layout (MessageHeader T)]

/-- The chain of message writes goes on or is stuck. -/
theorem ioStep_chain
    {c c' : Connection T} {e : IoEvent} {u : Upcall T}
    (hstep : IoStep c e c' u)
    (hchain : SendInv c ∨ Stuck c) :
    SendInv c' ∨ Stuck c' := by
  rcases hchain with hchain | hchain
  · rcases ioStep_sendInv hstep hchain with h | ⟨_, h⟩
    · exact Or.inl h
    · exact Or.inr h
  · exact Or.inr (ioStep_stuck hstep hchain)

/-- Message writes take turns. -/
theorem OnlyMessages.writes_length
    {c : Connection T}
    (h : OnlyMessages c)
    (hchain : SendInv c ∨ Stuck c) :
    c.writes.length ≤ 1 := by
  rw [← h.messageWrites_eq]
  rcases hchain with hchain | hchain
  · exact hchain.messageWrites_length
  · simp [hchain.writes]

end Chains

end Connection

end SpeciesSimulator
