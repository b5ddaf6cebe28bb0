import SpeciesSimulator.NetFraming
import SpeciesSimulator.NetHandshakeWrite

/-!
# The handshake as a gate

What a connection of the server lets through before and after its peer has
answered the challenge.  Such a connection is in one of three states, whatever
the peer sends and in whatever order handlers run, fail or close the socket:

* awaiting: the reply is the only read that is outstanding, every byte that
  came in belongs to it, and only public messages were sent;
* shut: the socket is closed for good and nothing is read any more;
* passed: the first bytes that came in were the right reply.

The states are relative to two facts that the server records about the
connection: whether it was approved and whether it was validated.

Main fact: `ioStep_gate`, a handler of the io thread keeps the state of the
gate, or it validates an approved connection that was not validated before and
has received the right reply.
-/

namespace SpeciesSimulator

open ByteLayout

universe u

namespace Connection

variable {T : Type u}

/-- The first bytes received are the right reply to the challenge. -/
def ReplyCorrect (c : Connection T) : Prop :=
  c.received.take (byteSize UInt64) = toBytes (mfScramble c.nHandshakeOut)

instance (c : Connection T) : Decidable c.ReplyCorrect :=
  inferInstanceAs (Decidable (_ = _))

/-- Nothing that the gate depends on differs: the socket may have been closed,
and messages may have moved from the posted handlers to the queue. -/
structure SameGate (c c' : Connection T) : Prop
    extends SameReader c c' where
  owner : c'.nowner = c.nowner
  connecting : c'.connecting = c.connecting
  challenge : c'.nHandshakeOut = c.nHandshakeOut
  check : c'.nHandshakeCheck = c.nHandshakeCheck
  isOpen : c'.isOpen = true → c.isOpen = true
  messages : ∀ msg ∈ c'.posted ++ c'.ran, msg ∈ c.posted ++ c.ran

theorem SameGate.trans
    {c c' c'' : Connection T}
    (h : SameGate c c')
    (h' : SameGate c' c'') :
    SameGate c c'' where
  reads := h'.reads.trans h.reads
  received := h'.received.trans h.received
  temp := h'.temp.trans h.temp
  delivered := h'.delivered.trans h.delivered
  owner := h'.owner.trans h.owner
  connecting := h'.connecting.trans h.connecting
  challenge := h'.challenge.trans h.challenge
  check := h'.check.trans h.check
  isOpen := fun hopen => h.isOpen (h'.isOpen hopen)
  messages := fun msg hmsg => h.messages msg (h'.messages msg hmsg)

/-- What is written and the queue concern no gate; the socket may be closed. -/
theorem SameGate.update
    {c : Connection T} {isOpen emptyFront : Bool} {uid : UInt32}
    {nHandshakeIn : UInt64} {qMessagesOut : List (Message T)} {closing : Nat}
    {writes : List PendingWrite} {handed wire : List UInt8}
    (hopen : isOpen = true → c.isOpen = true) :
    SameGate c
      { c with
        isOpen := isOpen
        uid := uid
        nHandshakeIn := nHandshakeIn
        qMessagesOut := qMessagesOut
        closing := closing
        writes := writes
        handed := handed
        wire := wire
        emptyFront := emptyFront } :=
  ⟨.update, rfl, rfl, rfl, rfl, hopen, fun _ hmsg => hmsg⟩

/-- A handler that writes concerns no gate. -/
theorem StartsWrite.sameGate
    {c c' : Connection T}
    (h : StartsWrite c c') :
    SameGate c c' := by
  cases h with
  | idle => exact .update id
  | write => exact .update id

section Writing

variable [Layout (MessageHeader T)]

/-- The handler of `send` queues the message that it was posted for. -/
theorem sameGate_runSend
    {c : Connection T} {i : Nat} {msg : Message T}
    (hmsg : c.posted[i]? = some msg) :
    SameGate c ((c.dropPosted i).onSend msg) := by
  have hqueued :
      ∀ m ∈ (c.posted.eraseIdx i) ++ (c.ran ++ [msg]),
        m ∈ c.posted ++ c.ran := by
    intro m hm
    simp only [List.mem_append, List.mem_singleton] at hm
    rcases hm with hposted | hran | rfl
    · exact List.mem_append_left _ (List.mem_of_mem_eraseIdx hposted)
    · exact List.mem_append_right _ hran
    · exact List.mem_append_left _ (List.mem_of_getElem? hmsg)
  refine SameGate.trans ?_ (startsWrite_onSend (c.dropPosted i) msg).sameGate
  exact ⟨⟨rfl, rfl, rfl, rfl⟩, rfl, rfl, rfl, rfl, id, hqueued⟩

/-- Completing a write concerns no gate of the server. -/
theorem sameGate_writeDone
    {c : Connection T}
    (howner : c.nowner = .server)
    (i : Nat) (w : PendingWrite) :
    SameGate c ((c.dropWrite i).onWrite w) := by
  have hdrop : SameGate c (c.dropWrite i) :=
    .update id
  cases hm : w.isMessage with
  | true => exact hdrop.trans (startsWrite_onWrite _ hm).sameGate
  | false =>
      rw [onWrite_validation_of_server (hdrop.owner.trans howner) hm]
      exact hdrop

end Writing

section Gate

variable [Inhabited T]
variable (isPublic : Message T → Prop)

/-- What never changes about a connection of the server. -/
structure ServerSide (c : Connection T) : Prop where
  owner : c.nowner = .server
  connecting : c.connecting = false
  check : c.nHandshakeCheck = mfScramble c.nHandshakeOut

/-- No byte was taken for a part of a message, only public messages were sent. -/
structure Untouched (c : Connection T) : Prop where
  delivered : c.delivered = []
  temp : c.tempMessageIn = Message.fresh
  messages : ∀ msg ∈ c.posted ++ c.ran, isPublic msg

/-- The peer has given the right reply, and it is not read again. -/
structure Passed (c : Connection T) : Prop where
  frames : ∀ r ∈ c.reads, r.payload ≠ .validation
  reply : c.ReplyCorrect

/-- The state of the gate of a connection that was approved and validated or
not. -/
inductive GateState
    (approved validated : Prop) (c : Connection T) : Prop
  | awaiting
      (happroved : approved)
      (hnot : ¬ validated)
      (hreads :
        c.reads = [⟨.validation, byteSize UInt64, c.received⟩])
      (hlen : c.received.length ≤ byteSize UInt64)
      (huntouched : Untouched isPublic c)
  | shut
      (hnot : ¬ validated)
      (hreads : c.reads = [])
      (hclosed : c.isOpen = false)
      (huntouched : Untouched isPublic c)
  | passed
      (happroved : approved)
      (hvalidated : validated)
      (hpassed : Passed c)

variable {isPublic}

omit [Inhabited T] in
theorem ServerSide.congr
    {c c' : Connection T}
    (h : ServerSide c)
    (hs : SameGate c c') :
    ServerSide c' where
  owner := hs.owner.trans h.owner
  connecting := hs.connecting.trans h.connecting
  check := by rw [hs.check, hs.challenge, h.check]

omit [Inhabited T] in
theorem ReplyCorrect.congr
    {c c' : Connection T}
    (h : ReplyCorrect c)
    (hreceived : c'.received = c.received)
    (hout : c'.nHandshakeOut = c.nHandshakeOut) :
    ReplyCorrect c' := by
  unfold ReplyCorrect
  rw [hreceived, hout]
  exact h

theorem Untouched.congr
    {c c' : Connection T}
    (h : Untouched isPublic c)
    (hs : SameGate c c') :
    Untouched isPublic c' where
  delivered := hs.delivered.trans h.delivered
  temp := hs.temp.trans h.temp
  messages := fun msg hmsg => h.messages msg (hs.messages msg hmsg)

theorem GateState.congr
    {approved validated : Prop} {c c' : Connection T}
    (h : GateState isPublic approved validated c)
    (hs : SameGate c c') :
    GateState isPublic approved validated c' := by
  cases h with
  | awaiting happroved hnot hreads hlen huntouched =>
      refine .awaiting happroved hnot ?_ ?_ (huntouched.congr hs)
      · rw [hs.reads, hs.received, hreads]
      · rw [hs.received]
        exact hlen
  | shut hnot hreads hclosed huntouched =>
      refine .shut hnot (hs.reads.trans hreads) ?_ (huntouched.congr hs)
      by_contra hopen
      rw [hs.isOpen (by simpa using hopen)] at hclosed
      cases hclosed
  | passed happroved hvalidated hpassed =>
      refine .passed happroved hvalidated ⟨?_, ?_⟩
      · rw [hs.reads]
        exact hpassed.frames
      · exact hpassed.reply.congr hs.received hs.challenge

/-- Only what is recorded about the connection itself matters. -/
theorem GateState.congr_iff
    {approved validated approved' validated' : Prop} {c : Connection T}
    (h : GateState isPublic approved validated c)
    (happroved : approved ↔ approved')
    (hvalidated : validated ↔ validated') :
    GateState isPublic approved' validated' c := by
  rw [propext happroved, propext hvalidated] at h
  exact h

omit [Inhabited T] in
/-- The reply is complete once it is known to be right. -/
theorem ReplyCorrect.length
    {c : Connection T}
    (h : ReplyCorrect c) :
    byteSize UInt64 ≤ c.received.length := by
  have hlen := congrArg List.length h
  rw [List.length_take, length_toBytes] at hlen
  exact min_eq_left_iff.mp hlen

omit [Inhabited T] in
/-- The server compares the complete reply with what it expects. -/
theorem ofBytes_eq_check_iff
    {c : Connection T}
    (h : ServerSide c)
    (hlen : c.received.length = byteSize UInt64) :
    ofBytes c.received = c.nHandshakeCheck ↔ ReplyCorrect c := by
  unfold ReplyCorrect
  rw [List.take_of_length_le hlen.le, ← h.check]
  constructor
  · intro heq
    rw [← heq, toBytes_ofBytes_uint64 hlen]
  · intro heq
    rw [heq, ofBytes_toBytes]

omit [Inhabited T] in
/-- What comes in afterwards does not change the reply. -/
theorem ReplyCorrect.append
    {c c' : Connection T} {bytes : List UInt8}
    (h : ReplyCorrect c)
    (hreceived : c'.received = c.received ++ bytes)
    (hout : c'.nHandshakeOut = c.nHandshakeOut) :
    ReplyCorrect c' := by
  unfold ReplyCorrect
  rw [hreceived, hout, List.take_append_of_le_length h.length]
  exact h

end Gate

section StepLemma

variable [Inhabited T] [Layout (MessageHeader T)]
variable {isPublic : Message T → Prop}
variable {approved validated : Prop}

/-- What a handler of a connection does to its gate. -/
def GateStep
    (isPublic : Message T → Prop) (approved validated : Prop)
    (c' : Connection T) (u : Upcall T) : Prop :=
  ServerSide c' ∧
    (u = .validated ∧ approved ∧ ¬ validated ∧ Passed c' ∨
      u ≠ .validated ∧ GateState isPublic approved validated c' ∧
        ∀ msg, u = .incoming msg → validated)

omit [Layout (MessageHeader T)] in
theorem gateStep_of_sameGate
    {c c' : Connection T}
    (hside : ServerSide c)
    (h : GateState isPublic approved validated c)
    (hs : SameGate c c') :
    GateStep isPublic approved validated c' .none :=
  ⟨hside.congr hs, Or.inr ⟨by simp, h.congr hs, by simp⟩⟩

omit [Inhabited T] in
/-- Reading a part of a message starts another such read. -/
theorem onRead_frame
    {c c' : Connection T} {r : PendingRead} {u : Upcall T}
    (hp : r.payload ≠ .validation)
    (hon : c.onRead r = (c', u)) :
    (∃ r', r'.payload ≠ .validation ∧ c'.reads = c.reads ++ [r']) ∧
      c'.nHandshakeOut = c.nHandshakeOut ∧
      c'.nHandshakeCheck = c.nHandshakeCheck ∧
      u ≠ .validated := by
  cases onRead_cases hon with
  | validated hv => exact absurd hv hp
  | refused hv => exact absurd hv hp
  | reply hv => exact absurd hv hp
  | header => exact ⟨⟨_, by simp, rfl⟩, rfl, rfl, by simp⟩
  | noBody => exact ⟨⟨_, by simp, rfl⟩, rfl, rfl, by simp⟩
  | body => exact ⟨⟨_, by simp, rfl⟩, rfl, rfl, by simp⟩

/-- A complete part of a message is read behind the gate. -/
theorem gateStep_onRead_of_passed
    {c c' : Connection T} {r : PendingRead} {u : Upcall T}
    (hside : ServerSide c)
    (happroved : approved)
    (hvalidated : validated)
    (h : Passed c)
    (hp : r.payload ≠ .validation)
    (hon : c.onRead r = (c', u)) :
    GateStep isPublic approved validated c' u := by
  obtain ⟨⟨r', hr', hreads⟩, hout, hcheck, hu⟩ := onRead_frame hp hon
  have hsame := sameOutput_onRead (Or.inl hside.owner) hon
  have hside' : ServerSide c' :=
    { owner := hsame.owner.trans hside.owner
      connecting := hsame.connecting.trans hside.connecting
      check := by rw [hcheck, hout, hside.check] }
  have hpassed : Passed c' := by
    refine ⟨?_, h.reply.congr (received_onRead hon) hout⟩
    rw [hreads]
    intro q hq
    rcases List.mem_append.mp hq with hq | hq
    · exact h.frames q hq
    · obtain rfl := List.mem_singleton.mp hq
      exact hr'
  exact ⟨hside',
    Or.inr
      ⟨hu, .passed happroved hvalidated hpassed, fun _ _ => hvalidated⟩⟩

/-- The complete reply decides whether the gate opens. -/
theorem gateStep_onRead_of_awaiting
    {c c' : Connection T} {u : Upcall T}
    (hside : ServerSide c)
    (happroved : approved)
    (hnot : ¬ validated)
    (hreads : c.reads = [])
    (huntouched : Untouched isPublic c)
    (hlen : c.received.length = byteSize UInt64)
    (hon :
      c.onRead ⟨.validation, byteSize UInt64, c.received⟩ = (c', u)) :
    GateStep isPublic approved validated c' u := by
  simp only [onRead] at hon
  rw [onReadValidation_of_server hside.owner] at hon
  split at hon
  · next hright =>
    cases hon
    have hreply : ReplyCorrect c := (ofBytes_eq_check_iff hside hlen).mp hright
    refine ⟨⟨hside.owner, hside.connecting, hside.check⟩, Or.inl ?_⟩
    refine ⟨rfl, happroved, hnot, ?_, hreply⟩
    intro r hr
    have hr' : r ∈ c.reads := hr
    rw [hreads] at hr'
    cases hr'
  · cases hon
    have huntouched' :
        Untouched isPublic
          ({ c with nHandshakeIn := ofBytes c.received }).close :=
      ⟨huntouched.delivered, huntouched.temp, huntouched.messages⟩
    refine ⟨⟨hside.owner, hside.connecting, hside.check⟩, Or.inr ?_⟩
    exact ⟨by simp, .shut hnot hreads rfl huntouched', by simp⟩

omit [Inhabited T] in
/-- The handler that has a complete and wrong reply closes the socket. -/
theorem closed_of_wrong_reply
    {c : Connection T}
    (hside : ServerSide c)
    (hreads : c.reads = [⟨.validation, byteSize UInt64, c.received⟩])
    (hlen : c.received.length = byteSize UInt64)
    (hwrong : ¬ ReplyCorrect c) :
    ∃ c', c.ioStep (.readDone 0) = some (c', .none) ∧
      c'.reads = [] ∧ c'.isOpen = false := by
  have hne : ofBytes c.received ≠ c.nHandshakeCheck :=
    mt (ofBytes_eq_check_iff hside hlen).mp hwrong
  have howner : (c.dropRead 0).nowner = .server := hside.owner
  have hon :
      (c.dropRead 0).onRead ⟨.validation, byteSize UInt64, c.received⟩ =
        (({ c.dropRead 0 with nHandshakeIn := ofBytes c.received }).close,
          .none) := by
    simp only [onRead]
    rw [onReadValidation_of_server howner]
    exact if_neg hne
  refine
    ⟨({ c.dropRead 0 with nHandshakeIn := ofBytes c.received }).close,
      ?_, ?_, rfl⟩
  · simp only [ioStep, hreads, List.getElem?_cons_zero, hlen, if_true, hon]
  · simp [close, dropRead, hreads]

omit [Layout (MessageHeader T)] in
/-- Bytes that come in belong to the reply, or they come after it. -/
theorem gateState_recv
    {c : Connection T} {i : Nat} {r : PendingRead} {bytes : List UInt8}
    (h : GateState isPublic approved validated c)
    (hr : c.reads[i]? = some r)
    (hwant : r.got.length + bytes.length ≤ r.want) :
    GateState isPublic approved validated
      { c with
        reads := c.reads.set i { r with got := r.got ++ bytes }
        received := c.received ++ bytes } := by
  cases h with
  | awaiting happroved hnot hreads hlen huntouched =>
      obtain ⟨rfl, _, hset⟩ := ListSlots.only_item hr hreads
      have hlen' :
          (c.received ++ bytes).length ≤ byteSize UInt64 := by
        rw [List.length_append]
        exact hwant
      exact .awaiting happroved hnot (hset _) hlen'
        ⟨huntouched.delivered, huntouched.temp, huntouched.messages⟩
  | shut hnot hreads hclosed huntouched =>
      simp [hreads] at hr
  | passed happroved hvalidated hpassed =>
      refine .passed happroved hvalidated
        ⟨?_, hpassed.reply.append rfl rfl⟩
      intro r' hr'
      rcases List.mem_or_eq_of_mem_set hr' with hr' | rfl
      · exact hpassed.frames r' hr'
      · exact hpassed.frames r (List.mem_of_getElem? hr)

omit [Layout (MessageHeader T)] in
/-- A failed read shuts the gate, or it ends the reading behind it. -/
theorem gateState_readFail
    {c : Connection T} {i : Nat} {r : PendingRead}
    (h : GateState isPublic approved validated c)
    (hr : c.reads[i]? = some r) :
    GateState isPublic approved validated ((c.dropRead i).close) := by
  cases h with
  | awaiting happroved hnot hreads hlen huntouched =>
      obtain ⟨_, herase, _⟩ := ListSlots.only_item hr hreads
      exact .shut hnot herase rfl
        ⟨huntouched.delivered, huntouched.temp, huntouched.messages⟩
  | shut hnot hreads hclosed huntouched =>
      simp [hreads] at hr
  | passed happroved hvalidated hpassed =>
      refine .passed happroved hvalidated ⟨?_, hpassed.reply⟩
      intro r' hr'
      exact hpassed.frames r' (List.mem_of_mem_eraseIdx hr')

/-- Every handler keeps the state of the gate or validates the connection. -/
theorem ioStep_gate
    {c c' : Connection T} {e : IoEvent} {u : Upcall T}
    (hstep : IoStep c e c' u)
    (hside : ServerSide c)
    (h : GateState isPublic approved validated c) :
    GateStep isPublic approved validated c' u := by
  cases hstep with
  | runSend hmsg =>
      exact gateStep_of_sameGate hside h (sameGate_runSend hmsg)
  | runClose hclosing =>
      refine gateStep_of_sameGate hside h ?_
      exact .update (by simp)
  | connected hconn =>
      rw [hside.connecting] at hconn
      cases hconn
  | connectFailed hconn =>
      rw [hside.connecting] at hconn
      cases hconn
  | @recv i bytes r hr hopen hwant =>
      exact ⟨⟨hside.owner, hside.connecting, hside.check⟩,
        Or.inr ⟨by simp, gateState_recv h hr hwant, by simp⟩⟩
  | @readDone i r c' u hr hfull hon =>
      have hside₀ : ServerSide (c.dropRead i) :=
        ⟨hside.owner, hside.connecting, hside.check⟩
      cases h with
      | awaiting happroved hnot hreads hlen huntouched =>
          obtain ⟨rfl, herase, _⟩ := ListSlots.only_item hr hreads
          exact gateStep_onRead_of_awaiting hside₀ happroved hnot herase
            ⟨huntouched.delivered, huntouched.temp, huntouched.messages⟩
            hfull hon
      | shut hnot hreads hclosed huntouched =>
          simp [hreads] at hr
      | passed happroved hvalidated hpassed =>
          have hpassed₀ : Passed (c.dropRead i) :=
            ⟨fun r' hr' => hpassed.frames r' (List.mem_of_mem_eraseIdx hr'),
              hpassed.reply⟩
          exact gateStep_onRead_of_passed hside₀ happroved hvalidated hpassed₀
            (hpassed.frames r (List.mem_of_getElem? hr)) hon
  | readFail hr =>
      exact ⟨⟨hside.owner, hside.connecting, hside.check⟩,
        Or.inr ⟨by simp, gateState_readFail h hr, by simp⟩⟩
  | transfer hw hopen hleft =>
      refine gateStep_of_sameGate hside h ?_
      exact .update id
  | @writeDone i w hw hleft =>
      exact gateStep_of_sameGate hside h
        (sameGate_writeDone hside.owner i w)
  | writeFail hw =>
      refine gateStep_of_sameGate hside h ?_
      exact .update (by simp)

end StepLemma

section Accept

variable [Inhabited T]
variable {isPublic : Message T → Prop}

/-- An approved connection waits for the reply to its challenge. -/
theorem gateState_acceptConnection
    {approved validated : Prop} {greeting : Message T}
    (happroved : approved)
    (hnot : ¬ validated)
    (hpublic : isPublic greeting)
    (now : UInt64) (uid : UInt32) :
    GateState isPublic approved validated
      (acceptConnection greeting now uid) := by
  refine .awaiting happroved hnot rfl (Nat.zero_le _) ⟨rfl, rfl, ?_⟩
  intro msg hmsg
  obtain rfl : msg = greeting := List.mem_singleton.mp hmsg
  exact hpublic

/-- The right reply opens the gate of an approved connection. -/
theorem exists_right_reply [Layout (MessageHeader T)]
    (greeting : Message T) (now : UInt64) (uid : UInt32) :
    ∃ c c' : Connection T,
      (acceptConnection greeting now uid).ioStep
          (.recv 0 (toBytes (mfScramble now))) = some (c, .none) ∧
        c.ioStep (.readDone 0) = some (c', .validated) := by
  have hlen : (toBytes (mfScramble now)).length = byteSize UInt64 :=
    length_toBytes _
  have hreads :
      (acceptConnection greeting now uid).reads[0]? =
        some ⟨.validation, byteSize UInt64, []⟩ := rfl
  have hopen : (acceptConnection greeting now uid).isOpen = true := rfl
  have hroom :
      ([] : List UInt8).length + (toBytes (mfScramble now)).length ≤
        byteSize UInt64 := by
    rw [hlen]
    exact le_of_eq (Nat.zero_add _)
  let c : Connection T :=
    { acceptConnection greeting now uid with
      reads := [⟨.validation, byteSize UInt64, toBytes (mfScramble now)⟩]
      received := toBytes (mfScramble now) }
  obtain ⟨c', hon⟩ :
      ∃ c',
        (c.dropRead 0).onRead
            ⟨.validation, byteSize UInt64, toBytes (mfScramble now)⟩ =
          (c', .validated) := by
    simp only [onRead]
    rw [onReadValidation_of_server rfl]
    exact ⟨_, if_pos (ofBytes_toBytes _)⟩
  refine ⟨c, c', ?_, ?_⟩
  · simp only [ioStep, hreads, hopen, hroom, and_self, if_true]
    rfl
  · have hdone :
        c.reads[0]? =
          some
            ⟨.validation, byteSize UInt64, toBytes (mfScramble now)⟩ := rfl
    simp only [ioStep, hdone, hlen, if_true, hon]

/-- A refused connection is shut from the start. -/
theorem gateState_refused
    {approved validated : Prop} {denial : Message T}
    (hnot : ¬ validated)
    (hpublic : isPublic denial)
    (now : UInt64) :
    GateState isPublic approved validated
      (((make .server now true).send denial).close) := by
  refine .shut hnot rfl rfl ⟨rfl, rfl, ?_⟩
  intro msg hmsg
  obtain rfl : msg = denial := List.mem_singleton.mp hmsg
  exact hpublic

end Accept

end Connection

end SpeciesSimulator
