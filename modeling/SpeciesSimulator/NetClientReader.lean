import SpeciesSimulator.NetGate

/-!
# The first message a client reads

A client's connection from `connect_to_server` on.  Its reader takes the first
eight bytes for the challenge, writes the reply, and goes on with a header once
the reply is written.  A message is delivered when the body that the header
announces is complete.

Main fact: `delivered_eq_nil`, a client that is given a stream that ends before
its first message is complete delivers nothing, in whatever order handlers run
and whatever the client sends.
-/

namespace SpeciesSimulator

open ByteLayout Transition ListSlots

universe u

namespace Connection

variable {T : Type u}

section Model

/-- A client's connection that has called `connect_to_server`. -/
def newClient [Inhabited T] : Connection T :=
  (make .client 0 false).connectToServer

variable [Layout (MessageHeader T)]

/-- What a client takes for the first header of a stream. -/
def firstHeader (stream : List UInt8) : MessageHeader T :=
  ofBytes
    ((stream.drop (byteSize UInt64)).take (byteSize (MessageHeader T)))

/-- The stream ends before the first message is complete. -/
def Starved (T : Type u) [Layout (MessageHeader T)]
    (stream : List UInt8) : Prop :=
  stream.length <
    byteSize UInt64 + byteSize (MessageHeader T) +
      (firstHeader stream : MessageHeader T).size.toNat

instance (stream : List UInt8) : Decidable (Starved T stream) :=
  inferInstanceAs (Decidable (_ < _))

omit [Layout (MessageHeader T)] in
/-- The outstanding writes of a challenge or a reply. -/
def validationWrites (c : Connection T) : List PendingWrite :=
  c.writes.filter fun w => !w.isMessage

/-- How far a client has come that is given a part of a starved stream. -/
inductive Reading (stream : List UInt8) (c : Connection T) : Prop
  | connecting
      (hconn : c.connecting = true)
      (hreads : c.reads = [])
      (hreply : c.validationWrites = [])
      (hrec : c.received = [])
  | challenge (got : List UInt8)
      (hconn : c.connecting = false)
      (hreads : c.reads = [⟨.validation, byteSize UInt64, got⟩])
      (hreply : c.validationWrites = [])
      (hrec : c.received = got)
  | reply (w : PendingWrite)
      (hconn : c.connecting = false)
      (hreads : c.reads = [])
      (hreply : c.validationWrites = [w])
      (hrec : c.received.length = byteSize UInt64)
  | header (first got : List UInt8)
      (hconn : c.connecting = false)
      (hreads : c.reads = [⟨.header, byteSize (MessageHeader T), got⟩])
      (hreply : c.validationWrites = [])
      (hrec : c.received = first ++ got)
      (hfirst : first.length = byteSize UInt64)
  | body (want : Nat) (got : List UInt8)
      (hconn : c.connecting = false)
      (hreads : c.reads = [⟨.body, want, got⟩])
      (hreply : c.validationWrites = [])
      (hrec :
        c.received.length =
          byteSize UInt64 + byteSize (MessageHeader T) + got.length)
      (hwant :
        stream.length < byteSize UInt64 + byteSize (MessageHeader T) + want)
  | ended
      (hconn : c.connecting = false)
      (hreads : c.reads = [])
      (hreply : c.validationWrites = [])

/-- A client, as far as it is given a part of a starved stream. -/
structure StarvedInv (stream : List UInt8) (c : Connection T) : Prop where
  owner : c.nowner = .client
  state : c.received <+: stream → Reading stream c ∧ c.delivered = []

end Model

section Frame

variable {stream : List UInt8} {c c' : Connection T}

/-- Nothing that a client's reader depends on differs. -/
structure SameReading (c c' : Connection T) : Prop
    extends SameReader c c' where
  owner : c'.nowner = c.nowner
  connecting : c'.connecting = c.connecting
  reply : c'.validationWrites = c.validationWrites

/-- Calls from the outside do not concern the reader. -/
theorem SameReading.update
    {isOpen : Bool} {posted : List (Message T)} {closing : Nat} :
    SameReading c
      { c with
        isOpen := isOpen
        posted := posted
        closing := closing } :=
  ⟨⟨rfl, rfl, rfl, rfl⟩, rfl, rfl, rfl⟩

/-- Writes of messages do not concern it either. -/
theorem SameReading.of_hands
    (hs : Hands c c')
    (hr : SameReader c c') :
    SameReading c c' := by
  obtain ⟨ws, hmessages, hwrites, _⟩ := hs.started
  refine ⟨hr, hs.owner, hs.connecting, ?_⟩
  have hnone : (ws.filter fun w => !w.isMessage) = [] := by
    rw [List.filter_eq_nil_iff]
    intro w hw
    simp [hmessages w hw]
  unfold validationWrites
  rw [hwrites, List.filter_append, hnone, List.append_nil]

variable [Layout (MessageHeader T)]

theorem Reading.congr
    (h : Reading stream c)
    (hs : SameReading c c') :
    Reading stream c' := by
  cases h with
  | connecting hconn hreads hreply hrec =>
      exact .connecting (hs.connecting.trans hconn) (hs.reads.trans hreads)
        (hs.reply.trans hreply) (hs.received.trans hrec)
  | challenge got hconn hreads hreply hrec =>
      exact .challenge got (hs.connecting.trans hconn)
        (hs.reads.trans hreads) (hs.reply.trans hreply)
        (hs.received.trans hrec)
  | reply w hconn hreads hreply hrec =>
      refine .reply w (hs.connecting.trans hconn) (hs.reads.trans hreads)
        (hs.reply.trans hreply) ?_
      rw [hs.received, hrec]
  | header first got hconn hreads hreply hrec hfirst =>
      exact .header first got (hs.connecting.trans hconn)
        (hs.reads.trans hreads) (hs.reply.trans hreply)
        (hs.received.trans hrec) hfirst
  | body want got hconn hreads hreply hrec hwant =>
      refine .body want got (hs.connecting.trans hconn)
        (hs.reads.trans hreads) (hs.reply.trans hreply) ?_ hwant
      rw [hs.received, hrec]
  | ended hconn hreads hreply =>
      exact .ended (hs.connecting.trans hconn) (hs.reads.trans hreads)
        (hs.reply.trans hreply)

theorem StarvedInv.congr
    (h : StarvedInv stream c)
    (hs : SameReading c c') :
    StarvedInv stream c' := by
  refine ⟨hs.owner.trans h.owner, fun hpre => ?_⟩
  rw [hs.received] at hpre
  obtain ⟨hreading, hdel⟩ := h.state hpre
  exact ⟨hreading.congr hs, hs.delivered.trans hdel⟩

end Frame

section StepLemma

variable [Layout (MessageHeader T)]
variable {stream : List UInt8} {c c' : Connection T}

/-- More bytes of the outstanding read. -/
theorem Reading.recv
    {i : Nat} {r : PendingRead}
    (h : Reading stream c)
    (hr : c.reads[i]? = some r)
    (bytes : List UInt8) :
    Reading stream
      { c with
        reads := c.reads.set i { r with got := r.got ++ bytes }
        received := c.received ++ bytes } := by
  cases h with
  | connecting hconn hreads hreply hrec => simp [hreads] at hr
  | challenge got hconn hreads hreply hrec =>
      obtain ⟨rfl, _, hset⟩ := only_item hr hreads
      exact .challenge _ hconn (hset _) hreply (by simp [hrec])
  | reply w hconn hreads hreply hrec => simp [hreads] at hr
  | header first got hconn hreads hreply hrec hfirst =>
      obtain ⟨rfl, _, hset⟩ := only_item hr hreads
      exact .header first _ hconn (hset _) hreply (by simp [hrec]) hfirst
  | body want got hconn hreads hreply hrec hwant =>
      obtain ⟨rfl, _, hset⟩ := only_item hr hreads
      refine .body want _ hconn (hset _) hreply ?_ hwant
      simp only [List.length_append, hrec]
      omega
  | ended hconn hreads hreply => simp [hreads] at hr

/-- A read that failed is not started again. -/
theorem Reading.readFail
    {i : Nat} {r : PendingRead}
    (h : Reading stream c)
    (hr : c.reads[i]? = some r) :
    Reading stream ((c.dropRead i).close) := by
  cases h with
  | connecting hconn hreads hreply hrec => simp [hreads] at hr
  | challenge got hconn hreads hreply hrec =>
      exact .ended hconn (only_item hr hreads).2.1 hreply
  | reply w hconn hreads hreply hrec => simp [hreads] at hr
  | header first got hconn hreads hreply hrec hfirst =>
      exact .ended hconn (only_item hr hreads).2.1 hreply
  | body want got hconn hreads hreply hrec hwant =>
      exact .ended hconn (only_item hr hreads).2.1 hreply
  | ended hconn hreads hreply => simp [hreads] at hr

/-- A complete header announces more than the stream has. -/
theorem reading_onReadHeader
    {first got : List UInt8} {u : Upcall T}
    (hstarved : Starved T stream)
    (hpre : c.received <+: stream)
    (hconn : c.connecting = false)
    (hreads : c.reads = [])
    (hreply : c.validationWrites = [])
    (hrec : c.received = first ++ got)
    (hfirst : first.length = byteSize UInt64)
    (hfull : got.length = byteSize (MessageHeader T))
    (hon : c.onReadHeader got = (c', u)) :
    Reading stream c' ∧ c'.delivered = c.delivered := by
  obtain ⟨rest, hstream⟩ := hpre
  have hheader : (ofBytes got : MessageHeader T) = firstHeader stream := by
    unfold firstHeader
    rw [← hstream, hrec, List.append_assoc, List.drop_left' hfirst,
      List.take_left' hfull]
  have hshort := hstarved
  unfold Starved at hshort
  rw [← hheader] at hshort
  simp only [onReadHeader] at hon
  split at hon
  · cases hon
    refine ⟨?_, rfl⟩
    refine .body (ofBytes got : MessageHeader T).size.toNat [] hconn ?_
      hreply ?_ hshort
    · simp [mfReadBody, asyncRead, hreads, List.takeD_length]
    · show c.received.length = _
      rw [hrec, List.length_append, hfirst, hfull]
      rfl
  · next hzero =>
    -- a message without a body would be complete
    exfalso
    have hsize : (ofBytes got : MessageHeader T).size.toNat = 0 := by
      rw [UInt32.lt_iff_toNat_lt] at hzero
      exact Nat.le_zero.mp (Nat.not_lt.mp hzero)
    rw [hsize, ← hstream, hrec] at hshort
    simp only [List.length_append, hfirst, hfull] at hshort
    omega

/-- A completed read. -/
theorem Reading.readDone
    {i : Nat} {r : PendingRead} {u : Upcall T}
    (hstarved : Starved T stream)
    (h : Reading stream c)
    (howner : c.nowner = .client)
    (hpre : c.received <+: stream)
    (hr : c.reads[i]? = some r)
    (hfull : r.got.length = r.want)
    (hon : (c.dropRead i).onRead r = (c', u)) :
    Reading stream c' ∧ c'.delivered = c.delivered := by
  cases h with
  | connecting hconn hreads hreply hrec => simp [hreads] at hr
  | challenge got hconn hreads hreply hrec =>
      obtain ⟨rfl, herase, _⟩ := only_item hr hreads
      have hclient : (c.dropRead i).nowner = .client := howner
      simp only [onRead, onReadValidation, hclient] at hon
      cases hon
      refine
        ⟨.reply ⟨.validation, toBytes (mfScramble (ofBytes got))⟩ hconn herase
          ?_ ?_, rfl⟩
      · show (c.writes ++ [_]).filter _ = _
        rw [List.filter_append]
        exact congrArg (· ++ _) hreply
      · show c.received.length = _
        rw [hrec]
        exact hfull
  | reply w hconn hreads hreply hrec => simp [hreads] at hr
  | header first got hconn hreads hreply hrec hfirst =>
      obtain ⟨rfl, herase, _⟩ := only_item hr hreads
      exact reading_onReadHeader (c := c.dropRead i) hstarved hpre hconn
        herase hreply hrec hfirst hfull hon
  | body want got hconn hreads hreply hrec hwant =>
      obtain ⟨rfl, herase, _⟩ := only_item hr hreads
      -- the stream does not have the bytes that were read
      exfalso
      have hle := hpre.length_le
      have hgot : got.length = want := hfull
      omega
  | ended hconn hreads hreply => simp [hreads] at hr

omit [Layout (MessageHeader T)] in
/-- Without a reply under way every write is one of a message. -/
theorem isMessage_of_no_reply
    {i : Nat} {w : PendingWrite}
    (hreply : c.validationWrites = [])
    (hw : c.writes[i]? = some w) :
    w.isMessage = true := by
  have hall := List.filter_eq_nil_iff.mp hreply w (List.mem_of_getElem? hw)
  simpa using hall

/-- The reply is written in one phase only, and by one write. -/
theorem Reading.replying
    {i : Nat} {w : PendingWrite}
    (h : Reading stream c)
    (hw : c.writes[i]? = some w)
    (hm : w.isMessage = false) :
    c.connecting = false ∧ c.reads = [] ∧
      c.received.length = byteSize UInt64 ∧
      (c.dropWrite i).validationWrites = [] ∧
      ∀ w' : PendingWrite, w'.isMessage = false →
        (c.writes.set i w').filter (fun w => !w.isMessage) = [w'] := by
  have hnot (hreply : c.validationWrites = []) : False := by
    rw [isMessage_of_no_reply hreply hw] at hm
    cases hm
  cases h with
  | connecting hconn hreads hreply hrec => exact (hnot hreply).elim
  | challenge got hconn hreads hreply hrec => exact (hnot hreply).elim
  | reply w' hconn hreads hreply hrec =>
      obtain ⟨_, herase, hset⟩ :=
        filter_eq_singleton hw (by simp [hm]) hreply
      exact ⟨hconn, hreads, hrec, herase, fun b hb => hset b (by simp [hb])⟩
  | header first got hconn hreads hreply hrec hfirst =>
      exact (hnot hreply).elim
  | body want got hconn hreads hreply hrec hwant =>
      exact (hnot hreply).elim
  | ended hconn hreads hreply => exact (hnot hreply).elim

/-- Bytes of a write move. -/
theorem Reading.transfer
    {i n : Nat} {w : PendingWrite} {wire : List UInt8}
    (h : Reading stream c)
    (hw : c.writes[i]? = some w) :
    Reading stream
      { c with
        writes := c.writes.set i { w with left := w.left.drop n }
        wire := wire } := by
  cases hm : w.isMessage with
  | true =>
      have hdrop : (!w.isMessage) = false := by simp [hm]
      refine h.congr ⟨⟨rfl, rfl, rfl, rfl⟩, rfl, rfl, ?_⟩
      exact filter_set_of_neg hw hdrop hdrop
  | false =>
      obtain ⟨hconn, hreads, hrec, _, hset⟩ := h.replying hw hm
      exact .reply _ hconn hreads (hset _ hm) hrec

/-- A client that has written its reply goes on with a header. -/
theorem onWrite_validation_of_client
    {w : PendingWrite}
    (howner : c.nowner = .client)
    (hm : w.isMessage = false) :
    c.onWrite w = c.mfReadHeader := by
  have hp : w.payload = .validation := by
    simpa [PendingWrite.isMessage] using hm
  simp only [onWrite, hp, onWriteValidation, howner]

/-- Once the reply is written the reader goes on with a header. -/
theorem Reading.writeDone
    {i : Nat} {w : PendingWrite}
    (h : Reading stream c)
    (howner : c.nowner = .client)
    (hw : c.writes[i]? = some w) :
    Reading stream ((c.dropWrite i).onWrite w) := by
  cases hm : w.isMessage with
  | true =>
      have hdrop : SameReading c (c.dropWrite i) :=
        ⟨⟨rfl, rfl, rfl, rfl⟩, rfl, rfl,
          filter_eraseIdx_of_neg hw (by simp [hm])⟩
      have hwrite : SameReading (c.dropWrite i) ((c.dropWrite i).onWrite w) :=
        .of_hands (hands_onWrite _ hm) (sameReader_onWrite _ hm)
      exact (h.congr hdrop).congr hwrite
  | false =>
      obtain ⟨hconn, hreads, hrec, herase, _⟩ := h.replying hw hm
      have hclient : (c.dropWrite i).nowner = .client := howner
      rw [onWrite_validation_of_client hclient hm]
      refine .header c.received [] hconn ?_ herase ?_ hrec
      · simp [mfReadHeader, asyncRead, dropWrite, hreads]
      · simp [mfReadHeader, asyncRead, dropWrite]

/-- A write that failed is not started again. -/
theorem Reading.writeFail
    {i : Nat} {w : PendingWrite}
    (h : Reading stream c)
    (hw : c.writes[i]? = some w) :
    Reading stream ((c.dropWrite i).close) := by
  cases hm : w.isMessage with
  | true =>
      refine h.congr ⟨⟨rfl, rfl, rfl, rfl⟩, rfl, rfl, ?_⟩
      exact filter_eraseIdx_of_neg hw (by simp [hm])
  | false =>
      obtain ⟨hconn, hreads, _, herase, _⟩ := h.replying hw hm
      exact .ended hconn hreads herase

/-- What a client has written delivers nothing. -/
theorem delivered_writeDone
    (howner : c.nowner = .client)
    (i : Nat) (w : PendingWrite) :
    ((c.dropWrite i).onWrite w).delivered = c.delivered := by
  cases hm : w.isMessage with
  | true => exact (sameReader_onWrite _ hm).delivered
  | false =>
      have hclient : (c.dropWrite i).nowner = .client := howner
      rw [onWrite_validation_of_client hclient hm]
      rfl

/-- A connection that has not connected yet has read nothing. -/
theorem Reading.of_connecting
    (h : Reading stream c)
    (hconn : c.connecting = true) :
    c.reads = [] ∧ c.validationWrites = [] ∧ c.received = [] := by
  have hnot (hconn' : c.connecting = false) : False := by
    rw [hconn] at hconn'
    cases hconn'
  cases h with
  | connecting _ hreads hreply hrec => exact ⟨hreads, hreply, hrec⟩
  | challenge got hconn' => exact (hnot hconn').elim
  | reply w hconn' => exact (hnot hconn').elim
  | header first got hconn' => exact (hnot hconn').elim
  | body want got hconn' => exact (hnot hconn').elim
  | ended hconn' => exact (hnot hconn').elim

/-- A handler keeps the reader where the stream put it. -/
theorem ioStep_reading
    {e : IoEvent} {u : Upcall T}
    (hstarved : Starved T stream)
    (hio : IoStep c e c' u)
    (howner : c.nowner = .client)
    (hpre : c.received <+: stream)
    (h : Reading stream c) :
    Reading stream c' ∧ c'.delivered = c.delivered := by
  cases hio with
  | @runSend i msg hmsg =>
      have hsend :
          SameReading (c.dropPosted i) ((c.dropPosted i).onSend msg) :=
        .of_hands (hands_onSend _ msg) (sameReader_onSend _ msg)
      have h₀ : Reading stream (c.dropPosted i) := h.congr .update
      exact ⟨h₀.congr hsend, hsend.delivered⟩
  | runClose hclosing => exact ⟨h.congr .update, rfl⟩
  | connected hconn =>
      obtain ⟨hreads, hreply, hrec⟩ := h.of_connecting hconn
      refine ⟨.challenge [] rfl ?_ hreply hrec, rfl⟩
      simp [mfReadValidation, asyncRead, hreads]
  | connectFailed hconn =>
      obtain ⟨hreads, hreply, _⟩ := h.of_connecting hconn
      exact ⟨.ended rfl hreads hreply, rfl⟩
  | recv hr hopen hwant => exact ⟨h.recv hr _, rfl⟩
  | readDone hr hfull hon => exact h.readDone hstarved howner hpre hr hfull hon
  | readFail hr => exact ⟨h.readFail hr, rfl⟩
  | transfer hw hopen hleft => exact ⟨h.transfer hw, rfl⟩
  | @writeDone i w hw hleft =>
      exact ⟨h.writeDone howner hw, delivered_writeDone howner i w⟩
  | writeFail hw => exact ⟨h.writeFail hw, rfl⟩

/-- A client stays a client, and validates nobody. -/
theorem ioStep_client
    {e : IoEvent} {u : Upcall T}
    (hio : IoStep c e c' u)
    (howner : c.nowner = .client) :
    c'.nowner = .client ∧ u ≠ .validated := by
  cases hio with
  | runSend hmsg => exact ⟨(hands_onSend _ _).owner.trans howner, by simp⟩
  | runClose hclosing => exact ⟨howner, by simp⟩
  | connected hconn => exact ⟨howner, by simp⟩
  | connectFailed hconn => exact ⟨howner, by simp⟩
  | recv hr hopen hwant => exact ⟨howner, by simp⟩
  | @readDone i r c' u hr hfull hon =>
      have hclient : (c.dropRead i).nowner = .client := howner
      by_cases hp : r.payload = .validation
      · simp only [onRead, hp, onReadValidation, hclient] at hon
        cases hon
        exact ⟨rfl, by simp⟩
      · have hsame := sameOutput_onRead (Or.inr hp) hon
        exact ⟨hsame.owner.trans hclient, (onRead_frame hp hon).2.2.2⟩
  | readFail hr => exact ⟨howner, by simp⟩
  | transfer hw hopen hleft => exact ⟨howner, by simp⟩
  | @writeDone i w hw hleft =>
      have hclient : (c.dropWrite i).nowner = .client := howner
      refine ⟨?_, by simp⟩
      cases hm : w.isMessage with
      | true => exact (hands_onWrite _ hm).owner.trans hclient
      | false =>
          rw [onWrite_validation_of_client hclient hm]
          exact hclient
  | writeFail hw => exact ⟨howner, by simp⟩

/-- A step of a client that is given a part of a starved stream. -/
theorem step_starvedInv
    (hstarved : Starved T stream)
    (c : Connection T) (e : ConnEvent T) (c' : Connection T)
    (h : StarvedInv stream c)
    (hstep : c.step e = some c') :
    StarvedInv stream c' := by
  rcases step_cases hstep with
    ⟨msg, _, rfl⟩ | ⟨_, rfl⟩ | ⟨e₀, u, c₀, rfl, hio, hc'⟩
  · exact h.congr .update
  · rw [disconnect_eq]
    exact h.congr .update
  · obtain ⟨howner, hu⟩ := ioStep_client hio h.owner
    obtain rfl : c' = c₀ := by
      rcases hc' with hc' | ⟨hvalidated, _⟩
      · exact hc'
      · exact absurd hvalidated hu
    refine ⟨howner, fun hpre => ?_⟩
    have hpre₀ := (ioStep_received hio).trans hpre
    obtain ⟨hreading, hdel⟩ := h.state hpre₀
    obtain ⟨hreading', hsame⟩ :=
      ioStep_reading hstarved hio h.owner hpre₀ hreading
    exact ⟨hreading', hsame.trans hdel⟩

/-- A client that is given a stream that ends before its first message is
complete delivers nothing. -/
theorem delivered_eq_nil [Inhabited T]
    {es : List (ConnEvent T)}
    (hstarved : Starved T stream)
    (hrun : run step newClient es = some c)
    (hstream : c.received <+: stream) :
    c.delivered = [] := by
  have h₀ : StarvedInv stream (newClient : Connection T) :=
    ⟨rfl, fun _ => ⟨.connecting rfl rfl rfl rfl, rfl⟩⟩
  have h : StarvedInv stream c :=
    reachable_invariant (step_starvedInv hstarved) h₀ ⟨es, hrun⟩
  exact (h.state hstream).2

end StepLemma

end Connection

end SpeciesSimulator
