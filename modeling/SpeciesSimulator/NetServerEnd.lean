import SpeciesSimulator.NetChallengeFirst
import SpeciesSimulator.NetPastHandshake

/-!
# The server's end of a connection

A connection of the server whose peer answers the challenge as a client does:
what comes in is the right reply and the frames of the peer's messages after
it.  Its reader waits for the reply, is behind the handshake, or has ended
with the socket closed.  In between, from the moment the reply is found to be
right until `on_client_validated` returns, nothing is read.

Main facts:
* `ioStep_serverReads`: a handler keeps the reader where the stream put it, and
  a complete reply is always found to be right;
* `step_serverEnd`: a step keeps the stream and the reader in place, if bytes
  of messages follow those of the challenge.
-/

namespace SpeciesSimulator

open ByteLayout Transition Message

universe u

namespace Connection

variable {T : Type u}

/-- Nothing was delivered, and no body was read. -/
structure Unread (c : Connection T) : Prop where
  delivered : c.delivered = []
  temp : c.tempMessageIn.body = []

theorem Unread.congr
    {c c' : Connection T}
    (h : Unread c)
    (hs : SameReader c c') :
    Unread c' where
  delivered := hs.delivered.trans h.delivered
  temp := by rw [hs.temp, h.temp]

section Closing

variable [Layout (MessageHeader T)]
variable {c c' : Connection T} {e : IoEvent} {u : Upcall T}

/-- Only connecting opens a socket. -/
theorem isOpen_of_ioStep
    (hio : IoStep c e c' u)
    (hconn : ∀ isOpen, e ≠ .connectFailed isOpen)
    (hopen : c'.isOpen = true) :
    c.isOpen = true := by
  cases hio with
  | @runSend i msg hmsg =>
      rw [(hands_onSend (c.dropPosted i) msg).isOpen] at hopen
      exact hopen
  | runClose hclosing => cases hopen
  | connected => exact hopen
  | connectFailed => exact absurd rfl (hconn _)
  | recv => exact hopen
  | readDone hr hfull hon =>
      cases onRead_cases hon with
      | validated => exact hopen
      | refused => cases hopen
      | reply => exact hopen
      | header => exact hopen
      | noBody => exact hopen
      | body => exact hopen
  | readFail => cases hopen
  | transfer => exact hopen
  | @writeDone i w hw hleft =>
      cases hm : w.isMessage with
      | true =>
          rw [(hands_onWrite (c.dropWrite i) hm).isOpen] at hopen
          exact hopen
      | false =>
          have hp : w.payload = .validation := by
            simpa [PendingWrite.isMessage] using hm
          simp only [onWrite, hp, onWriteValidation] at hopen
          split at hopen
          · exact hopen
          · exact hopen
  | writeFail => cases hopen

/-- The chain of message writes is in order, or a failed write has closed the
socket. -/
def Unbroken (c : Connection T) : Prop :=
  SendInv c ∨ Stuck c ∧ c.isOpen = false

theorem Unbroken.chain
    (h : Unbroken c) :
    SendInv c ∨ Stuck c := by
  rcases h with h | ⟨h, _⟩
  · exact Or.inl h
  · exact Or.inr h

theorem Unbroken.handed_prefix
    (h : Unbroken c) :
    c.handed <+: frames c.ran := by
  rcases h with h | ⟨h, _⟩
  · exact h.handed_prefix
  · exact h.handed

theorem Unbroken.congr
    (h : Unbroken c)
    (hs : SameWriter c c')
    (hopen : c'.isOpen = true → c.isOpen = true) :
    Unbroken c' := by
  rcases h with h | ⟨h, hclosed⟩
  · exact Or.inl (h.congr hs)
  · refine Or.inr ⟨h.congr hs, ?_⟩
    by_contra hne
    rw [hopen (by simpa using hne)] at hclosed
    cases hclosed

theorem ioStep_unbroken
    (hio : IoStep c e c' u)
    (hconn : ∀ isOpen, e ≠ .connectFailed isOpen)
    (h : Unbroken c) :
    Unbroken c' := by
  rcases h with h | ⟨h, hclosed⟩
  · rcases ioStep_sendInv hio h with h' | ⟨⟨i, rfl⟩, hstuck⟩
    · exact Or.inl h'
    · refine Or.inr ⟨hstuck, ?_⟩
      cases hio with
      | writeFail => rfl
  · refine Or.inr ⟨ioStep_stuck hio h, ?_⟩
    by_contra hne
    rw [isOpen_of_ioStep hio hconn (by simpa using hne)] at hclosed
    cases hclosed

end Closing

section Reading

variable [Layout (MessageHeader T)]

/-- How far a connection of the server has come that is given the reply and
the frames of `msgs`. -/
inductive ServerReads
    (reply : UInt64) (msgs : List (Message T)) (c : Connection T) : Prop
  | awaiting
      (hreads : c.reads = [⟨.validation, byteSize UInt64, c.received⟩])
      (hunread : Unread c)
  | validated
      (hreads : c.reads = [])
      (hrec : c.received = toBytes reply)
      (hunread : Unread c)
  | frames
      (hpast : PastHandshake (toBytes reply) msgs c)
  | ended
      (hreads : c.reads = [])
      (hclosed : c.isOpen = false)
      (hunread : Unread c)

variable {reply : UInt64} {msgs : List (Message T)} {c c' : Connection T}

theorem ServerReads.congr
    (h : ServerReads reply msgs c)
    (hs : SameReader c c')
    (hopen : c'.isOpen = true → c.isOpen = true) :
    ServerReads reply msgs c' := by
  cases h with
  | awaiting hreads hunread =>
      refine .awaiting ?_ (hunread.congr hs)
      rw [hs.reads, hs.received, hreads]
  | validated hreads hrec hunread =>
      exact .validated (hs.reads.trans hreads) (hs.received.trans hrec)
        (hunread.congr hs)
  | frames hpast => exact .frames (hpast.congr hs hopen)
  | ended hreads hclosed hunread =>
      refine .ended (hs.reads.trans hreads) ?_ (hunread.congr hs)
      by_contra hne
      rw [hopen (by simpa using hne)] at hclosed
      cases hclosed

/-- What is delivered is a beginning of what the frames deliver. -/
theorem ServerReads.delivered
    (h : ServerReads reply msgs c) :
    c.delivered <+: deliveries [] msgs := by
  cases h with
  | awaiting hreads hunread =>
      rw [hunread.delivered]
      exact List.nil_prefix
  | validated hreads hrec hunread =>
      rw [hunread.delivered]
      exact List.nil_prefix
  | frames hpast => exact hpast.delivered
  | ended hreads hclosed hunread =>
      rw [hunread.delivered]
      exact List.nil_prefix

/-- Eight bytes of the stream are the reply. -/
theorem eq_reply_of_prefix
    {got rest : List UInt8}
    (hgot : got <+: toBytes reply ++ rest)
    (hlen : got.length = byteSize UInt64) :
    got = toBytes reply := by
  have hle : got.length ≤ (toBytes reply).length := by
    rw [hlen, length_toBytes]
  exact
    (List.prefix_of_prefix_length_le hgot (List.prefix_append _ _) hle).eq_of_length
      (by rw [hlen, length_toBytes])

/-- What a completed read does. -/
theorem ServerReads.readDone
    {i : Nat} {r : PendingRead} {u : Upcall T}
    (hall : Announced msgs)
    (howner : c.nowner = .server)
    (hcheck : c.nHandshakeCheck = reply)
    (h : ServerReads reply msgs c)
    (hpre : c.received <+: toBytes reply ++ Message.frames msgs)
    (hr : c.reads[i]? = some r)
    (hfull : r.got.length = r.want)
    (hon : (c.dropRead i).onRead r = (c', u)) :
    ServerReads reply msgs c' ∧
      (r.payload = .validation → u = .validated) ∧
      (u = .validated →
        c'.reads = [] ∧ c'.received = toBytes reply ∧ Unread c') := by
  cases h with
  | awaiting hreads hunread =>
      obtain ⟨rfl, herase, _⟩ := ListSlots.only_item hr hreads
      have hreply : c.received = toBytes reply :=
        eq_reply_of_prefix hpre hfull
      have hserver : (c.dropRead i).nowner = .server := howner
      have hright : ofBytes c.received = (c.dropRead i).nHandshakeCheck := by
        rw [hreply, ofBytes_toBytes]
        exact hcheck.symm
      simp only [onRead] at hon
      rw [onReadValidation_of_server hserver, if_pos hright] at hon
      cases hon
      have hunread' : Unread
          { c.dropRead i with nHandshakeIn := ofBytes c.received } :=
        ⟨hunread.delivered, hunread.temp⟩
      exact ⟨.validated herase hreply hunread', fun _ => rfl,
        fun _ => ⟨herase, hreply, hunread'⟩⟩
  | validated hreads => simp [hreads] at hr
  | frames hpast =>
      have hp := hpast.state.payload_ne hr
      obtain ⟨hpast', hu⟩ := hpast.readDone hall hpre hr hfull hon
      exact ⟨.frames hpast', fun hv => absurd hv hp, fun hv => absurd hv hu⟩
  | ended hreads => simp [hreads] at hr

theorem ServerReads.recv
    {i : Nat} {r : PendingRead}
    (h : ServerReads reply msgs c)
    (hr : c.reads[i]? = some r)
    (bytes : List UInt8) :
    ServerReads reply msgs
      { c with
        reads := c.reads.set i { r with got := r.got ++ bytes }
        received := c.received ++ bytes } := by
  cases h with
  | awaiting hreads hunread =>
      obtain ⟨rfl, _, hset⟩ := ListSlots.only_item hr hreads
      exact .awaiting (hset _) ⟨hunread.delivered, hunread.temp⟩
  | validated hreads => simp [hreads] at hr
  | frames hpast => exact .frames (hpast.recv hr bytes)
  | ended hreads => simp [hreads] at hr

theorem ServerReads.readFail
    {i : Nat} {r : PendingRead}
    (h : ServerReads reply msgs c)
    (hr : c.reads[i]? = some r) :
    ServerReads reply msgs ((c.dropRead i).close) := by
  cases h with
  | awaiting hreads hunread =>
      obtain ⟨_, herase, _⟩ := ListSlots.only_item hr hreads
      exact .ended herase rfl ⟨hunread.delivered, hunread.temp⟩
  | validated hreads => simp [hreads] at hr
  | frames hpast => exact .frames (hpast.readFail hr)
  | ended hreads => simp [hreads] at hr

/-- A handler keeps the reader where the stream put it; if it validates the
peer, it has read the reply and nothing else. -/
theorem ioStep_serverReads
    {e : IoEvent} {u : Upcall T}
    (hall : Announced msgs)
    (hio : IoStep c e c' u)
    (hside : ServerSide c)
    (hreply : mfScramble c.nHandshakeOut = reply)
    (hpre : c.received <+: toBytes reply ++ Message.frames msgs)
    (h : ServerReads reply msgs c) :
    ServerReads reply msgs c' ∧
      (u = .validated →
        c'.reads = [] ∧ c'.received = toBytes reply ∧ Unread c') := by
  cases hio with
  | @runSend i msg hmsg =>
      have hsame := sameGate_runSend hmsg
      exact ⟨h.congr hsame.toSameReader hsame.isOpen, by simp⟩
  | runClose hclosing => exact ⟨h.congr .update (by simp [close]), by simp⟩
  | connected hconn =>
      rw [hside.connecting] at hconn
      cases hconn
  | connectFailed hconn =>
      rw [hside.connecting] at hconn
      cases hconn
  | recv hr hopen hwant => exact ⟨h.recv hr _, by simp⟩
  | readDone hr hfull hon =>
      have hcheck : c.nHandshakeCheck = reply := hside.check.trans hreply
      obtain ⟨h', _, hvalidated⟩ :=
        h.readDone hall hside.owner hcheck hpre hr hfull hon
      exact ⟨h', hvalidated⟩
  | readFail hr => exact ⟨h.readFail hr, by simp⟩
  | transfer hw hopen hleft => exact ⟨h.congr .update id, by simp⟩
  | @writeDone i w hw hleft =>
      have hsame := sameGate_writeDone hside.owner i w
      exact ⟨h.congr hsame.toSameReader hsame.isOpen, by simp⟩
  | writeFail hw => exact ⟨h.congr .update (by simp [close]), by simp⟩

/-- `mf_read_header`, once the peer is validated. -/
theorem serverReads_mfReadHeader
    (hreads : c.reads = [])
    (hrec : c.received = toBytes reply)
    (hunread : Unread c) :
    ServerReads reply msgs c.mfReadHeader :=
  .frames
    (pastHandshake_mfReadHeader hreads hrec hunread.temp hunread.delivered)

end Reading

section Steps

variable [Layout (MessageHeader T)]

/-- The server's end of a connection that has issued `challenge`, as far as
what it is given is the right reply and the frames of `msgs`. -/
structure ServerEnd
    (challenge : UInt64) (msgs : List (Message T)) (c : Connection T) :
    Prop where
  turn : InTurn challenge c
  issued : c.nHandshakeOut = challenge
  check : c.nHandshakeCheck = mfScramble challenge
  unbroken : Unbroken c
  reading :
    c.received <+: toBytes (mfScramble challenge) ++ Message.frames msgs →
      ServerReads (mfScramble challenge) msgs c

variable {challenge : UInt64} {msgs : List (Message T)}
variable {c c' : Connection T}

theorem ServerEnd.side
    (h : ServerEnd challenge msgs c) :
    ServerSide c :=
  ⟨h.turn.owner, h.turn.connecting, by rw [h.check, h.issued]⟩

/-- What goes out is the challenge and frames after it. -/
theorem ServerEnd.wire_prefix_of
    (h : ServerEnd challenge msgs c) :
    c.wire <+: toBytes challenge ++ Message.frames c.ran :=
  h.turn.wire_prefix_of

/-- Calls from the outside do not concern the handshake. -/
theorem ServerEnd.update
    {posted : List (Message T)} {closing : Nat}
    (h : ServerEnd challenge msgs c) :
    ServerEnd challenge msgs { c with posted := posted, closing := closing } where
  turn := h.turn.congr (.update id)
  issued := h.issued
  check := h.check
  unbroken := h.unbroken.congr .update id
  reading := fun hpre => (h.reading hpre).congr .update id

/-- The challenge and the reply to it are chosen once. -/
theorem ioStep_challenge
    {e : IoEvent} {u : Upcall T}
    (hio : IoStep c e c' u)
    (howner : c.nowner = .server) :
    c'.nHandshakeOut = c.nHandshakeOut ∧
      c'.nHandshakeCheck = c.nHandshakeCheck := by
  cases hio with
  | runSend hmsg =>
      have hsame := sameGate_runSend hmsg
      exact ⟨hsame.challenge, hsame.check⟩
  | runClose => exact ⟨rfl, rfl⟩
  | connected => exact ⟨rfl, rfl⟩
  | connectFailed => exact ⟨rfl, rfl⟩
  | recv => exact ⟨rfl, rfl⟩
  | readDone hr hfull hon =>
      cases onRead_cases hon with
      | validated => exact ⟨rfl, rfl⟩
      | refused => exact ⟨rfl, rfl⟩
      | reply hp hclient =>
          rw [show c.nowner = .client from hclient] at howner
          cases howner
      | header => exact ⟨rfl, rfl⟩
      | noBody => exact ⟨rfl, rfl⟩
      | body => exact ⟨rfl, rfl⟩
  | readFail => exact ⟨rfl, rfl⟩
  | transfer => exact ⟨rfl, rfl⟩
  | @writeDone i w hw hleft =>
      have hsame := sameGate_writeDone howner i w
      exact ⟨hsame.challenge, hsame.check⟩
  | writeFail => exact ⟨rfl, rfl⟩

/-- A handler keeps the server's end, if bytes of messages follow those of the
challenge. -/
theorem ioStep_serverEnd
    {e : IoEvent} {u : Upcall T}
    (hall : Announced msgs)
    (hio : IoStep c e c' u)
    (hfirst : ChallengeFirst c (.io e))
    (h : ServerEnd challenge msgs c) :
    ServerEnd challenge msgs c' ∧
      (u = .validated →
        c.received <+:
            toBytes (mfScramble challenge) ++ Message.frames msgs →
          c'.reads = [] ∧
            c'.received = toBytes (mfScramble challenge) ∧ Unread c') := by
  obtain ⟨hout, hcheck⟩ := ioStep_challenge hio h.turn.owner
  have hreply : mfScramble c.nHandshakeOut = mfScramble challenge := by
    rw [h.issued]
  have hconn : ∀ isOpen, e ≠ .connectFailed isOpen := by
    rintro isOpen rfl
    cases hio with
    | connectFailed hconn =>
        rw [h.turn.connecting] at hconn
        cases hconn
  refine ⟨⟨ioStep_inTurn hio hfirst h.turn, hout.trans h.issued,
    hcheck.trans h.check, ioStep_unbroken hio hconn h.unbroken, ?_⟩, ?_⟩
  · intro hpre
    have hpre₀ := (ioStep_received hio).trans hpre
    exact (ioStep_serverReads hall hio h.side hreply hpre₀ (h.reading hpre₀)).1
  · intro hu hpre
    exact (ioStep_serverReads hall hio h.side hreply hpre (h.reading hpre)).2 hu

/-- `mf_read_header`, once the peer is validated. -/
theorem ServerEnd.mfReadHeader
    (h : ServerEnd challenge msgs c)
    (hvalidated :
      c.received <+:
          toBytes (mfScramble challenge) ++ Message.frames msgs →
        c.reads = [] ∧
          c.received = toBytes (mfScramble challenge) ∧ Unread c) :
    ServerEnd challenge msgs c.mfReadHeader where
  turn := h.turn.congr (.update id)
  issued := h.issued
  check := h.check
  unbroken := h.unbroken.congr .update id
  reading := by
    intro hpre
    obtain ⟨hreads, hrec, hunread⟩ := hvalidated hpre
    exact serverReads_mfReadHeader hreads hrec hunread

/-- One step of a connection of the server whose challenge goes first. -/
theorem step_serverEnd
    (hall : Announced msgs)
    (c : Connection T) (e : ConnEvent T) (c' : Connection T)
    (h : ServerEnd challenge msgs c)
    (hfirst : ChallengeFirst c e)
    (hstep : c.step e = some c') :
    ServerEnd challenge msgs c' := by
  rcases step_cases hstep with
    ⟨msg, _, rfl⟩ | ⟨_, rfl⟩ | ⟨e₀, u, c₀, rfl, hio, hc'⟩
  · exact h.update
  · rw [disconnect_eq]
    exact h.update
  · obtain ⟨h₀, hvalidated⟩ := ioStep_serverEnd hall hio hfirst h
    rcases hc' with rfl | ⟨hu, rfl⟩
    · exact h₀
    · refine h₀.mfReadHeader fun hpre => ?_
      exact hvalidated hu ((ioStep_received hio).trans hpre)

variable [Inhabited T]

/-- The accept handler leaves a connection that awaits the reply. -/
theorem serverEnd_acceptConnection
    (greeting : Message T) (now : UInt64) (uid : UInt32) :
    ServerEnd now msgs (acceptConnection greeting now uid) := by
  refine ⟨inTurn_acceptConnection greeting now uid, rfl, rfl, ?_, fun _ => ?_⟩
  · exact Or.inl ⟨.idle rfl rfl rfl, rfl⟩
  · exact .awaiting rfl ⟨rfl, rfl⟩

end Steps

end Connection

end SpeciesSimulator
