import Mathlib.Data.List.TakeDrop
import SpeciesSimulator.NetWire

/-!
# Framing of messages on a connection

After the handshake the writer puts header and body of each message on the
wire, and the peer's reader takes the stream apart again: it reads a header
and, when the header announces a body, the body.  Both start from
`established`.

The reader keeps one `m_tempMessageIn` for the whole connection.  A header
without a body is delivered at once, together with the body that was read
last, so that a message without a body is delivered with the body of the last
message before it that had one.  `deliveries` is this behaviour on lists of
messages.

Main facts:
* `wire_eq_frames`: a writer that is done has put the frames of its messages on
  the wire;
* `delivered_eq_deliveries`: a reader that has consumed the frames of `msgs`
  has delivered `deliveries [] msgs`;
* `wire_round_trip_iff`: the messages delivered are the messages sent, if and
  only if no message without a body follows one with a body.
-/

namespace SpeciesSimulator

open ByteLayout Transition Message

universe u

namespace Message

variable {T : Type u}

/-- The body that is delivered with a message, if `body` was read last. -/
def bodyAfter (body : List UInt8) (msg : Message T) : List UInt8 :=
  if msg.body = [] then body else msg.body

/-- The body that was read last. -/
def lastBody (body : List UInt8) (msgs : List (Message T)) : List UInt8 :=
  msgs.foldl bodyAfter body

/-- What a reader delivers for the frames of a list of messages. -/
def deliveries (body : List UInt8) : List (Message T) → List (Message T)
  | [] => []
  | msg :: msgs =>
      ⟨msg.header, bodyAfter body msg⟩ ::
        deliveries (bodyAfter body msg) msgs

/-- No message without a body comes after one with a body. -/
def EmptyFirst (msgs : List (Message T)) : Prop :=
  msgs.Pairwise fun earlier later => earlier.body ≠ [] → later.body ≠ []

instance (msgs : List (Message T)) : Decidable (EmptyFirst msgs) :=
  inferInstanceAs (Decidable (List.Pairwise _ _))

theorem deliveries_snoc
    (body : List UInt8) (msgs : List (Message T)) (msg : Message T) :
    deliveries body (msgs ++ [msg]) =
      deliveries body msgs ++
        [⟨msg.header, bodyAfter (lastBody body msgs) msg⟩] := by
  induction msgs generalizing body with
  | nil =>
      rfl
  | cons m msgs ih =>
      simp only [List.cons_append, deliveries, ih]
      rfl

theorem lastBody_snoc
    (body : List UInt8) (msgs : List (Message T)) (msg : Message T) :
    lastBody body (msgs ++ [msg]) =
      bodyAfter (lastBody body msgs) msg := by
  simp [lastBody]

/-- The reader is right about every message exactly when nothing was read
before an empty body. -/
theorem deliveries_eq_iff
    (body : List UInt8) (msgs : List (Message T)) :
    deliveries body msgs = msgs ↔
      (body ≠ [] → ∀ msg ∈ msgs, msg.body ≠ []) ∧ EmptyFirst msgs := by
  induction msgs generalizing body with
  | nil =>
      simp [deliveries, EmptyFirst]
  | cons msg msgs ih =>
      have hhead :
          (⟨msg.header, bodyAfter body msg⟩ : Message T) = msg ↔
            bodyAfter body msg = msg.body := by
        constructor
        · intro h
          exact congrArg Message.body h
        · intro h
          rw [h]
      rw [deliveries, List.cons.injEq, hhead, ih]
      unfold EmptyFirst
      rw [List.pairwise_cons]
      by_cases hempty : msg.body = []
      · have hafter : bodyAfter body msg = body := by
          simp [bodyAfter, hempty]
        rw [hafter, hempty]
        constructor
        · rintro ⟨rfl, _, hrest⟩
          exact ⟨by simp, by simp, hrest⟩
        · rintro ⟨hall, _, hrest⟩
          have hbody : body = [] := by
            by_contra hne
            exact hall hne msg (by simp) hempty
          exact ⟨hbody, by simp [hbody], hrest⟩
      · have hafter : bodyAfter body msg = msg.body := by
          simp [bodyAfter, hempty]
        rw [hafter]
        constructor
        · rintro ⟨_, hall, hrest⟩
          refine ⟨?_, fun m hm _ => hall hempty m hm, hrest⟩
          intro _ m hm
          rcases List.mem_cons.mp hm with rfl | hm
          · exact hempty
          · exact hall hempty m hm
        · rintro ⟨_, hlater, hrest⟩
          exact ⟨rfl, fun _ m hm => hlater m hm hempty, hrest⟩

/-- A frame has at least a header. -/
theorem frames_eq_nil
    [Layout (MessageHeader T)]
    {msgs : List (Message T)}
    (h : frames msgs = []) :
    msgs = [] := by
  cases msgs with
  | nil => rfl
  | cons msg msgs =>
      have hlen := congrArg List.length h
      have hpos := size_pos (α := MessageHeader T)
      simp only [frames_cons, frame, List.length_append, length_toBytes,
        List.length_nil] at hlen
      omega

end Message

namespace Connection

variable {T : Type u}

/-- Nothing that concerns incoming messages differs. -/
structure SameReader (c c' : Connection T) : Prop where
  reads : c'.reads = c.reads
  received : c'.received = c.received
  temp : c'.tempMessageIn = c.tempMessageIn
  delivered : c'.delivered = c.delivered

/-- Only what is read is kept. -/
theorem SameReader.update
    {c : Connection T} {nowner : Owner} {isOpen connecting emptyFront : Bool}
    {uid : UInt32} {nHandshakeOut nHandshakeIn nHandshakeCheck : UInt64}
    {qMessagesOut posted ran : List (Message T)} {closing : Nat}
    {writes : List PendingWrite} {handed wire : List UInt8} :
    SameReader c
      { c with
        nowner := nowner
        isOpen := isOpen
        uid := uid
        nHandshakeOut := nHandshakeOut
        nHandshakeIn := nHandshakeIn
        nHandshakeCheck := nHandshakeCheck
        qMessagesOut := qMessagesOut
        posted := posted
        closing := closing
        connecting := connecting
        writes := writes
        ran := ran
        handed := handed
        wire := wire
        emptyFront := emptyFront } :=
  ⟨rfl, rfl, rfl, rfl⟩

/-- A handler that writes does not touch what is read. -/
theorem StartsWrite.sameReader
    {c c' : Connection T}
    (h : StartsWrite c c') :
    SameReader c c' := by
  cases h with
  | idle => exact .update
  | write => exact .update

section Writing

theorem sameReader_disconnect (c : Connection T) :
    SameReader c c.disconnect := by
  rw [disconnect_eq]
  exact .update

variable [Layout (MessageHeader T)]

theorem sameReader_onSend (c : Connection T) (msg : Message T) :
    SameReader c (c.onSend msg) := by
  have h := (startsWrite_onSend c msg).sameReader
  exact ⟨h.reads, h.received, h.temp, h.delivered⟩

theorem sameReader_onWrite
    (c : Connection T) {w : PendingWrite}
    (hm : w.isMessage = true) :
    SameReader c (c.onWrite w) :=
  (startsWrite_onWrite c hm).sameReader

end Writing

section Established

variable [Layout (MessageHeader T)]

/-- A connection right after its handshake, about to read the first header. -/
def established [Inhabited T]
    (parent : Owner) (now : UInt64) : Connection T :=
  (make parent now true).mfReadHeader

/-- Neither a challenge nor a reply is under way. -/
structure HandshakeOver (c : Connection T) : Prop where
  messages : OnlyMessages c
  frames : ∀ r ∈ c.reads, r.payload ≠ .validation
  connecting : c.connecting = false

omit [Layout (MessageHeader T)] in
theorem HandshakeOver.asyncRead
    {c : Connection T} {payload : Payload} {want : Nat}
    (h : HandshakeOver c)
    (hp : payload ≠ .validation) :
    HandshakeOver (c.asyncRead payload want) := by
  refine ⟨h.messages, ?_, h.connecting⟩
  intro r hr
  rcases List.mem_append.mp hr with hr | hr
  · exact h.frames r hr
  · obtain rfl := List.mem_singleton.mp hr
    exact hp

/-- Reading a frame does not go back to the handshake. -/
theorem handshakeOver_onRead
    {c c' : Connection T} {r : PendingRead} {u : Upcall T}
    (h : HandshakeOver c)
    (hp : r.payload ≠ .validation)
    (hon : c.onRead r = (c', u)) :
    HandshakeOver c' ∧ u ≠ .validated := by
  cases onRead_cases hon with
  | validated hv => exact absurd hv hp
  | refused hv => exact absurd hv hp
  | reply hv => exact absurd hv hp
  | header =>
      refine ⟨HandshakeOver.asyncRead ?_ (by decide), by simp⟩
      exact ⟨h.messages, h.frames, h.connecting⟩
  | noBody =>
      refine ⟨HandshakeOver.asyncRead ?_ (by decide), by simp⟩
      exact ⟨h.messages, h.frames, h.connecting⟩
  | body =>
      refine ⟨HandshakeOver.asyncRead ?_ (by decide), by simp⟩
      exact ⟨h.messages, h.frames, h.connecting⟩

omit [Layout (MessageHeader T)] in
theorem HandshakeOver.hands
    {c c' : Connection T}
    (h : HandshakeOver c)
    (hs : Hands c c')
    (hr : SameReader c c') :
    HandshakeOver c' := by
  refine ⟨h.messages.hands hs, ?_, hs.connecting.trans h.connecting⟩
  rw [hr.reads]
  exact h.frames

theorem ioStep_handshakeOver
    {c c' : Connection T} {e : IoEvent} {u : Upcall T}
    (hstep : IoStep c e c' u)
    (h : HandshakeOver c) :
    HandshakeOver c' ∧ u ≠ .validated := by
  cases hstep with
  | @runSend i msg hmsg =>
      have h₀ : HandshakeOver (c.dropPosted i) :=
        ⟨h.messages, h.frames, h.connecting⟩
      refine ⟨h₀.hands (hands_onSend _ msg) (sameReader_onSend _ msg), ?_⟩
      simp
  | runClose hclosing =>
      exact ⟨⟨h.messages, h.frames, h.connecting⟩, by simp⟩
  | connected hconn =>
      rw [h.connecting] at hconn
      cases hconn
  | connectFailed hconn =>
      rw [h.connecting] at hconn
      cases hconn
  | @recv i bytes r hr hopen hwant =>
      refine ⟨⟨h.messages, ?_, h.connecting⟩, by simp⟩
      intro r' hr'
      rcases List.mem_or_eq_of_mem_set hr' with hr' | rfl
      · exact h.frames r' hr'
      · exact h.frames r (List.mem_of_getElem? hr)
  | @readDone i r c' u hr hfull hon =>
      have h₀ : HandshakeOver (c.dropRead i) :=
        ⟨h.messages,
          fun r' hr' => h.frames r' (List.mem_of_mem_eraseIdx hr'),
          h.connecting⟩
      exact handshakeOver_onRead h₀
        (h.frames r (List.mem_of_getElem? hr)) hon
  | readFail hr =>
      exact
        ⟨⟨h.messages,
            fun r' hr' => h.frames r' (List.mem_of_mem_eraseIdx hr'),
            h.connecting⟩, by simp⟩
  | transfer hw hopen hleft =>
      exact ⟨⟨h.messages.transfer hw, h.frames, h.connecting⟩, by simp⟩
  | @writeDone i w hw hleft =>
      have hm := h.messages w (List.mem_of_getElem? hw)
      have h₀ : HandshakeOver (c.dropWrite i) :=
        ⟨h.messages.dropWrite i, h.frames, h.connecting⟩
      refine ⟨h₀.hands (hands_onWrite _ hm) (sameReader_onWrite _ hm), ?_⟩
      simp
  | @writeFail i w hw =>
      exact
        ⟨⟨h.messages.dropWrite i, h.frames, h.connecting⟩, by simp⟩

/-- A step after the handshake is a call or a handler that validates nobody. -/
theorem step_cases_of_handshakeOver
    {c c' : Connection T} {e : ConnEvent T}
    (h : HandshakeOver c)
    (hstep : c.step e = some c') :
    (∃ msg, e = .send msg ∧ c' = c.send msg) ∨
    (e = .disconnect ∧ c' = c.disconnect) ∨
    (∃ e₀ u, e = .io e₀ ∧ IoStep c e₀ c' u) := by
  rcases step_cases hstep with hsend | hdisc | ⟨e₀, u, c₀, rfl, hio, hc'⟩
  · exact Or.inl hsend
  · exact Or.inr (Or.inl hdisc)
  · refine Or.inr (Or.inr ⟨e₀, u, rfl, ?_⟩)
    rcases hc' with rfl | ⟨hu, _⟩
    · exact hio
    · exact absurd hu (ioStep_handshakeOver hio h).2

theorem step_handshakeOver
    {c c' : Connection T} {e : ConnEvent T}
    (h : HandshakeOver c)
    (hstep : c.step e = some c') :
    HandshakeOver c' := by
  rcases step_cases_of_handshakeOver h hstep with
    ⟨msg, _, rfl⟩ | ⟨_, rfl⟩ | ⟨e₀, u, _, hio⟩
  · exact ⟨h.messages, h.frames, h.connecting⟩
  · rw [disconnect_eq]
    exact ⟨h.messages, h.frames, h.connecting⟩
  · exact (ioStep_handshakeOver hio h).1

theorem handshakeOver_established [Inhabited T]
    (parent : Owner) (now : UInt64) :
    HandshakeOver (established parent now : Connection T) := by
  cases parent with
  | server =>
      refine HandshakeOver.asyncRead ⟨?_, ?_, rfl⟩ (by decide)
      · exact fun w hw => by cases hw
      · exact fun r hr => by cases hr
  | client =>
      refine HandshakeOver.asyncRead ⟨?_, ?_, rfl⟩ (by decide)
      · exact fun w hw => by cases hw
      · exact fun r hr => by cases hr

end Established

section Writer

variable [Layout (MessageHeader T)]

/-- A writer after the handshake whose writes all go through. -/
structure WriterInv (c : Connection T) : Prop where
  chain : SendInv c
  intact : Intact [] c
  handshake : HandshakeOver c

theorem writerInv_established [Inhabited T]
    (parent : Owner) (now : UInt64) :
    WriterInv (established parent now : Connection T) := by
  refine ⟨?_, ?_, handshakeOver_established parent now⟩
  · exact (Started.made parent now true).sendInv.congr
      ⟨rfl, rfl, rfl, rfl, rfl⟩
  · cases parent with
    | server => rfl
    | client => rfl

/-- Without failures the bytes on the wire keep up with what is handed over. -/
theorem ioStep_intact
    {c c' : Connection T} {e : IoEvent} {u : Upcall T}
    (hstep : IoStep c e c' u)
    (h : WriterInv c)
    (hfail : ∀ i, e ≠ .writeFail i) :
    Intact [] c' := by
  have hlen : c.writes.length ≤ 1 :=
    h.handshake.messages.writes_length (Or.inl h.chain)
  cases hstep with
  | @runSend i msg hmsg =>
      have h₀ : Intact [] (c.dropPosted i) := h.intact
      exact h₀.hands (hands_onSend _ msg)
  | runClose hclosing =>
      exact h.intact
  | connected hconn =>
      exact h.intact
  | connectFailed hconn =>
      exact h.intact
  | recv hr hopen hwant =>
      exact h.intact
  | @readDone i r c' u hr hfull hon =>
      have h₀ : Intact [] (c.dropRead i) := h.intact
      have hp := h.handshake.frames r (List.mem_of_getElem? hr)
      exact h₀.congr (sameOutput_onRead (Or.inr hp) hon)
  | readFail hr =>
      exact h.intact
  | @transfer i n w hw hopen hleft =>
      exact h.intact.transfer hlen hw n
  | @writeDone i w hw hleft =>
      have hm := h.handshake.messages w (List.mem_of_getElem? hw)
      have h₀ := h.intact.dropWrite hlen hw hleft
      exact h₀.hands (hands_onWrite _ hm)
  | @writeFail i w hw =>
      exact absurd rfl (hfail i)

theorem step_writerInv
    (c : Connection T) (e : ConnEvent T) (c' : Connection T)
    (h : WriterInv c)
    (hfail : NoWriteFails c e)
    (hstep : c.step e = some c') :
    WriterInv c' := by
  refine
    ⟨step_sendInv c e c' h.chain hfail hstep, ?_,
      step_handshakeOver h.handshake hstep⟩
  rcases step_cases_of_handshakeOver h.handshake hstep with
    ⟨msg, _, rfl⟩ | ⟨_, rfl⟩ | ⟨e₀, u, rfl, hio⟩
  · exact h.intact
  · rw [disconnect_eq]
    exact h.intact
  · refine ioStep_intact hio h ?_
    rintro i rfl
    exact hfail i rfl

/-- A writer that is done has put the frames of its messages on the wire. -/
theorem WriterInv.wire_eq_frames
    {c : Connection T}
    (h : WriterInv c)
    (hdone : c.qMessagesOut = []) :
    c.wire = frames c.ran := by
  cases h.chain.state with
  | idle hq hw hh =>
      have hwrites : c.writes = [] := by
        rw [← h.handshake.messages.messageWrites_eq]
        exact hw
      have hintact := h.intact
      simp only [Intact, unsent, hwrites, List.flatMap_nil, List.append_nil,
        List.nil_append] at hintact
      rw [hintact, hh]
  | header msg rest left hq hw hh =>
      rw [hdone] at hq
      cases hq
  | body msg rest left hq hw hh =>
      rw [hdone] at hq
      cases hq

end Writer

section Reader

variable [Layout (MessageHeader T)]

/-- Where a reader stands that is given the frames of `msgs`. -/
inductive ReadState (msgs : List (Message T)) (c : Connection T) : Prop
  | header (done rest : List (Message T)) (got : List UInt8)
      (hmsgs : msgs = done ++ rest)
      (hr : c.reads = [⟨.header, byteSize (MessageHeader T), got⟩])
      (hrec : c.received = frames done ++ got)
      (htemp : c.tempMessageIn.body = lastBody [] done)
      (hdel : c.delivered = deliveries [] done)
  | body (done rest : List (Message T)) (msg : Message T)
      (got : List UInt8)
      (hmsgs : msgs = done ++ msg :: rest)
      (hne : msg.body ≠ [])
      (hr : c.reads = [⟨.body, msg.body.length, got⟩])
      (hrec : c.received = frames done ++ (toBytes msg.header ++ got))
      (htemp : c.tempMessageIn.header = msg.header)
      (hdel : c.delivered = deliveries [] done)
  | ended
      (hr : c.reads = [])

theorem ReadState.congr
    {msgs : List (Message T)} {c c' : Connection T}
    (h : ReadState msgs c)
    (hs : SameReader c c') :
    ReadState msgs c' := by
  cases h with
  | header done rest got hmsgs hr hrec htemp hdel =>
      refine
        .header done rest _ hmsgs (hs.reads.trans hr) (hs.received.trans hrec)
          ?_ (hs.delivered.trans hdel)
      rw [hs.temp, htemp]
  | body done rest msg got hmsgs hne hr hrec htemp hdel =>
      refine
        .body done rest msg _ hmsgs hne (hs.reads.trans hr)
          (hs.received.trans hrec) ?_ (hs.delivered.trans hdel)
      rw [hs.temp, htemp]
  | ended hr =>
      exact .ended (hs.reads.trans hr)

/-- Every message announces its body length. -/
def Announced (msgs : List (Message T)) : Prop :=
  ∀ msg ∈ msgs, msg.header.size.toNat = msg.body.length

/-- The next bytes of a stream of frames, as many as a header has. -/
theorem header_of_prefix
    {rest : List (Message T)} {got : List UInt8}
    (hgot : got <+: frames rest)
    (hlen : got.length = byteSize (MessageHeader T)) :
    ∃ msg rest', rest = msg :: rest' ∧ got = toBytes msg.header := by
  cases rest with
  | nil =>
      have hnil : got = [] := List.prefix_nil.mp hgot
      have hpos := size_pos (α := MessageHeader T)
      rw [hnil, List.length_nil] at hlen
      exact absurd hlen (Nat.ne_of_lt hpos)
  | cons msg rest =>
      refine ⟨msg, rest, rfl, ?_⟩
      have hmsg : toBytes msg.header <+: frames (msg :: rest) := by
        rw [frames_cons, frame, List.append_assoc]
        exact List.prefix_append _ _
      have hle : got.length ≤ (toBytes msg.header).length := by
        rw [hlen, length_toBytes]
      exact (List.prefix_of_prefix_length_le hgot hmsg hle).eq_of_length
        (by rw [hlen, length_toBytes])

/-- A complete header: the reader goes on with the body, or delivers. -/
theorem readState_onReadHeader
    {msgs done rest : List (Message T)} {c c' : Connection T}
    {got : List UInt8} {u : Upcall T}
    (hall : Announced msgs)
    (hmsgs : msgs = done ++ rest)
    (hreads : c.reads = [])
    (hrec : c.received = frames done ++ got)
    (htemp : c.tempMessageIn.body = lastBody [] done)
    (hdel : c.delivered = deliveries [] done)
    (hlen : got.length = byteSize (MessageHeader T))
    (hpre : c.received <+: frames msgs)
    (hon : c.onReadHeader got = (c', u)) :
    ReadState msgs c' := by
  have hgot : got <+: frames rest := by
    rw [hrec, hmsgs, frames_append] at hpre
    exact List.prefix_append_right_inj _ |>.mp hpre
  obtain ⟨msg, rest', rfl, rfl⟩ := header_of_prefix hgot hlen
  have hsize : msg.header.size.toNat = msg.body.length :=
    hall msg (by simp [hmsgs])
  simp only [onReadHeader, ofBytes_toBytes] at hon
  by_cases hpos : 0 < msg.header.size
  · rw [if_pos hpos] at hon
    cases hon
    have hne : msg.body ≠ [] := by
      intro hnil
      rw [UInt32.lt_iff_toNat_lt, hsize, hnil] at hpos
      exact Nat.lt_irrefl 0 hpos
    refine .body done rest' msg [] hmsgs hne ?_ ?_ rfl hdel
    · simp [mfReadBody, asyncRead, hreads, hsize, List.takeD_length]
    · simpa [mfReadBody, asyncRead] using hrec
  · rw [if_neg hpos] at hon
    cases hon
    have hnil : msg.body = [] := by
      rw [UInt32.lt_iff_toNat_lt, hsize] at hpos
      exact List.eq_nil_of_length_eq_zero
        (Nat.le_zero.mp (Nat.not_lt.mp hpos))
    refine
      .header (done ++ [msg]) rest' [] ?_ ?_ ?_ ?_ ?_
    · simp [hmsgs]
    · simp [mfReadHeader, asyncRead, hreads]
    · simp [mfReadHeader, asyncRead, hrec, frame, hnil]
    · show c.tempMessageIn.body = _
      rw [lastBody_snoc, htemp, bodyAfter, if_pos hnil]
    · show c.delivered ++ [⟨msg.header, c.tempMessageIn.body⟩] = _
      rw [deliveries_snoc, hdel, htemp, bodyAfter, if_pos hnil]

/-- A complete body: the reader delivers and goes on with a header. -/
theorem readState_onReadBody
    {msgs done rest : List (Message T)} {msg : Message T}
    {c c' : Connection T} {got : List UInt8} {u : Upcall T}
    (hmsgs : msgs = done ++ msg :: rest)
    (hne : msg.body ≠ [])
    (hreads : c.reads = [])
    (hrec : c.received = frames done ++ (toBytes msg.header ++ got))
    (htemp : c.tempMessageIn.header = msg.header)
    (hdel : c.delivered = deliveries [] done)
    (hlen : got.length = msg.body.length)
    (hpre : c.received <+: frames msgs)
    (hon : c.onReadBody got = (c', u)) :
    ReadState msgs c' := by
  have hgot : got = msg.body := by
    rw [hrec, hmsgs, frames_append, frames_cons, frame] at hpre
    have h := List.prefix_append_right_inj _ |>.mp hpre
    rw [List.append_assoc] at h
    have h' := List.prefix_append_right_inj _ |>.mp h
    exact (List.prefix_of_prefix_length_le h' (List.prefix_append _ _)
      (le_of_eq hlen)).eq_of_length hlen
  subst hgot
  cases hon
  refine
    .header (done ++ [msg]) rest [] ?_ ?_ ?_ ?_ ?_
  · simp [hmsgs]
  · simp [mfReadHeader, asyncRead, hreads]
  · simp [mfReadHeader, asyncRead, hrec, frame]
  · show msg.body = _
    rw [lastBody_snoc, bodyAfter, if_neg hne]
  · show c.delivered ++ [⟨c.tempMessageIn.header, msg.body⟩] = _
    rw [deliveries_snoc, hdel, htemp, bodyAfter, if_neg hne]

/-- A completed read of a reader that is given the frames of `msgs`. -/
theorem readState_readDone
    {msgs : List (Message T)} {c c' : Connection T} {i : Nat}
    {r : PendingRead} {u : Upcall T}
    (hall : Announced msgs)
    (h : ReadState msgs c)
    (hpre : c.received <+: frames msgs)
    (hr : c.reads[i]? = some r)
    (hfull : r.got.length = r.want)
    (hon : (c.dropRead i).onRead r = (c', u)) :
    ReadState msgs c' := by
  cases h with
  | header done rest got hmsgs hone hrec htemp hdel =>
      obtain ⟨rfl, herase, _⟩ := ListSlots.only_item hr hone
      exact readState_onReadHeader (c := c.dropRead i) hall hmsgs herase
        hrec htemp hdel hfull hpre hon
  | body done rest msg got hmsgs hne hone hrec htemp hdel =>
      obtain ⟨rfl, herase, _⟩ := ListSlots.only_item hr hone
      exact readState_onReadBody (c := c.dropRead i) hmsgs hne herase
        hrec htemp hdel hfull hpre hon
  | ended hnone =>
      simp [hnone] at hr

/-- More bytes of the outstanding read. -/
theorem ReadState.recv
    {msgs : List (Message T)} {c : Connection T} {i : Nat}
    {r : PendingRead}
    (h : ReadState msgs c)
    (hr : c.reads[i]? = some r)
    (bytes : List UInt8) :
    ReadState msgs
      { c with
        reads := c.reads.set i { r with got := r.got ++ bytes }
        received := c.received ++ bytes } := by
  cases h with
  | header done rest got hmsgs hone hrec htemp hdel =>
      obtain ⟨rfl, _, hset⟩ := ListSlots.only_item hr hone
      refine .header done rest _ hmsgs (hset _) ?_ htemp hdel
      simp [hrec]
  | body done rest msg got hmsgs hne hone hrec htemp hdel =>
      obtain ⟨rfl, _, hset⟩ := ListSlots.only_item hr hone
      refine .body done rest msg _ hmsgs hne (hset _) ?_ htemp hdel
      simp [hrec]
  | ended hnone =>
      simp [hnone] at hr

/-- A read that failed is not started again. -/
theorem ReadState.readFail
    {msgs : List (Message T)} {c : Connection T} {i : Nat}
    {r : PendingRead}
    (h : ReadState msgs c)
    (hr : c.reads[i]? = some r) :
    ReadState msgs ((c.dropRead i).close) := by
  have hlen : c.reads.length ≤ 1 := by
    cases h with
    | header done rest got hmsgs hone hrec htemp hdel => simp [hone]
    | body done rest msg got hmsgs hne hone hrec htemp hdel => simp [hone]
    | ended hnone => simp [hnone]
  exact .ended (ListSlots.eq_singleton hlen hr).2.1

/-- A handler that runs after a read receives nothing itself. -/
theorem received_onRead
    {c c' : Connection T} {r : PendingRead} {u : Upcall T}
    (hon : c.onRead r = (c', u)) :
    c'.received = c.received := by
  cases onRead_cases hon with
  | validated => rfl
  | refused => rfl
  | reply => rfl
  | header => rfl
  | noBody => rfl
  | body => rfl

theorem received_onWrite (c : Connection T) (w : PendingWrite) :
    (c.onWrite w).received = c.received := by
  cases hm : w.isMessage with
  | true =>
      exact (sameReader_onWrite c hm).received
  | false =>
      have hp : w.payload = .validation := by
        simpa [PendingWrite.isMessage] using hm
      simp only [onWrite, hp, onWriteValidation]
      split
      · rfl
      · rfl

/-- Bytes that came in are not forgotten. -/
theorem ioStep_received
    {c c' : Connection T} {e : IoEvent} {u : Upcall T}
    (hstep : IoStep c e c' u) :
    c.received <+: c'.received := by
  cases hstep with
  | @runSend i msg hmsg =>
      rw [(sameReader_onSend (c.dropPosted i) msg).received]
      exact List.prefix_rfl
  | runClose hclosing => exact List.prefix_rfl
  | connected hconn => exact List.prefix_rfl
  | connectFailed hconn => exact List.prefix_rfl
  | recv hr hopen hwant => exact List.prefix_append _ _
  | @readDone i r c' u hr hfull hon =>
      rw [received_onRead hon]
      exact List.prefix_rfl
  | readFail hr => exact List.prefix_rfl
  | transfer hw hopen hleft => exact List.prefix_rfl
  | @writeDone i w hw hleft =>
      rw [received_onWrite]
      exact List.prefix_rfl
  | writeFail hw => exact List.prefix_rfl

/-- A handler keeps the reader where the frames put it. -/
theorem ioStep_readState
    {msgs : List (Message T)} {c c' : Connection T} {e : IoEvent}
    {u : Upcall T}
    (hall : Announced msgs)
    (hstep : IoStep c e c' u)
    (hover : HandshakeOver c)
    (hpre : c.received <+: frames msgs)
    (h : ReadState msgs c) :
    ReadState msgs c' := by
  cases hstep with
  | @runSend i msg hmsg =>
      have h₀ : ReadState msgs (c.dropPosted i) :=
        h.congr .update
      exact h₀.congr (sameReader_onSend _ msg)
  | runClose hclosing =>
      exact h.congr .update
  | connected hconn =>
      rw [hover.connecting] at hconn
      cases hconn
  | connectFailed hconn =>
      rw [hover.connecting] at hconn
      cases hconn
  | recv hr hopen hwant =>
      exact h.recv hr _
  | readDone hr hfull hon =>
      exact readState_readDone hall h hpre hr hfull hon
  | readFail hr =>
      exact h.readFail hr
  | transfer hw hopen hleft =>
      exact h.congr .update
  | @writeDone i w hw hleft =>
      have hm := hover.messages w (List.mem_of_getElem? hw)
      have h₀ : ReadState msgs (c.dropWrite i) :=
        h.congr .update
      exact h₀.congr (sameReader_onWrite _ hm)
  | writeFail hw =>
      exact h.congr .update

/-- A reader after the handshake, as far as it is given the frames of
`msgs`. -/
structure ReaderInv (msgs : List (Message T)) (c : Connection T) : Prop where
  handshake : HandshakeOver c
  state : c.received <+: frames msgs → ReadState msgs c

theorem readerInv_established [Inhabited T]
    (msgs : List (Message T)) (parent : Owner) (now : UInt64) :
    ReaderInv msgs (established parent now) := by
  refine ⟨handshakeOver_established parent now, fun _ => ?_⟩
  cases parent with
  | server =>
      exact .header [] msgs [] rfl rfl rfl rfl rfl
  | client =>
      exact .header [] msgs [] rfl rfl rfl rfl rfl

theorem step_readerInv
    {msgs : List (Message T)}
    (hall : Announced msgs)
    (c : Connection T) (e : ConnEvent T) (c' : Connection T)
    (h : ReaderInv msgs c)
    (hstep : c.step e = some c') :
    ReaderInv msgs c' := by
  refine ⟨step_handshakeOver h.handshake hstep, fun hpre => ?_⟩
  rcases step_cases_of_handshakeOver h.handshake hstep with
    ⟨msg, _, rfl⟩ | ⟨_, rfl⟩ | ⟨e₀, u, rfl, hio⟩
  · exact (h.state hpre).congr .update
  · have hs := sameReader_disconnect c
    rw [hs.received] at hpre
    exact (h.state hpre).congr hs
  · have hpre₀ := (ioStep_received hio).trans hpre
    exact ioStep_readState hall hio h.handshake hpre₀ (h.state hpre₀)

/-- A reader that has consumed the frames of `msgs` has delivered
`deliveries [] msgs`. -/
theorem ReaderInv.delivered_eq_deliveries
    {msgs : List (Message T)} {c : Connection T}
    (h : ReaderInv msgs c)
    (hrec : c.received = frames msgs)
    (hreads : c.reads = [⟨.header, byteSize (MessageHeader T), []⟩]) :
    c.delivered = deliveries [] msgs := by
  cases h.state (by rw [hrec]) with
  | header done rest got hmsgs hr hrec' htemp hdel =>
      have hgot : got = [] := by
        rw [hreads] at hr
        simpa using hr.symm
      have hrest : frames rest = [] := by
        rw [hrec, hmsgs, frames_append, hgot] at hrec'
        simpa using hrec'
      rw [hdel, hmsgs, frames_eq_nil hrest, List.append_nil]
  | body done rest msg got hmsgs hne hr hrec' htemp hdel =>
      rw [hreads] at hr
      simp at hr
  | ended hr =>
      rw [hreads] at hr
      cases hr

end Reader

section RoundTrip

variable [Inhabited T] [Layout (MessageHeader T)]

/-- A writer puts the messages it was given on the wire without a failure, and
a reader consumes that stream: what it delivers is what was sent, if and only
if no message without a body follows one with a body. -/
theorem wire_round_trip_iff
    (parent peer : Owner) (now now' : UInt64)
    {es es' : List (ConnEvent T)} {writer reader : Connection T}
    (hfails : Meets step NoWriteFails (established parent now) es)
    (hwriter : run step (established parent now) es = some writer)
    (hdone : writer.qMessagesOut = [])
    (hbuilt : ∀ msg ∈ writer.ran, Built msg ∧ msg.body.length < 2 ^ 32)
    (hreader : run step (established peer now') es' = some reader)
    (hstream : reader.received = writer.wire)
    (hconsumed :
      reader.reads = [⟨.header, byteSize (MessageHeader T), []⟩]) :
    reader.delivered = writer.ran ↔ EmptyFirst writer.ran := by
  have hall : Announced writer.ran := by
    intro msg hmsg
    exact (hbuilt msg hmsg).1.header_size_toNat (hbuilt msg hmsg).2
  have hw : WriterInv writer :=
    run_invariant step_writerInv (writerInv_established parent now)
      hfails hwriter
  have hr : ReaderInv writer.ran reader :=
    reachable_invariant (step_readerInv hall)
      (readerInv_established writer.ran peer now') ⟨es', hreader⟩
  have hrec : reader.received = frames writer.ran :=
    hstream.trans (hw.wire_eq_frames hdone)
  rw [hr.delivered_eq_deliveries hrec hconsumed, deliveries_eq_iff]
  simp

end RoundTrip

section Streams

/-- A message without a body. -/
def pingMessage : Message MessageType :=
  Message.fresh.setId .serverPing

/-- A message with a body. -/
def textMessage : Message MessageType :=
  (Message.fresh.setId .serverMessage).insert (7 : UInt8)

theorem pingMessage_built : Built pingMessage :=
  .setId _ .fresh

theorem textMessage_built : Built textMessage :=
  .insert _ (.setId _ .fresh)

/-- Write a message without interruption. -/
def writeFrame (msg : Message MessageType) : List (ConnEvent MessageType) :=
  [.io (.transfer 0 8), .io (.writeDone 0)] ++
    if msg.body = [] then []
    else [.io (.transfer 0 msg.body.length), .io (.writeDone 0)]

/-- Read a message without interruption. -/
def readFrame (msg : Message MessageType) : List (ConnEvent MessageType) :=
  [.io (.recv 0 (toBytes msg.header)), .io (.readDone 0)] ++
    if msg.body = [] then []
    else [.io (.recv 0 msg.body), .io (.readDone 0)]

/-- Queue two messages. -/
def queueBoth (msg msg' : Message MessageType) :
    List (ConnEvent MessageType) :=
  [.send msg, .send msg', .io (.runSend 0), .io (.runSend 0)]

theorem wire_round_trip_ping_text :
    ∃ writer reader : Connection MessageType,
      run step (established .server 1)
          (queueBoth pingMessage textMessage ++
            (writeFrame pingMessage ++ writeFrame textMessage)) =
        some writer ∧
      run step (established .client 0)
          (readFrame pingMessage ++ readFrame textMessage) =
        some reader ∧
      (reader.delivered = writer.ran ↔ EmptyFirst writer.ran) := by
  have hfails :
      Meets step NoWriteFails (established .server 1)
        (queueBoth pingMessage textMessage ++
          (writeFrame pingMessage ++ writeFrame textMessage)) := by
    refine meets_of_forall ?_ _
    rintro c e he i rfl
    simp [queueBoth, writeFrame, pingMessage, textMessage, Message.fresh] at he
  have hwriter :
      run step (established .server 1)
          (queueBoth pingMessage textMessage ++
            (writeFrame pingMessage ++ writeFrame textMessage)) =
        some _ := rfl
  have hreader :
      run step (established .client 0)
          (readFrame pingMessage ++ readFrame textMessage) =
        some _ := rfl
  refine ⟨_, _, hwriter, hreader, ?_⟩
  refine wire_round_trip_iff .server .client 1 0 hfails hwriter rfl ?_
    hreader rfl rfl
  rintro msg hmsg
  rcases List.mem_pair.mp hmsg with rfl | rfl
  · exact ⟨pingMessage_built, by decide⟩
  · exact ⟨textMessage_built, by decide⟩

/-- A ping sent after a text is delivered with the text as its body. -/
theorem text_ping_not_round_trip :
    ∃ writer reader : Connection MessageType,
      Meets step NoWriteFails (established .server 1)
        (queueBoth textMessage pingMessage ++
          (writeFrame textMessage ++ writeFrame pingMessage)) ∧
      run step (established .server 1)
          (queueBoth textMessage pingMessage ++
            (writeFrame textMessage ++ writeFrame pingMessage)) =
        some writer ∧
      writer.qMessagesOut = [] ∧
      (∀ msg ∈ writer.ran, Built msg ∧ msg.body.length < 2 ^ 32) ∧
      run step (established .client 0)
          (readFrame textMessage ++ readFrame pingMessage) =
        some reader ∧
      reader.received = writer.wire ∧
      reader.reads = [⟨.header, byteSize (MessageHeader MessageType), []⟩] ∧
      writer.ran = [textMessage, pingMessage] ∧
      reader.delivered =
        [textMessage, ⟨pingMessage.header, textMessage.body⟩] ∧
      reader.delivered ≠ writer.ran := by
  refine ⟨_, _, meets_of_forall ?_ _, rfl, rfl, ?_, rfl, rfl, rfl, rfl, rfl,
    by decide⟩
  · rintro c e he i rfl
    simp [queueBoth, writeFrame, pingMessage, textMessage, Message.fresh] at he
  · rintro msg hmsg
    rcases List.mem_pair.mp hmsg with rfl | rfl
    · exact ⟨textMessage_built, by decide⟩
    · exact ⟨pingMessage_built, by decide⟩

end Streams

end Connection

end SpeciesSimulator
