import SpeciesSimulator.NetServerEnd

/-!
# The client's end of a connection

A client's connection that the server has accepted: what comes in is the
challenge and the frames of the server's messages after it.  Until it has
written its reply such a connection writes nothing else, provided that the
client sends no message before.

Main facts:
* `ioStep_clientPhase`: a handler keeps a client where the stream put it;
* `ClientPhase.wire_prefix_of`: what goes out is the right reply and frames after
  it.
-/

namespace SpeciesSimulator

open ByteLayout Transition Message

universe u

namespace Connection

variable {T : Type u}

/-- The client's part of the handshake is over: it has read the challenge and
written its reply. -/
structure HasReplied (c : Connection T) : Prop where
  received : byteSize UInt64 ≤ c.received.length
  reads : ∀ r ∈ c.reads, r.payload ≠ .validation
  writes : ¬ c.WritingChallenge

/-- A connection that the server has accepted does not fail to connect, and no
handler of `send` runs before the reply is written. -/
def SendsFollow (c : Connection T) (e : ConnEvent T) : Prop :=
  (∀ isOpen, e ≠ .io (.connectFailed isOpen)) ∧
    ∀ i msg, e = .io (.runSend i) → c.posted[i]? = some msg → c.HasReplied

/-- No message is on its way. -/
structure Quiet (c : Connection T) : Prop where
  queue : c.qMessagesOut = []
  ran : c.ran = []
  handed : c.handed = []
  front : c.emptyFront = false

section Phases

variable [Layout (MessageHeader T)]

/-- How far a client has come that is given the challenge and the frames of
`msgs`. -/
inductive ClientPhase
    (challenge : UInt64) (msgs : List (Message T)) (c : Connection T) : Prop
  | connecting
      (hconn : c.connecting = true)
      (hquiet : Quiet c)
      (hwrites : c.writes = [])
      (hwire : c.wire = [])
      (hreads : c.reads = [])
      (hrec : c.received = [])
      (hunread : Unread c)
  | challenge
      (hconn : c.connecting = false)
      (hquiet : Quiet c)
      (hwrites : c.writes = [])
      (hwire : c.wire = [])
      (hreads : c.reads = [⟨.validation, byteSize UInt64, c.received⟩])
      (hunread : Unread c)
  | replying (left : List UInt8)
      (hconn : c.connecting = false)
      (hquiet : Quiet c)
      (hwrites : c.writes = [⟨.validation, left⟩])
      (hwire : c.wire ++ left = toBytes (mfScramble challenge))
      (hreads : c.reads = [])
      (hrec : c.received = toBytes challenge)
      (hunread : Unread c)
  | frames
      (hconn : c.connecting = false)
      (hafter : AfterChallenge (mfScramble challenge) c)
      (hpast : PastHandshake (toBytes challenge) msgs c)
  | ended
      (hconn : c.connecting = false)
      (hafter : AfterChallenge (mfScramble challenge) c)
      (hreads : c.reads = [])
      (hclosed : c.isOpen = false)
      (hunread : Unread c)

variable {challenge : UInt64} {msgs : List (Message T)}
variable {c c' : Connection T}

omit [Layout (MessageHeader T)] in
theorem Quiet.update
    {isOpen connecting : Bool} {nHandshakeOut nHandshakeIn : UInt64}
    {posted : List (Message T)} {closing : Nat} {reads : List PendingRead}
    {writes : List PendingWrite} {wire received : List UInt8}
    (h : Quiet c) :
    Quiet
      { c with
        isOpen := isOpen
        connecting := connecting
        nHandshakeOut := nHandshakeOut
        nHandshakeIn := nHandshakeIn
        posted := posted
        closing := closing
        reads := reads
        writes := writes
        wire := wire
        received := received } :=
  ⟨h.queue, h.ran, h.handed, h.front⟩

omit [Layout (MessageHeader T)] in
theorem Unread.update
    {isOpen connecting : Bool} {nHandshakeOut nHandshakeIn : UInt64}
    {posted : List (Message T)} {closing : Nat} {reads : List PendingRead}
    {writes : List PendingWrite} {wire received : List UInt8}
    (h : Unread c) :
    Unread
      { c with
        isOpen := isOpen
        connecting := connecting
        nHandshakeOut := nHandshakeOut
        nHandshakeIn := nHandshakeIn
        posted := posted
        closing := closing
        reads := reads
        writes := writes
        wire := wire
        received := received } :=
  ⟨h.delivered, h.temp⟩

/-- Calls from the outside do not concern the handshake, and neither does a
posted handler that closes the socket. -/
theorem ClientPhase.update
    {isOpen : Bool} {posted : List (Message T)} {closing : Nat}
    (h : ClientPhase challenge msgs c)
    (hopen : isOpen = true → c.isOpen = true) :
    ClientPhase challenge msgs
      { c with isOpen := isOpen, posted := posted, closing := closing } := by
  cases h with
  | connecting hconn hquiet hwrites hwire hreads hrec hunread =>
      exact .connecting hconn hquiet.update hwrites hwire hreads hrec
        hunread.update
  | challenge hconn hquiet hwrites hwire hreads hunread =>
      exact .challenge hconn hquiet.update hwrites hwire hreads hunread.update
  | replying left hconn hquiet hwrites hwire hreads hrec hunread =>
      exact .replying left hconn hquiet.update hwrites hwire hreads hrec
        hunread.update
  | frames hconn hafter hpast =>
      exact .frames hconn (hafter.congr (.update hopen))
        (hpast.congr .update hopen)
  | ended hconn hafter hreads hclosed hunread =>
      refine .ended hconn (hafter.congr (.update hopen)) hreads ?_
        hunread.update
      by_contra hne
      rw [hopen (by simpa using hne)] at hclosed
      cases hclosed

/-- What is delivered is a beginning of what the frames deliver. -/
theorem ClientPhase.delivered
    (h : ClientPhase challenge msgs c) :
    c.delivered <+: deliveries [] msgs := by
  have hnone (hunread : Unread c) : c.delivered <+: deliveries [] msgs := by
    rw [hunread.delivered]
    exact List.nil_prefix
  cases h with
  | connecting _ _ _ _ _ _ hunread => exact hnone hunread
  | challenge _ _ _ _ _ hunread => exact hnone hunread
  | replying _ _ _ _ _ _ _ hunread => exact hnone hunread
  | frames _ _ hpast => exact hpast.delivered
  | ended _ _ _ _ hunread => exact hnone hunread

/-- What goes out is the right reply and frames after it. -/
theorem ClientPhase.wire_prefix_of
    (h : ClientPhase challenge msgs c)
    (hunbroken : Unbroken c) :
    c.wire <+: toBytes (mfScramble challenge) ++ Message.frames c.ran := by
  have hstream (hafter : AfterChallenge (mfScramble challenge) c) :
      c.wire <+: toBytes (mfScramble challenge) ++ Message.frames c.ran :=
    hafter.stream.trans
      ((List.prefix_append_right_inj _).mpr hunbroken.handed_prefix)
  cases h with
  | connecting _ _ _ hwire =>
      rw [hwire]
      exact List.nil_prefix
  | challenge _ _ _ hwire =>
      rw [hwire]
      exact List.nil_prefix
  | replying left _ _ _ hwire =>
      rw [← hwire, List.append_assoc]
      exact List.prefix_append _ _
  | frames _ hafter => exact hstream hafter
  | ended _ hafter => exact hstream hafter

/-- A client that has delivered something has replied. -/
theorem ClientPhase.hasReplied
    (h : ClientPhase challenge msgs c)
    (hne : c.delivered ≠ []) :
    c.HasReplied := by
  cases h with
  | connecting _ _ _ _ _ _ hunread => exact absurd hunread.delivered hne
  | challenge _ _ _ _ _ hunread => exact absurd hunread.delivered hne
  | replying _ _ _ _ _ _ _ hunread => exact absurd hunread.delivered hne
  | ended _ _ _ _ hunread => exact absurd hunread.delivered hne
  | frames _ hafter hpast =>
      refine ⟨?_, ?_, ?_⟩
      · have hle := hpast.begins.length_le
        rwa [length_toBytes] at hle
      · intro r hr
        obtain ⟨i, hi⟩ := List.mem_iff_getElem?.mp hr
        exact hpast.state.payload_ne hi
      · rintro ⟨w, hw, hp⟩
        rw [hafter.messages w hw] at hp
        cases hp

/-- Message writes go on behind the handshake. -/
theorem ioStep_afterChallenge
    {first : UInt64} {e : IoEvent} {u : Upcall T}
    (hio : IoStep c e c' u)
    (hconn : c.connecting = false)
    (hreads : ∀ r ∈ c.reads, r.payload ≠ .validation)
    (hunbroken : Unbroken c)
    (h : AfterChallenge first c) :
    AfterChallenge first c' := by
  have hlen : c.writes.length ≤ 1 :=
    h.messages.writes_length hunbroken.chain
  cases hio with
  | @runSend i msg hmsg =>
      have hdrop : AfterChallenge first (c.dropPosted i) :=
        h.congr (.update id)
      exact hdrop.hands (hands_onSend _ msg)
  | runClose hclosing => exact h.congr (.update (by simp))
  | connected hconn' =>
      rw [hconn] at hconn'
      cases hconn'
  | connectFailed hconn' =>
      rw [hconn] at hconn'
      cases hconn'
  | recv => exact h.congr (.update id)
  | @readDone i r c' u hr hfull hon =>
      have hdrop : AfterChallenge first (c.dropRead i) :=
        h.congr (.update id)
      have hp := hreads r (List.mem_of_getElem? hr)
      exact hdrop.congr (sameOutput_onRead (Or.inr hp) hon)
  | readFail => exact h.congr (.update (by simp))
  | transfer hw hopen hleft => exact h.transfer hlen hw hopen
  | @writeDone i w hw hleft =>
      have hm := h.messages w (List.mem_of_getElem? hw)
      have hdrop : AfterChallenge first (c.dropWrite i) :=
        ⟨h.messages.dropWrite i,
          fun hopen => (h.opened hopen).dropWrite hlen hw hleft, h.stream⟩
      exact hdrop.hands (hands_onWrite _ hm)
  | @writeFail i w hw =>
      exact ⟨h.messages.dropWrite i, fun hopen => by simp [close] at hopen,
        h.stream⟩

omit [Layout (MessageHeader T)] in
/-- A client that writes nothing any more and has a gap in its stream only if
the socket is closed. -/
theorem afterChallenge_of_quiet
    {first : UInt64}
    (hquiet : Quiet c)
    (hwrites : c.writes = [])
    (hwire : c.wire <+: toBytes first)
    (hopen : c.isOpen = true → c.wire = toBytes first) :
    AfterChallenge first c where
  messages := by simp [OnlyMessages, hwrites]
  opened := by
    intro h
    simp [Intact, unsent, hwrites, hquiet.handed, hopen h]
  stream := by simpa [hquiet.handed] using hwire

end Phases

section Steps

variable [Layout (MessageHeader T)]
variable {challenge : UInt64} {msgs : List (Message T)}
variable {c c' : Connection T} {e : IoEvent} {u : Upcall T}

/-- What may happen on a client's connection that the server has accepted. -/
structure Follows (c : Connection T) (e : IoEvent) : Prop where
  connects : ∀ isOpen, e ≠ .connectFailed isOpen
  sends : ∀ i, e = .runSend i → c.HasReplied

/-- A client that is connecting writes and reads nothing. -/
theorem ioStep_connecting
    (hio : IoStep c e c' u)
    (hfollows : Follows c e)
    (hquiet : Quiet c)
    (hwrites : c.writes = [])
    (hwire : c.wire = [])
    (hreads : c.reads = [])
    (hrec : c.received = [])
    (hunread : Unread c)
    (hconn : c.connecting = true) :
    ClientPhase challenge msgs c' := by
  cases hio with
  | runSend hmsg =>
      have hreplied := (hfollows.sends _ rfl).received
      rw [hrec] at hreplied
      cases hreplied
  | runClose hclosing =>
      exact .connecting hconn hquiet.update hwrites hwire hreads hrec
        hunread.update
  | connected _ =>
      refine .challenge rfl hquiet.update hwrites hwire ?_ hunread.update
      show c.reads ++ [_] = [⟨_, _, c.received⟩]
      rw [hreads, hrec]
      rfl
  | connectFailed _ => exact absurd rfl (hfollows.connects _)
  | recv hr => simp [hreads] at hr
  | readDone hr => simp [hreads] at hr
  | readFail hr => simp [hreads] at hr
  | transfer hw => simp [hwrites] at hw
  | writeDone hw => simp [hwrites] at hw
  | writeFail hw => simp [hwrites] at hw

/-- A client that is connected reads the challenge, which starts its reply. -/
theorem ioStep_readingChallenge
    (hio : IoStep c e c' u)
    (hfollows : Follows c e)
    (howner : c.nowner = .client)
    (hpre : c.received <+: toBytes challenge ++ Message.frames msgs)
    (hconn : c.connecting = false)
    (hquiet : Quiet c)
    (hwrites : c.writes = [])
    (hwire : c.wire = [])
    (hreads : c.reads = [⟨.validation, byteSize UInt64, c.received⟩])
    (hunread : Unread c) :
    ClientPhase challenge msgs c' := by
  cases hio with
  | runSend hmsg =>
      have hreplied := (hfollows.sends _ rfl).reads
      rw [hreads] at hreplied
      simp at hreplied
  | runClose hclosing =>
      exact .challenge hconn hquiet.update hwrites hwire hreads hunread.update
  | connected hconn' =>
      rw [hconn] at hconn'
      cases hconn'
  | connectFailed _ => exact absurd rfl (hfollows.connects _)
  | recv hr hopen hwant =>
      obtain ⟨rfl, _, hset⟩ := ListSlots.only_item hr hreads
      exact .challenge hconn hquiet.update hwrites hwire (hset _)
        hunread.update
  | @readDone i r c' u hr hfull hon =>
      obtain ⟨rfl, herase, _⟩ := ListSlots.only_item hr hreads
      have hchallenge : c.received = toBytes challenge :=
        eq_reply_of_prefix hpre hfull
      have hclient : (c.dropRead i).nowner = .client := howner
      simp only [onRead, onReadValidation, hclient] at hon
      cases hon
      refine .replying (toBytes (mfScramble challenge)) hconn ?_ ?_ ?_ herase
        hchallenge ?_
      · exact ⟨hquiet.queue, hquiet.ran, hquiet.handed, hquiet.front⟩
      · show c.writes ++
            [⟨.validation, toBytes (mfScramble (ofBytes c.received))⟩] = _
        rw [hwrites, hchallenge, ofBytes_toBytes]
        rfl
      · show c.wire ++ _ = _
        rw [hwire, List.nil_append]
      · exact ⟨hunread.delivered, hunread.temp⟩
  | readFail hr =>
      obtain ⟨_, herase, _⟩ := ListSlots.only_item hr hreads
      refine .ended hconn ?_ herase rfl hunread.update
      refine afterChallenge_of_quiet hquiet.update hwrites ?_ ?_
      · show c.wire <+: _
        rw [hwire]
        exact List.nil_prefix
      · intro hopen
        simp [close] at hopen
  | transfer hw => simp [hwrites] at hw
  | writeDone hw => simp [hwrites] at hw
  | writeFail hw => simp [hwrites] at hw

/-- A client that writes its reply goes on with a header when it is through. -/
theorem ioStep_replying
    {left : List UInt8}
    (hio : IoStep c e c' u)
    (hfollows : Follows c e)
    (howner : c.nowner = .client)
    (hconn : c.connecting = false)
    (hquiet : Quiet c)
    (hwrites : c.writes = [⟨.validation, left⟩])
    (hwire : c.wire ++ left = toBytes (mfScramble challenge))
    (hreads : c.reads = [])
    (hrec : c.received = toBytes challenge)
    (hunread : Unread c) :
    ClientPhase challenge msgs c' := by
  cases hio with
  | runSend hmsg =>
      have hwriting : c.WritingChallenge :=
        ⟨⟨.validation, left⟩, by simp [hwrites], rfl⟩
      exact absurd hwriting (hfollows.sends _ rfl).writes
  | runClose hclosing =>
      exact .replying left hconn hquiet.update hwrites hwire hreads hrec
        hunread.update
  | connected hconn' =>
      rw [hconn] at hconn'
      cases hconn'
  | connectFailed _ => exact absurd rfl (hfollows.connects _)
  | recv hr => simp [hreads] at hr
  | readDone hr => simp [hreads] at hr
  | readFail hr => simp [hreads] at hr
  | transfer hw hopen hleft =>
      obtain ⟨rfl, _, hset⟩ := ListSlots.only_item hw hwrites
      refine .replying _ hconn hquiet.update (hset _) ?_ hreads hrec
        hunread.update
      rw [List.append_assoc, List.take_append_drop, hwire]
  | @writeDone i w hw hleft =>
      obtain ⟨rfl, herase, _⟩ := ListSlots.only_item hw hwrites
      obtain rfl : left = [] := hleft
      rw [List.append_nil] at hwire
      have hclient : (c.dropWrite i).nowner = .client := howner
      rw [onWrite_validation_of_client hclient rfl]
      refine .frames hconn ?_ ?_
      · refine afterChallenge_of_quiet hquiet.update herase ?_ fun _ => hwire
        show c.wire <+: _
        rw [hwire]
      · exact pastHandshake_mfReadHeader (c := c.dropWrite i) hreads hrec
          hunread.temp hunread.delivered
  | writeFail hw =>
      obtain ⟨_, herase, _⟩ := ListSlots.only_item hw hwrites
      refine .ended hconn ?_ hreads rfl hunread.update
      refine afterChallenge_of_quiet hquiet.update herase ⟨left, hwire⟩ ?_
      intro hopen
      simp [close] at hopen

/-- A client that has connected does not connect again. -/
theorem ioStep_connected
    (hio : IoStep c e c' u)
    (hconn : c.connecting = false) :
    c'.connecting = false := by
  cases hio with
  | runSend hmsg => exact (hands_onSend _ _).connecting.trans hconn
  | runClose => exact hconn
  | connected => rfl
  | connectFailed => rfl
  | recv => exact hconn
  | readDone hr hfull hon =>
      cases onRead_cases hon with
      | validated => exact hconn
      | refused => exact hconn
      | reply => exact hconn
      | header => exact hconn
      | noBody => exact hconn
      | body => exact hconn
  | readFail => exact hconn
  | transfer => exact hconn
  | @writeDone i w hw hleft =>
      cases hm : w.isMessage with
      | true => exact (hands_onWrite (c.dropWrite i) hm).connecting.trans hconn
      | false =>
          have hp : w.payload = .validation := by
            simpa [PendingWrite.isMessage] using hm
          simp only [onWrite, hp, onWriteValidation]
          split
          · exact hconn
          · exact hconn
  | writeFail => exact hconn

/-- A connection that reads nothing and only writes messages reads nothing
afterwards. -/
theorem ioStep_sameReader
    (hio : IoStep c e c' u)
    (hconn : c.connecting = false)
    (hreads : c.reads = [])
    (hmessages : OnlyMessages c) :
    SameReader c c' := by
  cases hio with
  | runSend hmsg => exact (sameGate_runSend hmsg).toSameReader
  | runClose => exact .update
  | connected hconn' =>
      rw [hconn] at hconn'
      cases hconn'
  | connectFailed hconn' =>
      rw [hconn] at hconn'
      cases hconn'
  | recv hr => simp [hreads] at hr
  | readDone hr => simp [hreads] at hr
  | readFail hr => simp [hreads] at hr
  | transfer => exact .update
  | @writeDone i w hw hleft =>
      have hsame := sameReader_onWrite (c.dropWrite i)
        (hmessages w (List.mem_of_getElem? hw))
      exact ⟨hsame.reads, hsame.received, hsame.temp, hsame.delivered⟩
  | writeFail => exact .update

/-- A handler keeps a client where the stream put it. -/
theorem ioStep_clientPhase
    (hall : Announced msgs)
    (hio : IoStep c e c' u)
    (hfollows : Follows c e)
    (howner : c.nowner = .client)
    (hunbroken : Unbroken c)
    (hpre : c.received <+: toBytes challenge ++ Message.frames msgs)
    (h : ClientPhase challenge msgs c) :
    ClientPhase challenge msgs c' := by
  cases h with
  | connecting hconn hquiet hwrites hwire hreads hrec hunread =>
      exact ioStep_connecting hio hfollows hquiet hwrites hwire hreads hrec
        hunread hconn
  | challenge hconn hquiet hwrites hwire hreads hunread =>
      exact ioStep_readingChallenge hio hfollows howner hpre hconn hquiet
        hwrites hwire hreads hunread
  | replying left hconn hquiet hwrites hwire hreads hrec hunread =>
      exact ioStep_replying hio hfollows howner hconn hquiet hwrites hwire
        hreads hrec hunread
  | frames hconn hafter hpast =>
      have hreads : ∀ r ∈ c.reads, r.payload ≠ .validation := by
        intro r hr
        obtain ⟨i, hi⟩ := List.mem_iff_getElem?.mp hr
        exact hpast.state.payload_ne hi
      exact .frames (ioStep_connected hio hconn)
        (ioStep_afterChallenge hio hconn hreads hunbroken hafter)
        (ioStep_pastHandshake hall hio hconn (Or.inr hafter.messages) hpre
          hpast).1
  | ended hconn hafter hreads hclosed hunread =>
      have hnone : ∀ r ∈ c.reads, r.payload ≠ .validation := by
        simp [hreads]
      have hsame := ioStep_sameReader hio hconn hreads hafter.messages
      refine .ended (ioStep_connected hio hconn)
        (ioStep_afterChallenge hio hconn hnone hunbroken hafter)
        (hsame.reads.trans hreads) ?_ (hunread.congr hsame)
      by_contra hopen
      rw [isOpen_of_ioStep hio hfollows.connects (by simpa using hopen)]
        at hclosed
      cases hclosed

/-- The client's end of a connection whose server has issued `challenge`, as far
as what it is given is the challenge and the frames of `msgs`. -/
structure ClientEnd
    (challenge : UInt64) (msgs : List (Message T)) (c : Connection T) :
    Prop where
  owner : c.nowner = .client
  unbroken : Unbroken c
  phase :
    c.received <+: toBytes challenge ++ Message.frames msgs →
      ClientPhase challenge msgs c

/-- Calls from the outside do not concern the handshake. -/
theorem ClientEnd.update
    {posted : List (Message T)} {closing : Nat}
    (h : ClientEnd challenge msgs c) :
    ClientEnd challenge msgs { c with posted := posted, closing := closing } where
  owner := h.owner
  unbroken := h.unbroken.congr .update id
  phase := fun hpre => (h.phase hpre).update id

theorem ioStep_clientEnd
    (hall : Announced msgs)
    (hio : IoStep c e c' u)
    (hfollows : Follows c e)
    (h : ClientEnd challenge msgs c) :
    ClientEnd challenge msgs c' where
  owner := (ioStep_client hio h.owner).1
  unbroken := ioStep_unbroken hio hfollows.connects h.unbroken
  phase := by
    intro hpre
    have hpre₀ := (ioStep_received hio).trans hpre
    exact ioStep_clientPhase hall hio hfollows h.owner h.unbroken hpre₀
      (h.phase hpre₀)

/-- One step of a client's connection whose sends follow its reply. -/
theorem step_clientEnd
    (hall : Announced msgs)
    (c : Connection T) (e : ConnEvent T) (c' : Connection T)
    (h : ClientEnd challenge msgs c)
    (hfollow : SendsFollow c e)
    (hstep : c.step e = some c') :
    ClientEnd challenge msgs c' := by
  rcases step_cases hstep with
    ⟨msg, _, rfl⟩ | ⟨_, rfl⟩ | ⟨e₀, u, c₀, rfl, hio, hc'⟩
  · exact h.update
  · rw [disconnect_eq]
    exact h.update
  · obtain rfl : c' = c₀ := by
      rcases hc' with hc' | ⟨hvalidated, _⟩
      · exact hc'
      · exact absurd hvalidated (ioStep_client hio h.owner).2
    refine ioStep_clientEnd hall hio ⟨?_, ?_⟩ h
    · rintro isOpen rfl
      exact hfollow.1 isOpen rfl
    · rintro i rfl
      cases hio with
      | runSend hmsg => exact hfollow.2 i _ rfl hmsg

theorem clientEnd_newClient [Inhabited T] :
    ClientEnd challenge msgs (newClient : Connection T) :=
  ⟨rfl, Or.inl ⟨.idle rfl rfl rfl, rfl⟩,
    fun _ => .connecting rfl ⟨rfl, rfl, rfl, rfl⟩ rfl rfl rfl rfl ⟨rfl, rfl⟩⟩

end Steps

end Connection

end SpeciesSimulator
