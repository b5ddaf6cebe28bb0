import SpeciesSimulator.NetLinkProgress

/-!
# What a link can still deliver

Both ends of a link have a handler to run or bytes to move until everything
that was sent has been delivered.  A link on which neither end can advance is
settled: both ends are behind the handshake, their queues are empty, all frames
are on the wire, and the readers have consumed them.

Main facts:
* `step_fits`, `step_listening`: an open server's end always reads, and no read
  has more bytes than it wants;
* `Live.delivered_of_settled`: a settled link has delivered everything;
* `link_completes`: from every state of an orderly run in which both sockets are
  open, an orderly run leads to a settled link.
-/

namespace SpeciesSimulator

open ByteLayout Transition Message

universe u

namespace Connection

variable {T : Type u}

section Readers

/-- No read has more bytes than it wants. -/
def Fits (c : Connection T) : Prop :=
  ∀ r ∈ c.reads, r.got.length ≤ r.want

theorem Starts.fits
    {c c' : Connection T}
    (h : Starts c c')
    (hfits : Fits c) :
    Fits c' := by
  obtain ⟨rs, hrs, hreads⟩ := h.reads
  intro r hr
  rw [hreads, List.mem_append] at hr
  rcases hr with hr | hr
  · exact hfits r hr
  · exact Nat.le_of_lt (hrs r hr)

theorem Fits.dropRead
    {c : Connection T}
    (h : Fits c)
    (i : Nat) :
    Fits (c.dropRead i) :=
  fun r hr => h r (List.mem_of_mem_eraseIdx hr)

/-- A connection that stops reading only when its socket is closed. -/
def Listening (c : Connection T) : Prop :=
  c.reads = [] → c.isOpen = false

theorem Listening.congr
    {c c' : Connection T}
    (h : Listening c)
    (hs : SameReader c c')
    (hopen : c'.isOpen = true → c.isOpen = true) :
    Listening c' := by
  intro hnone
  rw [hs.reads] at hnone
  by_contra hne
  have hclosed := h hnone
  rw [hopen (by simpa using hne)] at hclosed
  cases hclosed

theorem listening_asyncRead
    (c : Connection T) (payload : Payload) (want : Nat) :
    Listening (c.asyncRead payload want) := by
  intro hnone
  have hnil : c.reads ++ [_] = [] := hnone
  simp at hnil

variable [Layout (MessageHeader T)]
variable {c c' : Connection T} {u : Upcall T}

theorem ioStep_fits
    {e : IoEvent}
    (hio : IoStep c e c' u)
    (h : Fits c) :
    Fits c' := by
  cases hio with
  | @runSend i msg hmsg =>
      exact (starts_onSend (c.dropPosted i) msg).fits h
  | runClose => exact h
  | connected =>
      exact (starts_asyncRead _ .validation (size_pos (α := UInt64))).fits h
  | connectFailed => exact h
  | recv hr hopen hwant =>
      intro r hr'
      rcases List.mem_or_eq_of_mem_set hr' with hr' | rfl
      · exact h r hr'
      · rw [List.length_append]
        exact hwant
  | @readDone i r c' u hr hfull hon =>
      have hdrop := h.dropRead i
      by_cases hrefused : r.payload = .validation ∧ c.nowner = .server
      · have howner : (c.dropRead i).nowner = .server := hrefused.2
        simp only [onRead, hrefused.1] at hon
        rw [onReadValidation_of_server howner] at hon
        split at hon
        · cases hon
          exact hdrop
        · cases hon
          exact hdrop
      · refine (starts_onRead (fun hp howner => ?_) hon).fits hdrop
        exact absurd ⟨hp, howner⟩ hrefused
  | readFail => exact h.dropRead _
  | transfer => exact h
  | @writeDone i w hw hleft =>
      exact (starts_onWrite (c.dropWrite i) w).fits h
  | writeFail => exact h

theorem step_fits
    (c : Connection T) (e : ConnEvent T) (c' : Connection T)
    (h : Fits c)
    (hstep : c.step e = some c') :
    Fits c' := by
  rcases step_cases hstep with
    ⟨msg, _, rfl⟩ | ⟨_, rfl⟩ | ⟨e₀, u, c₀, rfl, hio, hc'⟩
  · exact h
  · rw [disconnect_eq]
    exact h
  · have h₀ := ioStep_fits hio h
    rcases hc' with rfl | ⟨_, rfl⟩
    · exact h₀
    · exact (starts_mfReadHeader c₀).fits h₀

/-- A handler of a server's connection starts the next read, closes the socket
or validates the client. -/
theorem ioStep_listening
    {e : IoEvent}
    (hio : IoStep c e c' u)
    (howner : c.nowner = .server)
    (hconn : c.connecting = false)
    (h : Listening c) :
    Listening c' ∨ u = .validated := by
  cases hio with
  | runSend hmsg =>
      have hsame := sameGate_runSend hmsg
      exact Or.inl (h.congr hsame.toSameReader hsame.isOpen)
  | runClose => exact Or.inl fun _ => rfl
  | connected hconn' =>
      rw [hconn] at hconn'
      cases hconn'
  | connectFailed hconn' =>
      rw [hconn] at hconn'
      cases hconn'
  | @recv i bytes r hr hopen hwant =>
      exact Or.inl fun hnone => h ((List.set_eq_nil_iff _ _).mp hnone)
  | readDone hr hfull hon =>
      cases onRead_cases hon with
      | validated => exact Or.inr rfl
      | refused => exact Or.inl fun _ => rfl
      | reply hp hclient =>
          rw [show c.nowner = .client from hclient] at howner
          cases howner
      | header => exact Or.inl (listening_asyncRead _ _ _)
      | noBody => exact Or.inl (listening_asyncRead _ _ _)
      | body => exact Or.inl (listening_asyncRead _ _ _)
  | readFail => exact Or.inl fun _ => rfl
  | transfer => exact Or.inl (h.congr .update id)
  | @writeDone i w hw hleft =>
      have hsame := sameGate_writeDone howner i w
      exact Or.inl (h.congr hsame.toSameReader hsame.isOpen)
  | writeFail => exact Or.inl fun _ => rfl

/-- Once the client is validated the first header is read. -/
theorem step_listening
    {e : ConnEvent T}
    (howner : c.nowner = .server)
    (hconn : c.connecting = false)
    (h : Listening c)
    (hstep : c.step e = some c') :
    Listening c' := by
  cases e with
  | send msg =>
      cases hstep
      exact h
  | disconnect =>
      cases hstep
      rw [disconnect_eq]
      exact h
  | io e =>
      simp only [step] at hstep
      split at hstep
      · cases hstep
        exact listening_asyncRead _ _ _
      · next c₀ u hu hio =>
        cases hstep
        rcases ioStep_listening (ioStep_cases hio) howner hconn h with h' | h'
        · exact h'
        · exact absurd h' hu
      · cases hstep

end Readers

section Writers

variable [Layout (MessageHeader T)]
variable {challenge : UInt64} {msgs : List (Message T)} {c : Connection T}

/-- Behind the challenge nothing but frames is written. -/
theorem Intact.room
    (h : Intact (toBytes challenge) c)
    (hunbroken : Unbroken c) :
    c.wire.length + c.unsent.length ≤
      byteSize UInt64 + (frames c.ran).length := by
  have hintact : c.wire ++ c.unsent = toBytes challenge ++ c.handed := h
  have hhanded := hunbroken.handed_prefix.length_le
  rw [← List.length_append, hintact, List.length_append, length_toBytes]
  exact Nat.add_le_add_left hhanded _

/-- All frames are on the wire when nothing is being written. -/
theorem Intact.wire_of_idle
    (h : Intact (toBytes challenge) c)
    (hunbroken : Unbroken c)
    (hopen : c.isOpen = true)
    (hwrites : c.writes = []) :
    c.wire = toBytes challenge ++ frames c.ran := by
  have hintact : c.wire ++ c.unsent = toBytes challenge ++ c.handed := h
  have hunsent : c.unsent = [] := by simp [unsent, hwrites]
  have hidle : c.messageWrites = [] := by simp [messageWrites, hwrites]
  rw [hunsent, List.append_nil] at hintact
  rcases hunbroken with hchain | ⟨_, hclosed⟩
  · cases hchain.state with
    | idle hq hw hh => rw [hintact, hh]
    | header msg rest left hq hw hh =>
        rw [hidle] at hw
        cases hw
    | body msg rest left hq hw hh =>
        rw [hidle] at hw
        cases hw
  · rw [hopen] at hclosed
    cases hclosed

theorem ServerEnd.room
    (h : ServerEnd challenge msgs c)
    (hopen : c.isOpen = true) :
    c.wire.length + c.unsent.length ≤
      byteSize UInt64 + (frames c.ran).length :=
  (h.turn.opened hopen).room h.unbroken

theorem ServerEnd.wire_of_idle
    (h : ServerEnd challenge msgs c)
    (hopen : c.isOpen = true)
    (hwrites : c.writes = []) :
    c.wire = toBytes challenge ++ frames c.ran :=
  (h.turn.opened hopen).wire_of_idle h.unbroken hopen hwrites

theorem ClientPhase.room
    (h : ClientPhase challenge msgs c)
    (hunbroken : Unbroken c)
    (hopen : c.isOpen = true) :
    c.wire.length + c.unsent.length ≤
      byteSize UInt64 + (Message.frames c.ran).length := by
  cases h with
  | connecting hconn hquiet hwrites hwire =>
      simp [unsent, hwrites, hwire]
  | challenge hconn hquiet hwrites hwire =>
      simp [unsent, hwrites, hwire]
  | replying left hconn hquiet hwrites hwire =>
      have hsize : (toBytes (mfScramble challenge)).length = byteSize UInt64 :=
        length_toBytes _
      simp only [unsent, hwrites, List.flatMap_cons, List.flatMap_nil,
        List.append_nil]
      rw [← List.length_append, hwire, hsize]
      exact Nat.le_add_right _ _
  | frames hconn hafter => exact (hafter.opened hopen).room hunbroken
  | ended hconn hafter => exact (hafter.opened hopen).room hunbroken

end Writers

section Starved

variable [Layout (MessageHeader T)]
variable {first : List UInt8} {msgs : List (Message T)} {c : Connection T}

/-- A reader that waits for more than the frames has delivered what they
deliver. -/
theorem ReadState.delivered_of_waiting
    (h : ReadState msgs c)
    (hrec : c.received = frames msgs)
    {r : PendingRead} {rs : List PendingRead}
    (hreads : c.reads = r :: rs)
    (hwaits : r.got.length < r.want) :
    c.delivered = deliveries [] msgs := by
  cases h with
  | header done rest got hmsgs hone hrec' htemp hdel =>
      rw [hreads] at hone
      cases hone
      have hgot : got = frames rest := by
        rw [hrec, hmsgs, frames_append] at hrec'
        exact (List.append_cancel_left hrec').symm
      cases rest with
      | nil => rw [hdel, hmsgs, List.append_nil]
      | cons msg rest =>
          have hheader : (toBytes msg.header).length ≤ got.length := by
            rw [hgot, frames_cons, frame, List.append_assoc,
              List.length_append]
            exact Nat.le_add_right _ _
          rw [length_toBytes] at hheader
          exact absurd hwaits (Nat.not_lt.mpr hheader)
  | body done rest msg got hmsgs hne hone hrec' htemp hdel =>
      rw [hreads] at hone
      cases hone
      have hgot : got = msg.body ++ frames rest := by
        rw [hrec, hmsgs, frames_append, frames_cons, frame,
          List.append_assoc] at hrec'
        exact (List.append_cancel_left
          (List.append_cancel_left hrec')).symm
      have hbody : msg.body.length ≤ got.length := by
        rw [hgot, List.length_append]
        exact Nat.le_add_right _ _
      exact absurd hwaits (Nat.not_lt.mpr hbody)
  | ended hnone =>
      rw [hnone] at hreads
      cases hreads

theorem PastHandshake.delivered_of_waiting
    (h : PastHandshake first msgs c)
    (hrec : c.received = first ++ frames msgs)
    {r : PendingRead} {rs : List PendingRead}
    (hreads : c.reads = r :: rs)
    (hwaits : r.got.length < r.want) :
    c.delivered = deliveries [] msgs := by
  refine h.state.delivered_of_waiting ?_ hreads hwaits
  show c.received.drop first.length = _
  rw [hrec, List.drop_left]

end Starved

end Connection

namespace Link

open Connection

variable {T : Type u} [Layout (MessageHeader T)]
variable {now : UInt64} {toServer toClient : List (Message T)}
variable {l l' : Link T}

section Settled

/-- A link with both sockets open on which `toServer` and `toClient` are sent
or about to be. -/
structure Live
    (now : UInt64) (toServer toClient : List (Message T)) (l : Link T) :
    Prop where
  ends : Ends now toServer toClient l
  serverSends : l.1.ran ++ l.1.posted = toClient
  clientSends : l.2.ran ++ l.2.posted = toServer
  serverOpen : l.1.isOpen = true
  clientOpen : l.2.isOpen = true
  listening : Listening l.1
  serverFits : Fits l.1
  clientFits : Fits l.2

/-- The bytes of a handshake and of messages. -/
def streamLength (msgs : List (Message T)) : Nat :=
  byteSize UInt64 + (frames msgs).length

/-- A handler that brings the server's end closer to having nothing to do. -/
def ServerAdvances
    (toServer toClient : List (Message T)) (l : Link T) (e : IoEvent)
    (server : Connection T) : Prop :=
  Advance (streamLength toClient) (streamLength toServer) l.2.wire l.1 e server

/-- A handler that brings the client's end closer to having nothing to do. -/
def ClientAdvances
    (toServer toClient : List (Message T)) (l : Link T) (e : IoEvent)
    (client : Connection T) : Prop :=
  Advance (streamLength toServer) (streamLength toClient) l.1.wire l.2 e client

/-- Neither end advances by an orderly handler. -/
structure Settled (toServer toClient : List (Message T)) (l : Link T) :
    Prop where
  server :
    ∀ e server,
      ChallengeFirst l.1 (.io e) →
        ¬ ServerAdvances toServer toClient l e server
  client :
    ∀ e client,
      SendsFollow l.2 (.io e) → ¬ ClientAdvances toServer toClient l e client

/-- Everything has been sent and delivered. -/
structure Delivered (toServer toClient : List (Message T)) (l : Link T) :
    Prop where
  serverRan : l.1.ran = toClient
  clientRan : l.2.ran = toServer
  serverPosted : l.1.posted = []
  clientPosted : l.2.posted = []
  toClient : l.2.delivered = deliveries [] toClient
  toServer : l.1.delivered = deliveries [] toServer

theorem Live.serverRan
    (h : Live now toServer toClient l) :
    l.1.ran <+: toClient :=
  ⟨_, h.serverSends⟩

theorem Live.clientRan
    (h : Live now toServer toClient l) :
    l.2.ran <+: toServer :=
  ⟨_, h.clientSends⟩

theorem Live.phase
    (h : Live now toServer toClient l) :
    ClientPhase now toClient l.2 :=
  h.ends.phase h.serverRan

theorem Live.reading
    (h : Live now toServer toClient l) :
    ServerReads (mfScramble now) toServer l.1 :=
  h.ends.reading h.serverRan h.clientRan

/-- The server has room for the challenge and its messages. -/
theorem Live.serverRoom
    (h : Live now toServer toClient l) :
    l.1.wire.length + l.1.unsent.length ≤ streamLength toClient := by
  have hroom := h.ends.server.room h.serverOpen
  have hran := (frames_prefix_of h.serverRan).length_le
  unfold streamLength
  omega

theorem Live.clientRoom
    (h : Live now toServer toClient l) :
    l.2.wire.length + l.2.unsent.length ≤ streamLength toServer := by
  have hroom := h.phase.room h.ends.client.unbroken h.clientOpen
  have hran := (frames_prefix_of h.clientRan).length_le
  unfold streamLength
  omega

variable (hlive : Live now toServer toClient l)
variable (hsettled : Settled toServer toClient l)

include hlive hsettled

/-- Nothing is being written on a settled link. -/
theorem Live.server_writes_eq_nil :
    l.1.writes = [] := by
  by_contra hwrites
  obtain ⟨e, c', hplain, hadv⟩ :=
    exists_advance_write hlive.serverOpen hlive.ends.joined.left
      hlive.serverRoom hwrites
  exact hsettled.server e c' (hplain.challengeFirst hlive.ends.server.turn) hadv

theorem Live.client_writes_eq_nil :
    l.2.writes = [] := by
  by_contra hwrites
  obtain ⟨e, c', hplain, hadv⟩ :=
    exists_advance_write hlive.clientOpen hlive.ends.joined.right
      hlive.clientRoom hwrites
  exact hsettled.client e c' (hplain.sendsFollow l.2) hadv

theorem Live.client_connected :
    l.2.connecting = false := by
  by_contra hconn
  rw [Bool.not_eq_false] at hconn
  obtain ⟨e, c', hplain, hadv⟩ :=
    exists_advance_connect hlive.clientOpen hlive.ends.joined.right hconn
  exact hsettled.client e c' (hplain.sendsFollow l.2) hadv

/-- The server's reader waits for more than the client has sent. -/
theorem Live.server_waits :
    ∃ r rs, l.1.reads = r :: rs ∧ r.got.length < r.want ∧
      l.1.received = l.2.wire := by
  have hreads : l.1.reads ≠ [] := by
    intro hnone
    have hclosed := hlive.listening hnone
    rw [hlive.serverOpen] at hclosed
    cases hclosed
  obtain ⟨r, rs, hone⟩ := List.exists_cons_of_ne_nil hreads
  have hmem : r ∈ l.1.reads := by simp [hone]
  have hroom : l.2.wire.length ≤ streamLength toServer :=
    Nat.le_of_add_right_le hlive.clientRoom
  have hright :
      r.payload = .validation → l.1.nowner = .server →
        r.got.length = r.want → ofBytes r.got = l.1.nHandshakeCheck := by
    -- a complete reply is the right one
    intro hp howner hfull
    cases hlive.reading with
    | awaiting hreads' hunread =>
        rw [hone] at hreads'
        cases hreads'
        have hwire := hlive.phase.wire_prefix_of hlive.ends.client.unbroken
        have hreply : l.1.received = toBytes (mfScramble now) :=
          eq_reply_of_prefix (hlive.ends.joined.left.trans hwire) hfull
        show ofBytes l.1.received = _
        rw [hreply, ofBytes_toBytes]
        exact hlive.ends.server.check.symm
    | validated hnone => exact absurd hnone hreads
    | frames hpast =>
        have hi : l.1.reads[0]? = some r := by simp [hone]
        exact absurd hp (hpast.state.payload_ne hi)
    | ended hnone => exact absurd hnone hreads
  rcases
    exists_advance_read (streamLength toClient) hlive.serverOpen
      hlive.ends.joined.left hroom hone (hlive.serverFits r hmem) hright with
    ⟨e, c', hplain, hadv⟩ | hwaits
  · exact absurd hadv (hsettled.server e c' (hplain.challengeFirst hlive.ends.server.turn))
  · exact ⟨r, rs, hone, hwaits⟩

/-- The client's reader waits for more than the server has sent. -/
theorem Live.client_waits
    {r : PendingRead} {rs : List PendingRead}
    (hone : l.2.reads = r :: rs) :
    r.got.length < r.want ∧ l.2.received = l.1.wire := by
  have hmem : r ∈ l.2.reads := by simp [hone]
  have hroom : l.1.wire.length ≤ streamLength toClient :=
    Nat.le_of_add_right_le hlive.serverRoom
  have hright :
      r.payload = .validation → l.2.nowner = .server →
        r.got.length = r.want → ofBytes r.got = l.2.nHandshakeCheck := by
    intro _ howner
    rw [hlive.ends.client.owner] at howner
    cases howner
  rcases
    exists_advance_read (streamLength toServer) hlive.clientOpen
      hlive.ends.joined.right hroom hone (hlive.clientFits r hmem) hright with
    ⟨e, c', hplain, hadv⟩ | hwaits
  · exact absurd hadv (hsettled.client e c' (hplain.sendsFollow l.2))
  · exact hwaits

theorem Live.server_wire :
    l.1.wire = toBytes now ++ frames l.1.ran :=
  hlive.ends.server.wire_of_idle hlive.serverOpen
    (hlive.server_writes_eq_nil hsettled)

/-- The client of a settled link is behind the handshake. -/
theorem Live.client_frames :
    AfterChallenge (mfScramble now) l.2 ∧
      PastHandshake (toBytes now) toClient l.2 := by
  cases hlive.phase with
  | connecting hconn =>
      rw [hlive.client_connected hsettled] at hconn
      cases hconn
  | challenge hconn hquiet hwrites hwire hreads hunread =>
      -- the whole challenge is on the wire
      obtain ⟨hwaits, hrec⟩ := hlive.client_waits hsettled hreads
      have hlen : (toBytes now).length ≤ l.2.received.length := by
        rw [hrec, hlive.server_wire hsettled, List.length_append]
        exact Nat.le_add_right _ _
      rw [length_toBytes] at hlen
      exact absurd hwaits (Nat.not_lt.mpr hlen)
  | replying left hconn hquiet hwrites =>
      rw [hlive.client_writes_eq_nil hsettled] at hwrites
      cases hwrites
  | frames hconn hafter hpast => exact ⟨hafter, hpast⟩
  | ended hconn hafter hreads hclosed =>
      rw [hlive.clientOpen] at hclosed
      cases hclosed

theorem Live.client_wire :
    l.2.wire = toBytes (mfScramble now) ++ frames l.2.ran :=
  ((hlive.client_frames hsettled).1.opened hlive.clientOpen).wire_of_idle
    hlive.ends.client.unbroken hlive.clientOpen
    (hlive.client_writes_eq_nil hsettled)

/-- The server of a settled link is behind the handshake. -/
theorem Live.server_frames :
    PastHandshake (toBytes (mfScramble now)) toServer l.1 := by
  obtain ⟨r, rs, hone, hwaits, hrec⟩ := hlive.server_waits hsettled
  cases hlive.reading with
  | awaiting hreads hunread =>
      -- the whole reply is on the wire
      rw [hone] at hreads
      cases hreads
      have hlen : (toBytes (mfScramble now)).length ≤ l.1.received.length := by
        rw [hrec, hlive.client_wire hsettled, List.length_append]
        exact Nat.le_add_right _ _
      rw [length_toBytes] at hlen
      exact absurd hwaits (Nat.not_lt.mpr hlen)
  | validated hreads =>
      rw [hone] at hreads
      cases hreads
  | frames hpast => exact hpast
  | ended hreads =>
      rw [hone] at hreads
      cases hreads

/-- No handler of `send` waits on a settled link. -/
theorem Live.server_posted_eq_nil :
    l.1.posted = [] := by
  by_contra hposted
  obtain ⟨msg, rest, hone⟩ := List.exists_cons_of_ne_nil hposted
  obtain ⟨c', hadv⟩ :=
    exists_advance_send (streamLength toClient) (streamLength toServer)
      hlive.serverOpen hlive.ends.joined.left hone
  refine hsettled.server _ c' ?_ hadv
  rintro i n w ⟨⟩

theorem Live.client_posted_eq_nil :
    l.2.posted = [] := by
  by_contra hposted
  obtain ⟨msg, rest, hone⟩ := List.exists_cons_of_ne_nil hposted
  obtain ⟨c', hadv⟩ :=
    exists_advance_send (streamLength toServer) (streamLength toClient)
      hlive.clientOpen hlive.ends.joined.right hone
  obtain ⟨_, hpast⟩ := hlive.client_frames hsettled
  refine hsettled.client _ c' ⟨by simp, fun i msg' _ _ => ⟨?_, ?_, ?_⟩⟩ hadv
  · have hlen := hpast.begins.length_le
    rw [length_toBytes] at hlen
    exact hlen
  · intro r hr
    obtain ⟨j, hj⟩ := List.mem_iff_getElem?.mp hr
    exact hpast.state.payload_ne hj
  · rintro ⟨w, hw, _⟩
    rw [hlive.client_writes_eq_nil hsettled] at hw
    cases hw

/-- A settled link has delivered everything. -/
theorem Live.delivered_of_settled :
    Delivered toServer toClient l := by
  have hserverRan : l.1.ran = toClient := by
    rw [← hlive.serverSends, hlive.server_posted_eq_nil hsettled,
      List.append_nil]
  have hclientRan : l.2.ran = toServer := by
    rw [← hlive.clientSends, hlive.client_posted_eq_nil hsettled,
      List.append_nil]
  refine ⟨hserverRan, hclientRan, hlive.server_posted_eq_nil hsettled,
    hlive.client_posted_eq_nil hsettled, ?_, ?_⟩
  · obtain ⟨_, hpast⟩ := hlive.client_frames hsettled
    have hreads : l.2.reads ≠ [] := by
      intro hnone
      have hclosed := hpast.alive hnone
      rw [hlive.clientOpen] at hclosed
      cases hclosed
    obtain ⟨r, rs, hone⟩ := List.exists_cons_of_ne_nil hreads
    obtain ⟨hwaits, hrec⟩ := hlive.client_waits hsettled hone
    rw [hlive.server_wire hsettled, hserverRan] at hrec
    exact hpast.delivered_of_waiting hrec hone hwaits
  · obtain ⟨r, rs, hone, hwaits, hrec⟩ := hlive.server_waits hsettled
    rw [hlive.client_wire hsettled, hclientRan] at hrec
    exact (hlive.server_frames hsettled).delivered_of_waiting hrec hone hwaits

end Settled

section Progress

/-- What a link has still to do. -/
def distance (toServer toClient : List (Message T)) (l : Link T) : Nat :=
  l.1.distance (streamLength toClient) (streamLength toServer) +
    l.2.distance (streamLength toServer) (streamLength toClient)

/-- A step of the server's end that advances keeps the link live. -/
theorem Live.serverAdvances
    {e : IoEvent} {server : Connection T}
    (hserver : Announced toServer)
    (h : Live now toServer toClient l)
    (hfirst : ChallengeFirst l.1 (.io e))
    (hadv : ServerAdvances toServer toClient l e server) :
    step l (.inl (.io e)) = some (server, l.2) ∧
      Orderly l (.inl (.io e)) ∧
      Live now toServer toClient (server, l.2) ∧
      distance toServer toClient (server, l.2) <
        distance toServer toClient l := by
  have hstep : step l (.inl (.io e)) = some (server, l.2) :=
    Duplex.step_inl hadv.step hadv.got
  refine ⟨hstep, ⟨?_, by rintro _ ⟨⟩⟩, ?_, Nat.add_lt_add_right hadv.closer _⟩
  · rintro _ ⟨⟩
    exact hfirst
  · exact
      { ends :=
          { server :=
              step_serverEnd hserver _ _ _ h.ends.server hfirst hadv.step
            client := h.ends.client
            joined := Duplex.step_joined _ _ _ h.ends.joined hstep }
        serverSends := hadv.sent.trans h.serverSends
        clientSends := h.clientSends
        serverOpen := hadv.isOpen
        clientOpen := h.clientOpen
        listening :=
          step_listening h.ends.server.turn.owner h.ends.server.turn.connecting
            h.listening hadv.step
        serverFits := step_fits _ _ _ h.serverFits hadv.step
        clientFits := h.clientFits }

/-- A step of the client's end that advances keeps the link live. -/
theorem Live.clientAdvances
    {e : IoEvent} {client : Connection T}
    (hclient : Announced toClient)
    (h : Live now toServer toClient l)
    (hfollow : SendsFollow l.2 (.io e))
    (hadv : ClientAdvances toServer toClient l e client) :
    step l (.inr (.io e)) = some (l.1, client) ∧
      Orderly l (.inr (.io e)) ∧
      Live now toServer toClient (l.1, client) ∧
      distance toServer toClient (l.1, client) <
        distance toServer toClient l := by
  have hstep : step l (.inr (.io e)) = some (l.1, client) :=
    Duplex.step_inr hadv.step hadv.got
  refine ⟨hstep, ⟨by rintro _ ⟨⟩, ?_⟩, ?_, Nat.add_lt_add_left hadv.closer _⟩
  · rintro _ ⟨⟩
    exact hfollow
  · exact
      { ends :=
          { server := h.ends.server
            client :=
              step_clientEnd hclient _ _ _ h.ends.client hfollow hadv.step
            joined := Duplex.step_joined _ _ _ h.ends.joined hstep }
        serverSends := h.serverSends
        clientSends := hadv.sent.trans h.clientSends
        serverOpen := h.serverOpen
        clientOpen := hadv.isOpen
        listening := h.listening
        serverFits := h.serverFits
        clientFits := step_fits _ _ _ h.clientFits hadv.step }

/-- A live link that has not delivered everything comes closer to it. -/
theorem Live.exists_step
    (hserver : Announced toServer)
    (hclient : Announced toClient)
    (h : Live now toServer toClient l)
    (hnot : ¬ Delivered toServer toClient l) :
    ∃ e l', step l e = some l' ∧ Orderly l e ∧
      Live now toServer toClient l' ∧
      distance toServer toClient l' < distance toServer toClient l := by
  by_contra hnone
  refine hnot (h.delivered_of_settled ⟨?_, ?_⟩)
  · intro e server hfirst hadv
    exact hnone ⟨_, _, h.serverAdvances hserver hfirst hadv⟩
  · intro e client hfollow hadv
    exact hnone ⟨_, _, h.clientAdvances hclient hfollow hadv⟩

variable [Inhabited T]

/-- An orderly run with both sockets open leaves a live link. -/
theorem live_of_run
    {greeting : Message T} {uid : UInt32}
    {es : List (LinkEvent T)} {server client : Connection T}
    (horderly : Meets step Orderly (accepted greeting now uid) es)
    (hrun : run step (accepted greeting now uid) es = some (server, client))
    (hserverOpen : server.isOpen = true)
    (hclientOpen : client.isOpen = true)
    (hserver : Announced server.sends)
    (hclient : Announced client.sends) :
    Live now client.sends server.sends (server, client) := by
  have hlistens :
      InTurn now server ∧ Listening server := by
    refine run_invariant (I := fun c => InTurn now c ∧ Listening c)
      (fun c e c' h hfirst hstep => ⟨?_, ?_⟩) ?_
      (Duplex.meets_left (meets_and_iff.mp horderly).1 hrun)
      (Duplex.run_left hrun)
    · exact step_inTurn h.1 hfirst hstep
    · exact step_listening h.1.owner h.1.connecting h.2 hstep
    · exact ⟨inTurn_acceptConnection greeting now uid,
        listening_asyncRead _ _ _⟩
  have hserverFits : Fits server :=
    reachable_invariant step_fits
      (show Fits (acceptConnection greeting now uid) by
        simp [Fits, acceptConnection, make, send, connectToClient,
          mfReadValidation, mfWriteValidation, asyncRead, asyncWrite])
      ⟨_, Duplex.run_left hrun⟩
  have hclientFits : Fits client :=
    reachable_invariant step_fits
      (show Fits (newClient : Connection T) by
        simp [Fits, newClient, make, connectToServer])
      ⟨_, Duplex.run_right hrun⟩
  exact
    { ends := run_ends hclient hserver horderly hrun
      serverSends := rfl
      clientSends := rfl
      serverOpen := hserverOpen
      clientOpen := hclientOpen
      listening := hlistens.2
      serverFits := hserverFits
      clientFits := hclientFits }

/-- From every state of an orderly run in which both sockets are open, an
orderly run leads to a state in which every message that was sent by then has
been delivered at the other end. -/
theorem link_completes
    (greeting : Message T) (now : UInt64) (uid : UInt32)
    {es : List (LinkEvent T)} {server client : Connection T}
    (horderly : Meets step Orderly (accepted greeting now uid) es)
    (hrun : run step (accepted greeting now uid) es = some (server, client))
    (hserverOpen : server.isOpen = true)
    (hclientOpen : client.isOpen = true)
    (hserver : Announced (server.ran ++ server.posted))
    (hclient : Announced (client.ran ++ client.posted)) :
    ∃ es' l', Meets step Orderly (server, client) es' ∧
      run step (server, client) es' = some l' ∧
      Delivered (client.ran ++ client.posted) (server.ran ++ server.posted)
        l' := by
  have hlive :
      Live now (client.ran ++ client.posted) (server.ran ++ server.posted)
        (server, client) :=
    live_of_run horderly hrun hserverOpen hclientOpen hserver hclient
  obtain ⟨l', ⟨es', horderly', hrun'⟩, _, hdelivered⟩ :=
    exists_reachableBy_of_progress
      (distance (client.ran ++ client.posted) (server.ran ++ server.posted))
      (fun l hl hnot => hl.exists_step hclient hserver hnot) hlive
  exact ⟨es', l', horderly', hrun', hdelivered⟩

end Progress

section Sample

/-- The link right after the server has accepted the client. -/
theorem link_completes_accepted :
    ∃ es l', Meets step Orderly (accepted ping 1 10000) es ∧
      run step (accepted ping 1 10000) es = some l' ∧
      Delivered [] [ping] l' := by
  have horderly : Meets step Orderly (accepted ping 1 10000) [] := trivial
  refine link_completes ping 1 10000 horderly rfl rfl rfl ?_ ?_
  · exact List.forall_mem_singleton.mpr rfl
  · exact List.forall_mem_nil _

end Sample

end Link

end SpeciesSimulator
