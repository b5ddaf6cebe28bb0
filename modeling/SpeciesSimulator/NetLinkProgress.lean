import SpeciesSimulator.NetLink

/-!
# What brings a link closer to its goal

How far an end of a link has to go: the bytes that it has to write and to read,
the operations that are through but whose handlers have not run, and the
messages that are still posted.

Main facts:
* `Starts.distance`: what a handler starts is not through yet;
* `exists_advance_write`, `exists_advance_read`, `exists_advance_send`: an end
  that has something to write, to read or to send can come closer;
* `ioStep_sends`: handlers that run in their order only move messages from the
  posted ones to those that ran;
* `ioStep_delivered`: what a handler delivers is what it passes on.
-/

namespace SpeciesSimulator

open ByteLayout Transition Message

universe u

/-- The message that is passed on, if there is one. -/
def Upcall.delivers {T : Type u} : Upcall T → List (Message T)
  | .incoming msg => [msg]
  | .none => []
  | .validated => []

namespace Connection

variable {T : Type u}

section Distance

/-- What an end that writes and reads streams of these lengths has still to
do. -/
def distance (outgoing incoming : Nat) (c : Connection T) : Nat :=
  2 * (outgoing - c.wire.length) + 2 * (incoming - c.received.length) +
    (c.writes.filter fun w => w.left.isEmpty).length +
    (c.reads.filter fun r => r.got.length == r.want).length +
    c.posted.length + c.connecting.toNat

/-- A handler moves no bytes and starts no operation that is through from the
start. -/
structure Starts (c c' : Connection T) : Prop where
  wire : c'.wire = c.wire
  received : c'.received = c.received
  posted : c'.posted = c.posted
  ran : c'.ran = c.ran
  connecting : c'.connecting = c.connecting
  isOpen : c'.isOpen = c.isOpen
  writes :
    ∃ ws : List PendingWrite,
      (∀ w ∈ ws, w.left ≠ []) ∧ c'.writes = c.writes ++ ws
  reads :
    ∃ rs : List PendingRead,
      (∀ r ∈ rs, r.got.length < r.want) ∧ c'.reads = c.reads ++ rs

theorem Starts.distance
    {c c' : Connection T}
    (h : Starts c c')
    (outgoing incoming : Nat) :
    c'.distance outgoing incoming = c.distance outgoing incoming := by
  obtain ⟨ws, hws, hwrites⟩ := h.writes
  obtain ⟨rs, hrs, hreads⟩ := h.reads
  have hnoneW : (ws.filter fun w => w.left.isEmpty) = [] := by
    rw [List.filter_eq_nil_iff]
    intro w hw
    simpa using hws w hw
  have hnoneR : (rs.filter fun r => r.got.length == r.want) = [] := by
    rw [List.filter_eq_nil_iff]
    intro r hr
    simpa using Nat.ne_of_lt (hrs r hr)
  simp only [Connection.distance, h.wire, h.received, h.posted, h.connecting,
    hwrites, hreads, List.filter_append, hnoneW, hnoneR, List.append_nil]

theorem Starts.refl (c : Connection T) :
    Starts c c :=
  ⟨rfl, rfl, rfl, rfl, rfl, rfl, ⟨[], by simp, by simp⟩, ⟨[], by simp, by simp⟩⟩

theorem Starts.trans
    {c₁ c₂ c₃ : Connection T}
    (h : Starts c₁ c₂)
    (h' : Starts c₂ c₃) :
    Starts c₁ c₃ := by
  obtain ⟨ws, hws, hwrites⟩ := h.writes
  obtain ⟨ws', hws', hwrites'⟩ := h'.writes
  obtain ⟨rs, hrs, hreads⟩ := h.reads
  obtain ⟨rs', hrs', hreads'⟩ := h'.reads
  refine ⟨h'.wire.trans h.wire, h'.received.trans h.received,
    h'.posted.trans h.posted, h'.ran.trans h.ran,
    h'.connecting.trans h.connecting, h'.isOpen.trans h.isOpen,
    ⟨ws ++ ws', ?_, ?_⟩, ⟨rs ++ rs', ?_, ?_⟩⟩
  · exact List.forall_mem_append.mpr ⟨hws, hws'⟩
  · rw [hwrites', hwrites, List.append_assoc]
  · exact List.forall_mem_append.mpr ⟨hrs, hrs'⟩
  · rw [hreads', hreads, List.append_assoc]

/-- What is queued, delivered or kept of the handshake does not count. -/
theorem Starts.of_update
    {c c' : Connection T} {nHandshakeOut nHandshakeIn : UInt64}
    {tempMessageIn : Message T} {qMessagesOut delivered : List (Message T)}
    {emptyFront : Bool}
    (h :
      Starts
        { c with
          nHandshakeOut := nHandshakeOut
          nHandshakeIn := nHandshakeIn
          tempMessageIn := tempMessageIn
          qMessagesOut := qMessagesOut
          delivered := delivered
          emptyFront := emptyFront } c') :
    Starts c c' :=
  ⟨h.wire, h.received, h.posted, h.ran, h.connecting, h.isOpen, h.writes,
    h.reads⟩

theorem starts_asyncWrite
    (c : Connection T) (payload : Payload) {bytes : List UInt8}
    (hbytes : bytes ≠ []) :
    Starts c (c.asyncWrite payload bytes) :=
  ⟨rfl, rfl, rfl, rfl, rfl, rfl,
    ⟨[⟨payload, bytes⟩], by simpa using hbytes, rfl⟩,
    ⟨[], by simp, (List.append_nil _).symm⟩⟩

theorem starts_asyncRead
    (c : Connection T) (payload : Payload) {want : Nat}
    (hwant : 0 < want) :
    Starts c (c.asyncRead payload want) := by
  refine ⟨rfl, rfl, rfl, rfl, rfl, rfl,
    ⟨[], by simp, (List.append_nil _).symm⟩, ⟨[⟨payload, want, []⟩], ?_, rfl⟩⟩
  intro r hr
  obtain rfl := List.mem_singleton.mp hr
  exact hwant

/-- The bytes of an object are not empty. -/
theorem toBytes_ne_nil {α : Type u} [Layout α] (a : α) :
    toBytes a ≠ [] := by
  intro hnil
  have hlen := congrArg List.length hnil
  rw [length_toBytes, List.length_nil] at hlen
  exact Nat.ne_of_gt (size_pos (α := α)) hlen

end Distance

section Handlers

variable [Layout (MessageHeader T)]

theorem starts_mfReadHeader (c : Connection T) :
    Starts c c.mfReadHeader :=
  starts_asyncRead c .header (size_pos (α := MessageHeader T))

theorem starts_mfWriteHeader (c : Connection T) :
    Starts c c.mfWriteHeader := by
  unfold mfWriteHeader
  split
  · exact .of_update (Starts.refl _)
  · exact starts_asyncWrite c .header (toBytes_ne_nil _)

theorem starts_popAndContinue (c : Connection T) :
    Starts c c.popAndContinue := by
  unfold popAndContinue
  split
  · exact .of_update (Starts.refl _)
  · simp only
    split
    · exact .of_update (Starts.refl _)
    · exact .of_update (starts_mfWriteHeader _)

theorem starts_onWrite (c : Connection T) (w : PendingWrite) :
    Starts c (c.onWrite w) := by
  cases hp : w.payload with
  | validation =>
      simp only [onWrite, hp, onWriteValidation]
      split
      · exact starts_mfReadHeader c
      · exact Starts.refl c
  | header =>
      simp only [onWrite, hp, onWriteHeader]
      split
      · exact .of_update (Starts.refl _)
      · next msg rest hq =>
        split
        · next hbody =>
          simp only [mfWriteBody, hq]
          exact starts_asyncWrite c .body (List.ne_nil_of_length_pos hbody)
        · exact starts_popAndContinue c
  | body =>
      simp only [onWrite, hp, onWriteBody]
      exact starts_popAndContinue c

/-- The handler of `send` also records that it has run. -/
theorem starts_onSend (c : Connection T) (msg : Message T) :
    Starts { c with ran := c.ran ++ [msg] } (c.onSend msg) := by
  by_cases hq : c.qMessagesOut = []
  · rw [onSend_of_empty hq]
    exact .of_update (starts_mfWriteHeader _)
  · rw [onSend_of_nonempty hq]
    exact .of_update (Starts.refl _)

/-- A reply that is not turned down. -/
theorem starts_onRead
    {c c' : Connection T} {r : PendingRead} {u : Upcall T}
    (hright : r.payload = .validation → c.nowner = .server → u = .validated)
    (hon : c.onRead r = (c', u)) :
    Starts c c' := by
  cases onRead_cases hon with
  | validated => exact .of_update (Starts.refl _)
  | refused hp howner => cases hright hp howner
  | reply =>
      exact .of_update (starts_asyncWrite _ .validation (toBytes_ne_nil _))
  | header hp hheader hsize =>
      refine .of_update (starts_asyncRead _ .body ?_)
      simp only [List.takeD_length]
      exact hsize
  | noBody => exact .of_update (starts_mfReadHeader _)
  | body => exact .of_update (starts_mfReadHeader _)

end Handlers

section Advances

variable [Layout (MessageHeader T)]

/-- A handler that brings an open end closer to having nothing to do; `given` is
what the other end has sent. -/
structure Advance
    (outgoing incoming : Nat) (given : List UInt8)
    (c : Connection T) (e : IoEvent) (c' : Connection T) : Prop where
  step : c.step (.io e) = some c'
  inOrder : ∀ i, e = .runSend i → i = 0
  isOpen : c'.isOpen = true
  sent : c'.ran ++ c'.posted = c.ran ++ c.posted
  got : c'.received <+: given
  closer : c'.distance outgoing incoming < c.distance outgoing incoming

/-- No handler of `send` runs, no attempt to connect fails, and only the first
write goes on. -/
structure Plain (e : IoEvent) : Prop where
  sends : ∀ i, e ≠ .runSend i
  connects : ∀ isOpen, e ≠ .connectFailed isOpen
  first : ∀ i n, e = .transfer i n → i = 0

theorem Plain.challengeFirst
    {e : IoEvent} {challenge : UInt64} {c : Connection T}
    (h : Plain e)
    (hturn : InTurn challenge c) :
    ChallengeFirst c (.io e) := by
  refine hturn.challengeFirst ?_
  rintro i n ⟨⟩
  exact h.first i n rfl

omit [Layout (MessageHeader T)] in
theorem Plain.sendsFollow
    {e : IoEvent}
    (h : Plain e)
    (c : Connection T) :
    SendsFollow c (.io e) := by
  refine ⟨?_, ?_⟩
  · rintro isOpen ⟨⟩
    exact h.connects isOpen rfl
  · rintro i msg ⟨⟩
    exact absurd rfl (h.sends i)

variable {outgoing incoming : Nat} {given : List UInt8}
variable {c : Connection T}

/-- The handler of something that `c₀` no longer has to do. -/
theorem advance_of_starts
    (c₀ : Connection T) {c' : Connection T} {e : IoEvent}
    (hstep : c.step (.io e) = some c')
    (hinOrder : ∀ i, e = .runSend i → i = 0)
    (hopen : c.isOpen = true)
    (hgot : c.received <+: given)
    (hsent : c₀.ran ++ c₀.posted = c.ran ++ c.posted)
    (hreceived : c₀.received = c.received)
    (hisOpen : c₀.isOpen = c.isOpen)
    (hcloser : c₀.distance outgoing incoming < c.distance outgoing incoming)
    (hstart : Starts c₀ c') :
    Advance outgoing incoming given c e c' where
  step := hstep
  inOrder := hinOrder
  isOpen := by rw [hstart.isOpen, hisOpen, hopen]
  sent := by rw [hstart.ran, hstart.posted, hsent]
  got := by
    rw [hstart.received, hreceived]
    exact hgot
  closer := by
    rw [hstart.distance]
    exact hcloser

/-- An outstanding write goes on. -/
theorem exists_advance_write
    (hopen : c.isOpen = true)
    (hgot : c.received <+: given)
    (hroom : c.wire.length + c.unsent.length ≤ outgoing)
    (hwrites : c.writes ≠ []) :
    ∃ e c', Plain e ∧ Advance outgoing incoming given c e c' := by
  obtain ⟨w, ws, hw⟩ := List.exists_cons_of_ne_nil hwrites
  have hfirst : c.writes[0]? = some w := by simp [hw]
  by_cases hleft : w.left = []
  · -- the handler of a write that is through
    have hsome :
        c.step (.io (.writeDone 0)) = some ((c.dropWrite 0).onWrite w) := by
      simp [step, ioStep, hfirst, hleft]
    refine ⟨_, _, ⟨by simp, by simp, by simp⟩,
      advance_of_starts (c.dropWrite 0) hsome (by simp) hopen hgot rfl rfl rfl
        ?_ (starts_onWrite _ w)⟩
    simp [Connection.distance, dropWrite, hw, hleft]
  · -- all that is left of the write
    have hpos : 0 < w.left.length := List.length_pos_iff.mpr hleft
    have hunsent : w.left.length ≤ c.unsent.length := by
      simp [unsent, hw]
    let c' : Connection T :=
      { c with
        writes := c.writes.set 0 { w with left := w.left.drop w.left.length }
        wire := c.wire ++ w.left.take w.left.length }
    have hsome : c.step (.io (.transfer 0 w.left.length)) = some c' := by
      simp [step, ioStep, hfirst, hopen, c']
    refine ⟨_, c', ⟨by simp, by simp, by simp +contextual⟩,
      hsome, by simp, hopen, rfl, hgot, ?_⟩
    simp only [Connection.distance, c', hw, List.set_cons_zero,
      List.drop_length, List.take_length, List.length_append]
    rw [List.filter_cons_of_pos (by simp),
      List.filter_cons_of_neg (by simpa using hleft), List.length_cons]
    omega

/-- A client that is connecting finds the connection up. -/
theorem exists_advance_connect
    (hopen : c.isOpen = true)
    (hgot : c.received <+: given)
    (hconn : c.connecting = true) :
    ∃ e c', Plain e ∧ Advance outgoing incoming given c e c' := by
  let c₀ : Connection T := { c with connecting := false }
  have hsome : c.step (.io .connected) = some c₀.mfReadValidation := by
    simp [step, ioStep, hconn, c₀]
  refine ⟨_, _, ⟨by simp, by simp, by simp⟩,
    advance_of_starts c₀ hsome (by simp) hopen hgot rfl rfl rfl ?_
      (starts_asyncRead c₀ .validation (size_pos (α := UInt64)))⟩
  simp [Connection.distance, c₀, hconn]

/-- The handler of a read that is through runs. -/
theorem exists_advance_readDone
    {r : PendingRead} {rs : List PendingRead}
    (hopen : c.isOpen = true)
    (hgot : c.received <+: given)
    (hreads : c.reads = r :: rs)
    (hfull : r.got.length = r.want)
    (hright :
      r.payload = .validation → c.nowner = .server →
        ofBytes r.got = c.nHandshakeCheck) :
    ∃ e c', Plain e ∧ Advance outgoing incoming given c e c' := by
  have hfirst : c.reads[0]? = some r := by simp [hreads]
  obtain ⟨c', u, hon⟩ : ∃ c' u, (c.dropRead 0).onRead r = (c', u) :=
    ⟨_, _, rfl⟩
  have hstart : Starts (c.dropRead 0) c' := by
    refine starts_onRead (fun hp howner => ?_) hon
    have hcheck : ofBytes r.got = (c.dropRead 0).nHandshakeCheck :=
      hright hp howner
    simp only [onRead, hp] at hon
    rw [onReadValidation_of_server howner, if_pos hcheck] at hon
    cases hon
    rfl
  have hcloser :
      (c.dropRead 0).distance outgoing incoming <
        c.distance outgoing incoming := by
    simp [Connection.distance, dropRead, hreads, hfull]
  have hadvance (c'' : Connection T)
      (hsome : c.step (.io (.readDone 0)) = some c'')
      (hstart' : Starts (c.dropRead 0) c'') :
      ∃ e c', Plain e ∧ Advance outgoing incoming given c e c' :=
    ⟨_, c'', ⟨by simp, by simp, by simp⟩,
      advance_of_starts (c.dropRead 0) hsome (by simp) hopen hgot rfl rfl rfl
        hcloser hstart'⟩
  have hio : c.ioStep (.readDone 0) = some (c', u) := by
    simp [ioStep, hfirst, hfull, hon]
  cases u with
  | none => exact hadvance c' (by simp [step, hio]) hstart
  | incoming msg => exact hadvance c' (by simp [step, hio]) hstart
  | validated =>
      exact hadvance c'.mfReadHeader (by simp [step, hio])
        (hstart.trans (starts_mfReadHeader c'))

/-- More bytes come in for an outstanding read. -/
theorem exists_advance_recv
    {r : PendingRead} {rs : List PendingRead}
    (hopen : c.isOpen = true)
    (hgot : c.received <+: given)
    (hroom : given.length ≤ incoming)
    (hreads : c.reads = r :: rs)
    (hwant : r.got.length < r.want)
    (hmore : c.received ≠ given) :
    ∃ e c', Plain e ∧ Advance outgoing incoming given c e c' := by
  have hfirst : c.reads[0]? = some r := by simp [hreads]
  obtain ⟨rest, hrest⟩ := hgot
  obtain ⟨b, rest', rfl⟩ : ∃ b rest', rest = b :: rest' := by
    refine List.exists_cons_of_ne_nil fun hnil => hmore ?_
    rw [← hrest, hnil, List.append_nil]
  have hlen : c.received.length + (rest'.length + 1) = given.length := by
    rw [← hrest, List.length_append, List.length_cons]
  let c' : Connection T :=
    { c with
      reads := c.reads.set 0 { r with got := r.got ++ [b] }
      received := c.received ++ [b] }
  have hsome : c.step (.io (.recv 0 [b])) = some c' := by
    have hle : r.got.length + [b].length ≤ r.want := hwant
    simp only [step, ioStep, hfirst, hopen, hle, and_self, if_true, c']
  refine ⟨_, c', ⟨by simp, by simp, by simp⟩, hsome, by simp, hopen, rfl, ?_, ?_⟩
  · exact ⟨rest', by rw [← hrest]; simp [c']⟩
  · have hnew :
        (List.filter (fun r : PendingRead => r.got.length == r.want)
            ({ r with got := r.got ++ [b] } :: rs)).length ≤
          (rs.filter fun r => r.got.length == r.want).length + 1 := by
      rw [List.filter_cons]
      split
      · exact le_of_eq (List.length_cons)
      · exact Nat.le_succ _
    have hold :
        (r :: rs).filter (fun r : PendingRead => r.got.length == r.want) =
          rs.filter fun r => r.got.length == r.want :=
      List.filter_cons_of_neg (by simpa using Nat.ne_of_lt hwant)
    simp only [Connection.distance, c', hreads, List.set_cons_zero,
      List.length_append, List.length_singleton, hold]
    omega

variable (outgoing) in
/-- The outstanding read goes on, or it waits for bytes that nobody has sent. -/
theorem exists_advance_read
    {r : PendingRead} {rs : List PendingRead}
    (hopen : c.isOpen = true)
    (hgot : c.received <+: given)
    (hroom : given.length ≤ incoming)
    (hreads : c.reads = r :: rs)
    (hfits : r.got.length ≤ r.want)
    (hright :
      r.payload = .validation → c.nowner = .server →
        r.got.length = r.want → ofBytes r.got = c.nHandshakeCheck) :
    (∃ e c', Plain e ∧ Advance outgoing incoming given c e c') ∨
      r.got.length < r.want ∧ c.received = given := by
  rcases Nat.lt_or_eq_of_le hfits with hwant | hfull
  · by_cases hall : c.received = given
    · exact Or.inr ⟨hwant, hall⟩
    · exact Or.inl (exists_advance_recv hopen hgot hroom hreads hwant hall)
  · left
    exact exists_advance_readDone hopen hgot hreads hfull
      fun hp howner => hright hp howner hfull

variable (outgoing incoming) in
/-- The first posted handler of `send` runs. -/
theorem exists_advance_send
    {msg : Message T} {rest : List (Message T)}
    (hopen : c.isOpen = true)
    (hgot : c.received <+: given)
    (hposted : c.posted = msg :: rest) :
    ∃ c', Advance outgoing incoming given c (.runSend 0) c' := by
  have hsome :
      c.step (.io (.runSend 0)) = some ((c.dropPosted 0).onSend msg) := by
    simp [step, ioStep, hposted]
  refine ⟨_, advance_of_starts
    { c.dropPosted 0 with ran := (c.dropPosted 0).ran ++ [msg] }
    hsome (by simp) hopen hgot ?_ rfl rfl ?_
    (starts_onSend (c.dropPosted 0) msg)⟩
  · simp [dropPosted, hposted]
  · simp [Connection.distance, dropPosted, hposted]

end Advances

section Logs

/-- What was sent on a connection, if handlers run in the order in which they
were posted. -/
def sends (c : Connection T) : List (Message T) :=
  c.ran ++ c.posted

variable [Layout (MessageHeader T)]
variable {c c' : Connection T} {e : IoEvent} {u : Upcall T}

/-- Handlers only move messages from the posted ones to those that ran. -/
theorem ioStep_sends
    (hio : IoStep c e c' u)
    (horder : ∀ i, e = .runSend i → i = 0) :
    c'.sends = c.sends := by
  cases hio with
  | @runSend i msg hmsg =>
      obtain rfl := horder i rfl
      have hstart := starts_onSend (c.dropPosted 0) msg
      obtain ⟨rest, hrest⟩ : ∃ rest, c.posted = msg :: rest := by
        cases hposted : c.posted with
        | nil => simp [hposted] at hmsg
        | cons first rest =>
            rw [hposted] at hmsg
            obtain rfl : first = msg := Option.some.inj hmsg
            exact ⟨rest, rfl⟩
      rw [sends, hstart.ran, hstart.posted]
      simp [sends, dropPosted, hrest]
  | runClose => rfl
  | connected => rfl
  | connectFailed => rfl
  | recv => rfl
  | readDone hr hfull hon =>
      cases onRead_cases hon with
      | validated => rfl
      | refused => rfl
      | reply => rfl
      | header => rfl
      | noBody => rfl
      | body => rfl
  | readFail => rfl
  | transfer => rfl
  | @writeDone i w hw hleft =>
      have hstart := starts_onWrite (c.dropWrite i) w
      rw [sends, hstart.ran, hstart.posted]
      rfl
  | writeFail => rfl

/-- What a handler delivers is what it passes on. -/
theorem ioStep_delivered
    (hio : IoStep c e c' u) :
    c'.delivered = c.delivered ++ u.delivers := by
  have hsame {c' : Connection T} (h : c'.delivered = c.delivered) :
      c'.delivered = c.delivered ++ Upcall.delivers .none :=
    h.trans (List.append_nil _).symm
  cases hio with
  | @runSend i msg hmsg =>
      exact hsame (sameReader_onSend (c.dropPosted i) msg).delivered
  | runClose => exact hsame rfl
  | connected => exact hsame rfl
  | connectFailed => exact hsame rfl
  | recv => exact hsame rfl
  | readDone hr hfull hon =>
      cases onRead_cases hon with
      | validated => exact hsame rfl
      | refused => exact hsame rfl
      | reply => exact hsame rfl
      | header => exact hsame rfl
      | noBody => rfl
      | body => rfl
  | readFail => exact hsame rfl
  | transfer => exact hsame rfl
  | @writeDone i w hw hleft =>
      refine hsame ?_
      cases hm : w.isMessage with
      | true => exact (sameReader_onWrite (c.dropWrite i) hm).delivered
      | false =>
          have hp : w.payload = .validation := by
            simpa [PendingWrite.isMessage] using hm
          simp only [onWrite, hp, onWriteValidation]
          split
          · rfl
          · rfl
  | writeFail => exact hsame rfl

end Logs

end Connection

end SpeciesSimulator
