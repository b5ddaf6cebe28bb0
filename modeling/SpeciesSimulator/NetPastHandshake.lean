import SpeciesSimulator.NetClientReader
import SpeciesSimulator.NetGate

/-!
# Readers behind a handshake

The handshake is on the same socket as the messages: what a connection reads
begins with a challenge or a reply, and the frames of the peer's messages come
after it.  Behind these first bytes a connection reads like one that never had
a handshake, which `skip` makes precise: forgetting the first bytes that came
in turns every handler of the one into a handler of the other.

Main facts:
* `ioStep_pastHandshake`: a handler keeps the reader where the frames put it,
  for both owners of a connection;
* `PastHandshake.delivered`: what is delivered is a beginning of what the
  frames deliver.
-/

namespace SpeciesSimulator

open ByteLayout Transition Message

universe u

namespace Message

variable {T : Type u}

theorem deliveries_append
    (body : List UInt8) (msgs msgs' : List (Message T)) :
    deliveries body (msgs ++ msgs') =
      deliveries body msgs ++ deliveries (lastBody body msgs) msgs' := by
  induction msgs generalizing body with
  | nil =>
      rfl
  | cons msg msgs ih =>
      simp only [List.cons_append, deliveries, ih]
      rfl

/-- More messages deliver more. -/
theorem deliveries_prefix
    {msgs msgs' : List (Message T)}
    (h : msgs <+: msgs')
    (body : List UInt8) :
    deliveries body msgs <+: deliveries body msgs' := by
  obtain ⟨rest, rfl⟩ := h
  rw [deliveries_append]
  exact List.prefix_append _ _

/-- Every message is delivered, with whatever body. -/
theorem length_deliveries (body : List UInt8) (msgs : List (Message T)) :
    (deliveries body msgs).length = msgs.length := by
  induction msgs generalizing body with
  | nil =>
      rfl
  | cons msg msgs ih =>
      simp only [deliveries, List.length_cons, ih]

/-- Messages that are delivered as they are, and a beginning of them. -/
theorem deliveries_eq_of_prefix
    {msgs msgs' : List (Message T)}
    (h : msgs <+: msgs')
    (hall : deliveries [] msgs' = msgs') :
    deliveries [] msgs = msgs := by
  have hpre := deliveries_prefix h []
  rw [hall] at hpre
  have hlen := length_deliveries [] msgs
  exact (List.prefix_of_prefix_length_le hpre h hlen.le).eq_of_length hlen

theorem frames_prefix_of
    [Layout (MessageHeader T)]
    {msgs msgs' : List (Message T)}
    (h : msgs <+: msgs') :
    frames msgs <+: frames msgs' := by
  obtain ⟨rest, rfl⟩ := h
  rw [frames_append]
  exact List.prefix_append _ _

end Message

namespace Connection

variable {T : Type u}

section Skip

/-- Forget the first bytes that came in. -/
def skip (n : Nat) (c : Connection T) : Connection T :=
  { c with received := c.received.drop n }

theorem SameReader.skip
    {c c' : Connection T}
    (h : SameReader c c')
    (n : Nat) :
    SameReader (c.skip n) (c'.skip n) where
  reads := h.reads
  received := congrArg (List.drop n) h.received
  temp := h.temp
  delivered := h.delivered

variable [Layout (MessageHeader T)]

/-- No handler looks at what came in before. -/
theorem onRead_skip
    {c c' : Connection T} {r : PendingRead} {u : Upcall T}
    (hp : r.payload ≠ .validation)
    (hon : c.onRead r = (c', u))
    (n : Nat) :
    (c.skip n).onRead r = (c'.skip n, u) := by
  cases hpayload : r.payload with
  | validation => exact absurd hpayload hp
  | header =>
      simp only [onRead, hpayload, onReadHeader] at hon ⊢
      split at hon
      · next hsize =>
        cases hon
        rw [if_pos hsize]
        rfl
      · next hsize =>
        cases hon
        rw [if_neg hsize]
        rfl
  | body =>
      simp only [onRead, hpayload, onReadBody] at hon ⊢
      cases hon
      rfl

end Skip

section Reading

variable [Layout (MessageHeader T)]

/-- A reader that is past the bytes `first` and is given the frames of
`msgs`; it stops reading only when the socket is closed. -/
structure PastHandshake
    (first : List UInt8) (msgs : List (Message T)) (c : Connection T) :
    Prop where
  begins : first <+: c.received
  state : ReadState msgs (c.skip first.length)
  delivered : c.delivered <+: deliveries [] msgs
  alive : c.reads = [] → c.isOpen = false

variable {first : List UInt8} {msgs : List (Message T)}
variable {c c' : Connection T}

theorem PastHandshake.congr
    (h : PastHandshake first msgs c)
    (hs : SameReader c c')
    (hopen : c'.isOpen = true → c.isOpen = true) :
    PastHandshake first msgs c' where
  begins := by
    rw [hs.received]
    exact h.begins
  state := h.state.congr (hs.skip first.length)
  delivered := by
    rw [hs.delivered]
    exact h.delivered
  alive := by
    intro hnone
    rw [hs.reads] at hnone
    by_contra hne
    have hclosed := h.alive hnone
    rw [hopen (by simpa using hne)] at hclosed
    cases hclosed

/-- Only parts of messages are read behind the handshake. -/
theorem ReadState.payload_ne
    {i : Nat} {r : PendingRead}
    (h : ReadState msgs c)
    (hr : c.reads[i]? = some r) :
    r.payload ≠ .validation := by
  cases h with
  | header done rest got hmsgs hone =>
      obtain ⟨rfl, _, _⟩ := ListSlots.only_item hr hone
      simp
  | body done rest msg got hmsgs hne hone =>
      obtain ⟨rfl, _, _⟩ := ListSlots.only_item hr hone
      simp
  | ended hnone => simp [hnone] at hr

/-- A reader that reads on has delivered what the frames so far deliver. -/
theorem ReadState.delivered_prefix
    (h : ReadState msgs c)
    (hreads : c.reads ≠ []) :
    c.delivered <+: deliveries [] msgs := by
  cases h with
  | header done rest got hmsgs _ _ _ hdel =>
      rw [hdel]
      exact deliveries_prefix ⟨rest, hmsgs.symm⟩ []
  | body done rest msg got hmsgs _ _ _ _ hdel =>
      rw [hdel]
      exact deliveries_prefix ⟨msg :: rest, hmsgs.symm⟩ []
  | ended hnone => exact absurd hnone hreads

theorem PastHandshake.recv
    {i : Nat} {r : PendingRead}
    (h : PastHandshake first msgs c)
    (hr : c.reads[i]? = some r)
    (bytes : List UInt8) :
    PastHandshake first msgs
      { c with
        reads := c.reads.set i { r with got := r.got ++ bytes }
        received := c.received ++ bytes } := by
  refine ⟨h.begins.trans (List.prefix_append _ _), ?_, h.delivered, ?_⟩
  · have hstate := h.state.recv hr bytes
    rw [skip, List.drop_append_of_le_length h.begins.length_le]
    exact hstate
  · exact fun hnone => h.alive ((List.set_eq_nil_iff _ _).mp hnone)

/-- A complete part of a message. -/
theorem PastHandshake.readDone
    {i : Nat} {r : PendingRead} {u : Upcall T}
    (hall : Announced msgs)
    (h : PastHandshake first msgs c)
    (hpre : c.received <+: first ++ frames msgs)
    (hr : c.reads[i]? = some r)
    (hfull : r.got.length = r.want)
    (hon : (c.dropRead i).onRead r = (c', u)) :
    PastHandshake first msgs c' ∧ u ≠ .validated := by
  have hp : r.payload ≠ .validation := h.state.payload_ne hr
  obtain ⟨⟨r', _, hreads⟩, _, _, hu⟩ := onRead_frame hp hon
  have hne : c'.reads ≠ [] := by
    rw [hreads]
    exact List.append_ne_nil_of_right_ne_nil _ (by simp)
  have hrest : (c.skip first.length).received <+: frames msgs := by
    obtain ⟨rest, hrest⟩ := h.begins
    rw [← hrest] at hpre
    show c.received.drop first.length <+: _
    rw [← hrest, List.drop_left]
    exact (List.prefix_append_right_inj _).mp hpre
  have hstate : ReadState msgs (c'.skip first.length) :=
    readState_readDone hall h.state hrest hr hfull
      (onRead_skip hp hon first.length)
  refine ⟨⟨?_, hstate, hstate.delivered_prefix hne, ?_⟩, hu⟩
  · rw [received_onRead hon]
    exact h.begins
  · exact fun hnone => absurd hnone hne

theorem PastHandshake.readFail
    {i : Nat} {r : PendingRead}
    (h : PastHandshake first msgs c)
    (hr : c.reads[i]? = some r) :
    PastHandshake first msgs ((c.dropRead i).close) :=
  ⟨h.begins, h.state.readFail hr, h.delivered, fun _ => rfl⟩

/-- The reader starts on the first header. -/
theorem pastHandshake_mfReadHeader
    (hreads : c.reads = [])
    (hrec : c.received = first)
    (htemp : c.tempMessageIn.body = [])
    (hdel : c.delivered = []) :
    PastHandshake first msgs c.mfReadHeader := by
  refine ⟨?_, ?_, ?_, ?_⟩
  · show first <+: c.received
    rw [hrec]
  · refine .header [] msgs [] rfl ?_ ?_ htemp hdel
    · show c.reads ++ [_] = _
      rw [hreads]
      rfl
    · show c.received.drop first.length = _
      rw [hrec, List.drop_length]
      rfl
  · show c.delivered <+: _
    rw [hdel]
    exact List.nil_prefix
  · intro hnone
    have hnil : c.reads ++ [_] = [] := hnone
    simp at hnil

/-- A handler keeps the reader where the frames put it: what is read are parts
of messages, and only the server may still be writing its challenge. -/
theorem ioStep_pastHandshake
    {e : IoEvent} {u : Upcall T}
    (hall : Announced msgs)
    (hio : IoStep c e c' u)
    (hconn : c.connecting = false)
    (hwrites : c.nowner = .server ∨ OnlyMessages c)
    (hpre : c.received <+: first ++ frames msgs)
    (h : PastHandshake first msgs c) :
    PastHandshake first msgs c' ∧ u ≠ .validated := by
  cases hio with
  | @runSend i msg hmsg =>
      have hdrop : PastHandshake first msgs (c.dropPosted i) :=
        h.congr .update id
      have hands := hands_onSend (c.dropPosted i) msg
      refine ⟨hdrop.congr (sameReader_onSend _ msg) ?_, by simp⟩
      exact (hands.isOpen ▸ ·)
  | runClose hclosing =>
      exact ⟨h.congr .update (by simp [close]), by simp⟩
  | connected hconn' =>
      rw [hconn] at hconn'
      cases hconn'
  | connectFailed hconn' =>
      rw [hconn] at hconn'
      cases hconn'
  | recv hr hopen hwant => exact ⟨h.recv hr _, by simp⟩
  | readDone hr hfull hon => exact h.readDone hall hpre hr hfull hon
  | readFail hr => exact ⟨h.readFail hr, by simp⟩
  | transfer hw hopen hleft => exact ⟨h.congr .update id, by simp⟩
  | @writeDone i w hw hleft =>
      refine ⟨?_, by simp⟩
      have hdrop : PastHandshake first msgs (c.dropWrite i) :=
        h.congr .update id
      cases hm : w.isMessage with
      | true =>
          have hands := hands_onWrite (c.dropWrite i) hm
          exact hdrop.congr (sameReader_onWrite _ hm) (hands.isOpen ▸ ·)
      | false =>
          -- a client has no such write any more
          have howner : (c.dropWrite i).nowner = .server := by
            rcases hwrites with howner | hmessages
            · exact howner
            · rw [hmessages w (List.mem_of_getElem? hw)] at hm
              cases hm
          rw [onWrite_validation_of_server howner hm]
          exact hdrop
  | writeFail hw => exact ⟨h.congr .update (by simp [close]), by simp⟩

end Reading

end Connection

end SpeciesSimulator
