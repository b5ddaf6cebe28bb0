import SpeciesSimulator.NetHandshakeWrite

/-!
# Frames behind the challenge

The handler that queues the first message of a server's connection may start
its write while the challenge is still outstanding.  What matters for the
stream is not the number of outstanding writes but the order of their bytes:
the socket took the bytes of the challenge when its write was started, before
those of any message.  The handler of the completed challenge may run at any
time after that.

Main fact: `ioStep_inTurn`, if no byte of a message is transferred before the last
one of the challenge, what is on the wire and what is unsent make up the
challenge and what was handed over.
-/

namespace SpeciesSimulator

open ByteLayout Transition Message

universe u

namespace Connection

variable {T : Type u}

/-- Bytes of a message are transferred after those of the challenge. -/
def ChallengeFirst (c : Connection T) (e : ConnEvent T) : Prop :=
  ∀ i n w, e = .io (.transfer i n) → c.writes[i]? = some w →
    w.isMessage = true → ∀ v ∈ c.writes, v.isMessage = false → v.left = []

section Streams

variable {before : List UInt8} {c : Connection T} {i : Nat} {w : PendingWrite}

/-- Transferring bytes of a write when those before it are through. -/
theorem Intact.transfer_first
    (h : Intact before c)
    (hw : c.writes[i]? = some w)
    (hfirst : ∀ v ∈ c.writes.take i, v.left = [])
    (n : Nat) :
    Intact before
      { c with
        writes := c.writes.set i { w with left := w.left.drop n }
        wire := c.wire ++ w.left.take n } := by
  have hlt : i < c.writes.length := (List.getElem?_eq_some_iff.mp hw).1
  have hsplit := ListSlots.eq_take_cons_drop hw
  have hnone : (c.writes.take i).flatMap PendingWrite.left = [] :=
    List.flatMap_eq_nil_iff.mpr hfirst
  unfold Intact unsent at h ⊢
  rw [hsplit, List.flatMap_append, hnone, List.nil_append,
    List.flatMap_cons] at h
  show (c.wire ++ w.left.take n) ++
      (c.writes.set i { w with left := w.left.drop n }).flatMap
        PendingWrite.left = _
  rw [List.set_eq_take_append_cons_drop, if_pos hlt, List.flatMap_append,
    hnone, List.nil_append, List.flatMap_cons, ← h]
  simp only [List.append_assoc]
  rw [← List.append_assoc (w.left.take n), List.take_append_drop]

/-- A write that is through leaves nothing behind. -/
theorem Intact.dropWrite_through
    (h : Intact before c)
    (hw : c.writes[i]? = some w)
    (hleft : w.left = []) :
    Intact before (c.dropWrite i) := by
  have hsplit := ListSlots.eq_take_cons_drop hw
  unfold Intact unsent at h ⊢
  show c.wire ++ (c.writes.eraseIdx i).flatMap PendingWrite.left = _
  rw [hsplit, List.flatMap_append, List.flatMap_cons, hleft,
    List.nil_append] at h
  rw [List.eraseIdx_eq_take_drop_succ, List.flatMap_append]
  exact h

end Streams

section Turn

variable [Layout (MessageHeader T)]

omit [Layout (MessageHeader T)] in
/-- A server's connection whose stream is the challenge and what was handed
over after it.  A failed write leaves a gap only after the socket was
closed. -/
structure Challenges (challenge : UInt64) (c : Connection T) : Prop where
  owner : c.nowner = .server
  connecting : c.connecting = false
  first : ∀ i w, c.writes[i]? = some w → w.isMessage = false → i = 0
  opened : c.isOpen = true → Intact (toBytes challenge) c
  stream : c.wire <+: toBytes challenge ++ c.handed

/-- Such a connection whose message writes take turns. -/
structure InTurn (challenge : UInt64) (c : Connection T) : Prop
    extends Challenges challenge c where
  chain : SendInv c ∨ Stuck c

variable {challenge : UInt64} {c c' : Connection T}

omit [Layout (MessageHeader T)] in
theorem Challenges.congr
    (h : Challenges challenge c)
    (hs : SameOutput c c') :
    Challenges challenge c' where
  owner := hs.owner.trans h.owner
  connecting := hs.connecting.trans h.connecting
  first := by
    rw [hs.writes]
    exact h.first
  opened := fun hopen => (h.opened (hs.isOpen hopen)).congr hs
  stream := by
    rw [hs.wire, hs.handed]
    exact h.stream

omit [Layout (MessageHeader T)] in
/-- What is handed over follows the challenge. -/
theorem Challenges.hands
    (h : Challenges challenge c)
    (hs : Hands c c') :
    Challenges challenge c' := by
  obtain ⟨ws, hws, hwrites, hhanded⟩ := hs.started
  refine ⟨hs.owner.trans h.owner, hs.connecting.trans h.connecting, ?_, ?_, ?_⟩
  · intro i w hw hm
    rw [hwrites, List.getElem?_append] at hw
    split at hw
    · exact h.first i w hw hm
    · rw [hws w (List.mem_of_getElem? hw)] at hm
      cases hm
  · intro hopen
    rw [hs.isOpen] at hopen
    exact (h.opened hopen).hands hs
  · rw [hs.wire, hhanded, ← List.append_assoc]
    exact h.stream.trans (List.prefix_append _ _)

omit [Layout (MessageHeader T)] in
/-- The challenge stays the first write when another one is over. -/
theorem Challenges.first_dropWrite
    (h : Challenges challenge c)
    (i : Nat) :
    ∀ j w, (c.dropWrite i).writes[j]? = some w → w.isMessage = false →
      j = 0 := by
  intro j w hj hm
  have hj' : (c.writes.eraseIdx i)[j]? = some w := hj
  rw [List.getElem?_eraseIdx] at hj'
  split at hj'
  · exact h.first j w hj' hm
  · have hsucc := h.first (j + 1) w hj' hm
    omega

omit [Layout (MessageHeader T)] in
/-- A write that is through is over. -/
theorem Challenges.dropWrite
    {i : Nat} {w : PendingWrite}
    (h : Challenges challenge c)
    (hw : c.writes[i]? = some w)
    (hleft : w.left = []) :
    Challenges challenge (c.dropWrite i) :=
  ⟨h.owner, h.connecting, h.first_dropWrite i,
    fun hopen => (h.opened hopen).dropWrite_through hw hleft, h.stream⟩

theorem InTurn.congr
    (h : InTurn challenge c)
    (hs : SameOutput c c') :
    InTurn challenge c' :=
  ⟨h.toChallenges.congr hs,
    h.chain.imp (fun h => h.congr hs.sameWriter)
      fun h => h.congr hs.sameWriter⟩

/-- What is on the wire is a part of the challenge and frames. -/
theorem InTurn.wire_prefix_of
    (h : InTurn challenge c) :
    c.wire <+: toBytes challenge ++ frames c.ran := by
  have hhanded : c.handed <+: frames c.ran := by
    rcases h.chain with hchain | hchain
    · exact hchain.handed_prefix
    · exact hchain.handed
  exact h.stream.trans ((List.prefix_append_right_inj _).mpr hhanded)

/-- There is at most one message write. -/
theorem InTurn.messageWrites_length
    (h : InTurn challenge c) :
    c.messageWrites.length ≤ 1 := by
  rcases h.chain with hchain | hchain
  · exact hchain.messageWrites_length
  · simp [hchain.writes]

/-- Writes before the one whose bytes are transferred are through. -/
theorem InTurn.through_before
    {i n : Nat} {w : PendingWrite}
    (h : InTurn challenge c)
    (hfirst : ChallengeFirst c (.io (.transfer i n)))
    (hw : c.writes[i]? = some w) :
    ∀ v ∈ c.writes.take i, v.left = [] := by
  intro v hv
  have hi : i ≠ 0 := by
    rintro rfl
    simp at hv
  have hm : w.isMessage = true := by
    by_contra hne
    exact hi (h.first i w hw (by simpa using hne))
  by_cases hmv : v.isMessage = true
  · -- two message writes
    have hone := h.messageWrites_length
    have hbefore : v ∈ (c.writes.take i).filter PendingWrite.isMessage :=
      List.mem_filter.mpr ⟨hv, hmv⟩
    have hafter : w ∈ (c.writes.drop i).filter PendingWrite.isMessage := by
      refine List.mem_filter.mpr ⟨?_, hm⟩
      rw [← List.head?_drop] at hw
      exact List.mem_of_mem_head? hw
    have hpos := List.length_pos_of_mem hbefore
    have hpos' := List.length_pos_of_mem hafter
    unfold messageWrites at hone
    rw [← List.take_append_drop i c.writes, List.filter_append,
      List.length_append] at hone
    omega
  · exact hfirst i n w rfl hw hm v (List.mem_of_mem_take hv) (by simpa using hmv)

/-- A handler keeps the stream in turn, if bytes of messages follow those of the
challenge. -/
theorem ioStep_inTurn
    {e : IoEvent} {u : Upcall T}
    (hio : IoStep c e c' u)
    (hfirst : ChallengeFirst c (.io e))
    (h : InTurn challenge c) :
    InTurn challenge c' := by
  refine ⟨?_, ioStep_chain hio h.chain⟩
  cases hio with
  | @runSend i msg hmsg =>
      have hdrop : Challenges challenge (c.dropPosted i) :=
        h.toChallenges.congr (.update id)
      exact hdrop.hands (hands_onSend (c.dropPosted i) msg)
  | runClose hclosing => exact h.toChallenges.congr (.update (by simp))
  | connected hconn =>
      rw [h.connecting] at hconn
      cases hconn
  | connectFailed hconn =>
      rw [h.connecting] at hconn
      cases hconn
  | recv hr hopen hwant => exact h.toChallenges.congr (.update id)
  | @readDone i r c' u hr hfull hon =>
      have hdrop : Challenges challenge (c.dropRead i) :=
        h.toChallenges.congr (.update id)
      exact hdrop.congr (sameOutput_onRead (Or.inl hdrop.owner) hon)
  | readFail hr => exact h.toChallenges.congr (.update (by simp))
  | @transfer i n w hw hopen hleft =>
      have hintact :=
        (h.opened hopen).transfer_first hw (h.through_before hfirst hw) n
      refine ⟨h.owner, h.connecting, ?_, fun _ => hintact, ⟨_, hintact⟩⟩
      intro j v hv hm
      rw [List.getElem?_set] at hv
      split at hv
      · next hij =>
        subst hij
        split at hv
        · cases hv
          exact h.first i w hw hm
        · cases hv
      · exact h.first j v hv hm
  | @writeDone i w hw hleft =>
      have hdrop := h.toChallenges.dropWrite hw hleft
      cases hm : w.isMessage with
      | true => exact hdrop.hands (hands_onWrite (c.dropWrite i) hm)
      | false =>
          rw [onWrite_validation_of_server hdrop.owner hm]
          exact hdrop
  | @writeFail i w hw =>
      exact ⟨h.owner, h.connecting, h.first_dropWrite i,
        fun hopen => by simp [close] at hopen, h.stream⟩

/-- One step keeps the stream in turn. -/
theorem step_inTurn
    {e : ConnEvent T}
    (h : InTurn challenge c)
    (hfirst : ChallengeFirst c e)
    (hstep : c.step e = some c') :
    InTurn challenge c' := by
  rcases step_cases hstep with
    ⟨msg, _, rfl⟩ | ⟨_, rfl⟩ | ⟨e₀, u, c₀, rfl, hio, hc'⟩
  · exact h.congr (.update id)
  · rw [disconnect_eq]
    exact h.congr (.update id)
  · have h₀ := ioStep_inTurn hio hfirst h
    rcases hc' with rfl | ⟨_, rfl⟩
    · exact h₀
    · exact h₀.congr (.update id)

/-- The first write may go on at any time. -/
theorem InTurn.challengeFirst
    {e : ConnEvent T}
    (h : InTurn challenge c)
    (he : ∀ i n, e = .io (.transfer i n) → i = 0) :
    ChallengeFirst c e := by
  intro i n w hi hw hm v hv hmv
  obtain rfl := he i n hi
  obtain ⟨j, hj⟩ := List.mem_iff_getElem?.mp hv
  obtain rfl := h.first j v hj hmv
  rw [hw] at hj
  cases hj
  rw [hm] at hmv
  cases hmv

variable [Inhabited T]

/-- The accept handler leaves a connection that is about to write the
challenge. -/
theorem inTurn_acceptConnection
    (greeting : Message T) (now : UInt64) (uid : UInt32) :
    InTurn now (acceptConnection greeting now uid) := by
  refine ⟨⟨rfl, rfl, ?_, ?_, List.nil_prefix⟩, Or.inl ⟨.idle rfl rfl rfl, rfl⟩⟩
  · intro i w hw _
    have hlt := (List.getElem?_eq_some_iff.mp hw).1
    exact Nat.lt_one_iff.mp hlt
  · intro _
    show [] ++ [(⟨.validation, toBytes now⟩ : PendingWrite)].flatMap _ =
      toBytes now ++ []
    simp

end Turn

end Connection

end SpeciesSimulator
