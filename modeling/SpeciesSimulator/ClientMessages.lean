import SpeciesSimulator.ClientStart

/-!
# What messages do to the memory of a client

The handlers of a client take off a message what they expect to find there:
`operator>>` and `pull_complex` subtract from the length of the body without
looking at it, and `m_start` follows the pointer to the map when entities come
in, whether or not there is a map.

Messages are taken off the queue by `m_start` until start-up is complete, and by
`on_message` afterwards; `run_receiving` relates `Receiving` to the loop of
`m_start`.  A standard exception ends the process, and so does an allocation
that fails: what a message is read into is allocated after it has been read.
An `int` that leaves its range does not end it.

Main facts:
* `unsafe_takeMessage_iff`: which messages a client cannot take safely;
* `ReceivingInv.step`: the buffer always has room for the announced number of
  entities;
* `messages_safe_iff`: a sequence of messages is handled safely, if and only if
  each of them fits when it is taken off the queue.
-/

namespace SpeciesSimulator

open ByteLayout Transition

section Unsafe

variable {α β : Type}

/-- The computation ends with an access outside of the memory it may use. -/
def Unsafe (x : Except Fault α) : Prop :=
  x = .error .wildAccess ∨ x = .error .nullPointer

@[simp] theorem not_unsafe_ok (a : α) :
    ¬ Unsafe (.ok a) := by
  simp [Unsafe]

@[simp] theorem unsafe_wildAccess :
    Unsafe (.error .wildAccess : Except Fault α) :=
  Or.inl rfl

@[simp] theorem unsafe_nullPointer :
    Unsafe (.error .nullPointer : Except Fault α) :=
  Or.inr rfl

@[simp] theorem not_unsafe_overflow :
    ¬ Unsafe (.error .overflow : Except Fault α) := by
  simp [Unsafe]

@[simp] theorem not_unsafe_outOfRange :
    ¬ Unsafe (.error .outOfRange : Except Fault α) := by
  simp [Unsafe]

@[simp] theorem not_unsafe_lengthError :
    ¬ Unsafe (.error .lengthError : Except Fault α) := by
  simp [Unsafe]

@[simp] theorem not_unsafe_endlessLoop :
    ¬ Unsafe (.error .endlessLoop : Except Fault α) := by
  simp [Unsafe]

/-- The first unsafe access is in one of the two parts. -/
theorem unsafe_bind_iff
    {x : Except Fault α} {f : α → Except Fault β} :
    Unsafe (x >>= f) ↔ Unsafe x ∨ ∃ a, x = .ok a ∧ Unsafe (f a) := by
  cases x with
  | error fault =>
      simp [Unsafe]
  | ok a =>
      simp

theorem not_unsafe_bind
    {x : Except Fault α} {f : α → Except Fault β}
    (hx : ¬ Unsafe x)
    (hf : ∀ a, x = .ok a → ¬ Unsafe (f a)) :
    ¬ Unsafe (x >>= f) := by
  rw [unsafe_bind_iff]
  rintro (h | ⟨a, ha, h⟩)
  · exact hx h
  · exact hf a ha h

theorem not_unsafe_foldlM
    {f : β → α → Except Fault β}
    (hf : ∀ b a, ¬ Unsafe (f b a))
    (as : List α) (b : β) :
    ¬ Unsafe (as.foldlM f b) := by
  induction as generalizing b with
  | nil =>
      exact not_unsafe_ok b
  | cons a as ih =>
      rw [List.foldlM_cons]
      exact not_unsafe_bind (hf b a) fun b' _ => ih b'

theorem unsafe_orWild_iff {x : Option α} :
    Unsafe (orWild x) ↔ x = none := by
  cases x with
  | none => simp [orWild]
  | some a => simp [orWild]

end Unsafe

namespace Map

section Safe

theorem not_unsafe_gridAt (m : Map) (i : Int) :
    ¬ Unsafe (m.gridAt i) := by
  unfold gridAt
  split
  · exact not_unsafe_ok _
  · exact not_unsafe_outOfRange

theorem not_unsafe_placeEntityWrapped (m : Map) (e : Entity) :
    ¬ Unsafe (m.placeEntityWrapped e) := by
  unfold placeEntityWrapped
  refine not_unsafe_bind (not_unsafe_gridAt _ _) fun _ _ => ?_
  refine not_unsafe_bind (not_unsafe_gridAt _ _) fun _ _ => ?_
  exact not_unsafe_ok _

/-- Entities outside of the map are an exception, not an access out of
bounds. -/
theorem not_unsafe_updateEntitiesWrapped
    (m : Map) (vecptr : VecPtr) (es : List Entity)
    {buffer : TSConsoleBuffer}
    (hsized : buffer.Sized) :
    ¬ Unsafe (m.updateEntitiesWrapped vecptr es buffer) := by
  unfold updateEntitiesWrapped
  refine
    not_unsafe_bind (not_unsafe_foldlM not_unsafe_placeEntityWrapped _ _) ?_
  intro m' _
  obtain ⟨buffer', hrender, _⟩ := m'.exists_render hsized
  rw [hrender, bind_ok]
  exact not_unsafe_ok _

/-- The buffer keeps the memory it needs. -/
theorem sized_of_updateEntitiesWrapped
    {m m' : Map} {vecptr : VecPtr} {es : List Entity}
    {buffer buffer' : TSConsoleBuffer}
    (hsized : buffer.Sized)
    (h : m.updateEntitiesWrapped vecptr es buffer = .ok (m', buffer')) :
    buffer'.Sized := by
  obtain ⟨m₁, _, h⟩ := exists_of_bind_ok h
  obtain ⟨buffer₁, hrender, h⟩ := exists_of_bind_ok h
  obtain ⟨buffer₂, hrender', hsized₂, _⟩ := m₁.exists_render hsized
  rw [hrender] at hrender'
  cases hrender'
  cases h
  exact hsized₂

theorem not_unsafe_makeWithBuffer
    (console : WinConsole) (config : MapConfig) (vecptr : Option VecPtr) :
    ¬ Unsafe (makeWithBuffer console config vecptr) := by
  unfold makeWithBuffer
  refine not_unsafe_bind ?_ fun buffer _ => not_unsafe_bind ?_ fun m _ => ?_
  · unfold TSConsoleBuffer.make
    split
    · exact not_unsafe_ok _
    · exact not_unsafe_overflow
  · unfold make
    split
    · exact not_unsafe_ok _
    · exact not_unsafe_overflow
  · exact not_unsafe_ok _

end Safe

end Map

namespace Client

section Model

/-- What is done with a message: by `m_start` until start-up is complete, by
`on_message` afterwards. -/
def takeMessage (s : Client × StartFlags) (msg : Message MessageType) :
    Except Fault (Client × StartFlags) :=
  if s.1.startupOkay then do
    let c ← s.1.onMessage msg
    pure (c, s.2)
  else startMessage s msg

/-- The body holds what is taken off it, and there is a map if it is needed. -/
def Fits (c : Client) (msg : Message MessageType) : Prop :=
  match msg.header.id with
  | .sendMapConsoleLayout =>
      c.startupOkay ∨ byteSize WinConsoleLayout ≤ msg.body.length
  | .sendMapLayout => c.startupOkay ∨ byteSize MapConfig ≤ msg.body.length
  | .sendEntitiesSize => c.startupOkay ∨ byteSize UInt64 ≤ msg.body.length
  | .sendEntities =>
      byteSize Entity * c.nentitiesSize.toNat ≤ msg.body.length ∧
        (c.startupOkay ∨ c.map.isSome)
  | _ => True

/-- The buffer has room for the announced entities, whose size does not wrap
around, and the buffer of the map has its memory. -/
structure Roomy (c : Client) : Prop where
  room : c.entBuffer.length = c.nentitiesSize.toNat
  small : byteSize Entity * c.nentitiesSize.toNat < 2 ^ 63
  sized : ∀ cm, c.map = some cm → cm.buffer.Sized

end Model

section Handlers

variable {c c' : Client} {msg : Message MessageType}

theorem extract_eq_none_iff (α : Type) [Layout α] :
    msg.extract α = none ↔ ¬ byteSize α ≤ msg.body.length := by
  unfold Message.extract
  split
  · rename_i hle
    simp [hle]
  · rename_i hle
    simp [hle]

theorem unsafe_onConsoleLayout_iff :
    Unsafe (c.onConsoleLayout msg) ↔
      ¬ byteSize WinConsoleLayout ≤ msg.body.length := by
  rw [← extract_eq_none_iff, ← unsafe_orWild_iff]
  unfold onConsoleLayout
  rw [unsafe_bind_iff]
  simp

theorem unsafe_onMapLayout_iff :
    Unsafe (c.onMapLayout msg) ↔ ¬ byteSize MapConfig ≤ msg.body.length := by
  rw [← extract_eq_none_iff, ← unsafe_orWild_iff]
  unfold onMapLayout
  rw [unsafe_bind_iff, or_iff_left]
  rintro ⟨⟨config, msg'⟩, -, hmake⟩
  refine not_unsafe_bind ?_ (fun cm _ => not_unsafe_ok _) hmake
  unfold ClientMap.make
  exact not_unsafe_bind (Map.not_unsafe_makeWithBuffer _ _ _)
    fun _ _ => not_unsafe_ok _

theorem not_unsafe_resize
    (elementSize : Nat) (entities : List Entity) (size : UInt64) :
    ¬ Unsafe (resize elementSize entities size) := by
  unfold resize
  split
  · exact not_unsafe_ok _
  · exact not_unsafe_lengthError

theorem unsafe_onEntitiesSize_iff :
    Unsafe (c.onEntitiesSize msg) ↔ ¬ byteSize UInt64 ≤ msg.body.length := by
  rw [← extract_eq_none_iff, ← unsafe_orWild_iff]
  unfold onEntitiesSize
  rw [unsafe_bind_iff, or_iff_left]
  rintro ⟨⟨size, msg'⟩, -, hresize⟩
  refine not_unsafe_bind (not_unsafe_resize _ _ _) (fun _ _ => ?_) hresize
  exact not_unsafe_bind (not_unsafe_resize _ _ _) fun _ _ => not_unsafe_ok _

/-- Entities that are there are taken off, and never overrun the buffer. -/
theorem pullEntities_of_fits
    (h : c.Roomy)
    (hfits :
      byteSize Entity * c.nentitiesSize.toNat ≤ msg.body.length) :
    ∃ es, c.pullEntities msg =
      if c.nentitiesSize.toNat < 2 ^ 32 then
        .ok { c with entBuffer := es, entities := es }
      else .error .endlessLoop := by
  have hlt : byteSize Entity * c.nentitiesSize.toNat < 2 ^ 64 :=
    lt_trans h.small (by decide)
  have hlen (es : List Entity) (hes : es.length = c.nentitiesSize.toNat) :
      (es ++ c.entBuffer.drop c.nentitiesSize.toNat).length =
        c.nentitiesSize.toNat := by
    rw [List.length_append, List.length_drop, h.room, hes]
    omega
  unfold pullEntities Message.pullComplex
  rw [Message.complexSize_of_lt Entity hlt, if_pos hfits,
    Message.complexCount_of_lt Entity hlt, orWild, bind_ok]
  dsimp only
  rw [length_deserialize, if_pos h.room.ge,
    hlen _ (length_deserialize _ _)]
  exact ⟨_, rfl⟩

theorem unsafe_pullEntities_iff
    (h : c.Roomy) :
    Unsafe (c.pullEntities msg) ↔
      ¬ byteSize Entity * c.nentitiesSize.toNat ≤ msg.body.length := by
  by_cases hfits : byteSize Entity * c.nentitiesSize.toNat ≤ msg.body.length
  · obtain ⟨es, hpull⟩ := pullEntities_of_fits h hfits
    rw [hpull]
    split
    · simp [hfits]
    · simp [hfits]
  · have hlt : byteSize Entity * c.nentitiesSize.toNat < 2 ^ 64 :=
      lt_trans h.small (by decide)
    unfold pullEntities Message.pullComplex
    rw [Message.complexSize_of_lt Entity hlt, if_neg hfits, orWild, bind_error]
    exact iff_of_true unsafe_wildAccess hfits

theorem unsafe_updateMap_iff
    (h : c.Roomy) :
    Unsafe c.updateMap ↔ ¬ c.map.isSome := by
  unfold updateMap
  cases hmap : c.map with
  | none => simp
  | some cm =>
      simp only [Option.isSome_some, not_true_eq_false, iff_false]
      exact not_unsafe_bind
        (Map.not_unsafe_updateEntitiesWrapped _ _ _ (h.sized cm hmap))
        fun _ _ => not_unsafe_ok _

end Handlers

section Room

variable {c c' : Client} {msg : Message MessageType}

theorem roomy_make : make.Roomy where
  room := rfl
  small := by decide
  sized := by
    intro cm hcm
    cases hcm

theorem Roomy.onConsoleLayout
    (h : c.Roomy)
    (hmsg : c.onConsoleLayout msg = .ok c') :
    c'.Roomy := by
  obtain ⟨⟨layout, msg'⟩, _, hc'⟩ := exists_of_bind_ok hmsg
  cases hc'
  exact ⟨h.room, h.small, h.sized⟩

/-- A new map has a buffer of its own size. -/
theorem Roomy.onMapLayout
    (h : c.Roomy)
    (hmsg : c.onMapLayout msg = .ok c') :
    c'.Roomy := by
  obtain ⟨⟨config, msg'⟩, _, hmap⟩ := exists_of_bind_ok hmsg
  obtain ⟨cm, hcm, hc'⟩ := exists_of_bind_ok hmap
  cases hc'
  refine ⟨h.room, h.small, fun cm' hcm' => ?_⟩
  cases hcm'
  obtain ⟨⟨m, buffer⟩, hmake, hcm⟩ := exists_of_bind_ok hcm
  obtain ⟨buffer', hbuffer, hmake⟩ := exists_of_bind_ok hmake
  obtain ⟨m', _, hmake⟩ := exists_of_bind_ok hmake
  cases hmake
  cases hcm
  exact (TSConsoleBuffer.sized_of_make hbuffer).1

theorem length_of_resize
    {elementSize : Nat} {es es' : List Entity} {size : UInt64}
    (h : resize elementSize es size = .ok es') :
    es'.length = size.toNat ∧ elementSize * size.toNat < 2 ^ 63 := by
  unfold resize at h
  split at h
  · rename_i hlt
    cases h
    exact ⟨List.takeD_length _ _ _, hlt⟩
  · cases h

/-- The buffer is made as long as the number that was announced. -/
theorem Roomy.onEntitiesSize
    (h : c.Roomy)
    (hmsg : c.onEntitiesSize msg = .ok c') :
    c'.Roomy := by
  obtain ⟨⟨size, msg'⟩, _, hsize⟩ := exists_of_bind_ok hmsg
  obtain ⟨entities, _, hentities⟩ := exists_of_bind_ok hsize
  obtain ⟨entBuffer, hbuffer, hc'⟩ := exists_of_bind_ok hentities
  cases hc'
  obtain ⟨hlen, hsmall⟩ := length_of_resize hbuffer
  exact ⟨hlen, hsmall, h.sized⟩

/-- The buffer keeps its length. -/
theorem Roomy.pullEntities
    (h : c.Roomy)
    (hmsg : c.pullEntities msg = .ok c') :
    c'.Roomy ∧ c'.map = c.map := by
  obtain ⟨es, hlen, rfl⟩ := exists_of_pullEntities hmsg
  exact ⟨⟨hlen.trans h.room, h.small, h.sized⟩, rfl⟩

theorem Roomy.updateMap
    (h : c.Roomy)
    (hmsg : c.updateMap = .ok c') :
    c'.Roomy := by
  unfold Client.updateMap at hmsg
  split at hmsg
  · cases hmsg
  · rename_i cm hcm
    obtain ⟨⟨m, buffer⟩, hupdate, hc'⟩ := exists_of_bind_ok hmsg
    cases hc'
    refine ⟨h.room, h.small, fun cm' hcm' => ?_⟩
    cases hcm'
    exact Map.sized_of_updateEntitiesWrapped (h.sized cm hcm) hupdate

end Room

section Messages

variable {c c' : Client} {flags flags' : StartFlags} {msg : Message MessageType}

theorem Roomy.startMessage
    (h : c.Roomy)
    (hmsg : startMessage (c, flags) msg = .ok (c', flags')) :
    c'.Roomy := by
  simp only [Client.startMessage] at hmsg
  split at hmsg
  · obtain ⟨c₁, hc₁, hc'⟩ := exists_of_bind_ok hmsg
    cases hc'
    exact h.onConsoleLayout hc₁
  · obtain ⟨c₁, hc₁, hc'⟩ := exists_of_bind_ok hmsg
    cases hc'
    exact h.onMapLayout hc₁
  · obtain ⟨c₁, hc₁, hc'⟩ := exists_of_bind_ok hmsg
    cases hc'
    exact h.onEntitiesSize hc₁
  · obtain ⟨c₁, hc₁, hupdate⟩ := exists_of_bind_ok hmsg
    obtain ⟨c₂, hc₂, hc'⟩ := exists_of_bind_ok hupdate
    have h₂ : c₂.Roomy := (h.pullEntities hc₁).1.updateMap hc₂
    split at hc'
    · cases hc'
      exact ⟨h₂.room, h₂.small, h₂.sized⟩
    · cases hc'
      exact h₂
  · cases hmsg
    exact h

theorem Roomy.takeMessage
    (h : c.Roomy)
    (hmsg : takeMessage (c, flags) msg = .ok (c', flags')) :
    c'.Roomy := by
  unfold Client.takeMessage at hmsg
  split at hmsg
  · obtain ⟨c₁, hc₁, hc'⟩ := exists_of_bind_ok hmsg
    cases hc'
    unfold Client.onMessage at hc₁
    split at hc₁
    · exact (h.pullEntities hc₁).1
    · cases hc₁
      exact h
  · exact h.startMessage hmsg

/-- An announced body is too short for `2^32` entities. -/
theorem exists_pullEntities
    (h : c.Roomy)
    (hfits :
      byteSize Entity * c.nentitiesSize.toNat ≤ msg.body.length)
    (hsize : msg.header.size.toNat = msg.body.length) :
    ∃ c', c.pullEntities msg = .ok c' := by
  have hentry : byteSize Entity = 32 := rfl
  have hbody : msg.body.length < 2 ^ 32 := by
    rw [← hsize]
    exact msg.header.size.toNat_lt
  obtain ⟨es, hpull⟩ := pullEntities_of_fits h hfits
  rw [hentry] at hfits
  rw [hpull, if_pos (by omega)]
  exact ⟨_, rfl⟩

/-- Entities have to be there, and have to find a map. -/
theorem unsafe_startEntities_iff
    {f : Client → Except Fault (Client × StartFlags)}
    (h : c.Roomy)
    (hsize : msg.header.size.toNat = msg.body.length)
    (hf : ∀ c', ¬ Unsafe (f c')) :
    Unsafe (c.pullEntities msg >>= fun c => c.updateMap >>= f) ↔
      ¬ (byteSize Entity * c.nentitiesSize.toNat ≤ msg.body.length ∧
        c.map.isSome) := by
  by_cases hfits : byteSize Entity * c.nentitiesSize.toNat ≤ msg.body.length
  · obtain ⟨c₁, hc₁⟩ := exists_pullEntities h hfits hsize
    obtain ⟨h₁, hmap⟩ := h.pullEntities hc₁
    rw [hc₁, bind_ok, unsafe_bind_iff, unsafe_updateMap_iff h₁, hmap,
      or_iff_left]
    · simp [hfits]
    · rintro ⟨c₂, -, hc₂⟩
      exact hf c₂ hc₂
  · rw [unsafe_bind_iff, unsafe_pullEntities_iff h]
    simp [hfits]

/-- In `m_start`, a message has to hold what its id promises, and entities need
a map. -/
theorem unsafe_startMessage_iff
    (h : c.Roomy)
    (hsize : msg.header.size.toNat = msg.body.length)
    (hokay : c.startupOkay = false) :
    Unsafe (startMessage (c, flags) msg) ↔ ¬ c.Fits msg := by
  simp only [startMessage]
  split
  · rename_i hid
    rw [unsafe_bind_iff, unsafe_onConsoleLayout_iff]
    simp [Fits, hid, hokay]
  · rename_i hid
    rw [unsafe_bind_iff, unsafe_onMapLayout_iff]
    simp [Fits, hid, hokay]
  · rename_i hid
    rw [unsafe_bind_iff, unsafe_onEntitiesSize_iff]
    simp [Fits, hid, hokay]
  · rename_i hid
    rw [unsafe_startEntities_iff h hsize]
    · simp [Fits, hid, hokay]
    · intro c'
      split
      · exact not_unsafe_ok _
      · exact not_unsafe_ok _
  · simp [Fits, *]

/-- After start-up, only the entities of a message are looked at. -/
theorem unsafe_onMessage_iff
    (h : c.Roomy)
    (hokay : c.startupOkay = true) :
    Unsafe (c.onMessage msg) ↔ ¬ c.Fits msg := by
  unfold onMessage
  split
  · rename_i hid
    rw [unsafe_pullEntities_iff h]
    simp [Fits, hid, hokay]
  · simp only [Fits, hokay, true_or, and_true, not_unsafe_ok, false_iff, not_not]
    split
    · trivial
    · trivial
    · trivial
    · contradiction
    · trivial

/-- A message that does not fit is what a client cannot take safely. -/
theorem unsafe_takeMessage_iff
    (h : c.Roomy)
    (hsize : msg.header.size.toNat = msg.body.length) :
    Unsafe (takeMessage (c, flags) msg) ↔ ¬ c.Fits msg := by
  unfold takeMessage
  cases hokay : c.startupOkay with
  | false =>
      simp only [Bool.false_eq_true, if_false]
      exact unsafe_startMessage_iff h hsize hokay
  | true =>
      simp only [if_true]
      rw [unsafe_bind_iff, unsafe_onMessage_iff h hokay]
      simp

end Messages

end Client

/-- A message that is taken off the queue, and whether there is memory for what
handling it allocates. -/
structure Taken where
  msg : Message MessageType
  memory : Bool
  announced : msg.header.size.toNat = msg.body.length

/-- A client and the messages it takes off its queue. -/
structure Receiving where
  client : Client
  flags : StartFlags
  fault : Option Fault := none

namespace Receiving

section Model

/-- The client takes the next message, unless the last one ended the process. -/
def step (s : Receiving) (t : Taken) : Option Receiving :=
  if s.fault.isSome then none
  else
    match Client.takeMessage (s.client, s.flags) t.msg with
    | .ok (client, flags) =>
        if t.memory then some { s with client := client, flags := flags }
        else some { s with fault := some .badAlloc }
    | .error fault => some { s with fault := some fault }

/-- A client at the beginning of `m_start`. -/
def start (flags : StartFlags) : Receiving where
  client := Client.make
  flags := { flags with gotEntities := false }

/-- No access has left the memory it may use. -/
def Safe (s : Receiving) : Prop :=
  s.fault ≠ some .wildAccess ∧ s.fault ≠ some .nullPointer

/-- The next message fits the client that takes it. -/
def NextFits (s : Receiving) (t : Taken) : Prop :=
  s.fault = none → s.client.Fits t.msg

/-- What every client has. -/
structure ReceivingInv (s : Receiving) : Prop where
  roomy : s.client.Roomy
  safe : s.Safe

end Model

section Loop

variable {s s' : Receiving} {t : Taken}

theorem step_of_fault_eq_none
    (hfault : s.fault = none) :
    s.step t =
      match Client.takeMessage (s.client, s.flags) t.msg with
      | .ok (client, flags) =>
          if t.memory then some { s with client := client, flags := flags }
          else some { s with fault := some .badAlloc }
      | .error fault => some { s with fault := some fault } := by
  simp [step, hfault]

/-- A message that fits leaves a client that is safe. -/
theorem ReceivingInv.step
    (h : ReceivingInv s)
    (hfits : s.NextFits t)
    (hstep : s.step t = some s') :
    ReceivingInv s' := by
  cases hfault : s.fault with
  | some fault =>
      simp [Receiving.step, hfault] at hstep
  | none =>
      have hsafe :
          ¬ Unsafe (Client.takeMessage (s.client, s.flags) t.msg) := by
        rw [Client.unsafe_takeMessage_iff h.roomy t.announced, not_not]
        exact hfits hfault
      rw [step_of_fault_eq_none hfault] at hstep
      split at hstep
      · rename_i client flags htake
        split at hstep
        · cases hstep
          exact ⟨h.roomy.takeMessage htake, h.safe⟩
        · cases hstep
          exact ⟨h.roomy, by simp, by simp⟩
      · rename_i fault htake
        cases hstep
        rw [htake] at hsafe
        refine ⟨h.roomy, ?_, ?_⟩
        · rintro ⟨⟩
          exact hsafe unsafe_wildAccess
        · rintro ⟨⟩
          exact hsafe unsafe_nullPointer

/-- A message that does not fit is not handled safely. -/
theorem exists_unsafe_of_not_fits
    (h : ReceivingInv s)
    (hfits : ¬ s.NextFits t) :
    ∃ s', s.step t = some s' ∧ ¬ s'.Safe := by
  simp only [NextFits, Classical.not_imp] at hfits
  obtain ⟨hfault, hfits⟩ := hfits
  rw [step_of_fault_eq_none hfault]
  have hunsafe : Unsafe (Client.takeMessage (s.client, s.flags) t.msg) :=
    (Client.unsafe_takeMessage_iff h.roomy t.announced).mpr hfits
  rcases hunsafe with hwild | hnull
  · rw [hwild]
    exact ⟨_, rfl, fun hsafe => hsafe.1 rfl⟩
  · rw [hnull]
    exact ⟨_, rfl, fun hsafe => hsafe.2 rfl⟩

theorem receivingInv_start (flags : StartFlags) :
    ReceivingInv (start flags) where
  roomy := Client.roomy_make
  safe := by simp [Safe, start]

/-- What the loop of `m_start` has taken off the queue, the client has
received. -/
theorem run_receiving
    {flags : StartFlags} {es : List StartEvent} {s : Starting}
    (hsize :
      ∀ msg ∈ Starting.arrivals es,
        msg.header.size.toNat = msg.body.length)
    (hrun : run Starting.step (Starting.start flags) es = some s) :
    ∃ taken : List Taken,
      Starting.arrivals es = taken.map (·.msg) ++ s.incoming ∧
        run step (start flags) taken = some ⟨s.client, s.flags, s.fault⟩ := by
  have hstart :
      Starting.Took
        (fun done client flags' fault =>
          (∀ msg ∈ done, msg.header.size.toNat = msg.body.length) →
            ∃ taken : List Taken,
              done = taken.map (·.msg) ∧
                run step (start flags) taken = some ⟨client, flags', fault⟩)
        [] (Starting.start flags) :=
    ⟨[], rfl, fun _ => ⟨[], rfl, rfl⟩⟩
  have htook := Starting.run_took ?_ hstart hrun
  · obtain ⟨done, hsplit, hdone⟩ := htook
    rw [List.nil_append] at hsplit
    have hdoneSize :
        ∀ msg ∈ done, msg.header.size.toNat = msg.body.length := by
      intro msg hmsg
      refine hsize msg ?_
      rw [hsplit]
      exact List.mem_append_left _ hmsg
    obtain ⟨taken, rfl, htaken⟩ := hdone hdoneSize
    exact ⟨taken, hsplit, htaken⟩
  · intro done client flags' msg hokay hdone
    have htake :
        Client.takeMessage (client, flags') msg =
          Client.startMessage (client, flags') msg := by
      simp [Client.takeMessage, hokay]
    have hnext (hall :
        ∀ m ∈ done ++ [msg], m.header.size.toNat = m.body.length) :
        ∃ taken : List Taken,
          done ++ [msg] = taken.map (·.msg) ∧
            run step (start flags) taken =
              match Client.startMessage (client, flags') msg with
              | .ok (client, flags) => some ⟨client, flags, none⟩
              | .error fault => some ⟨client, flags', some fault⟩ := by
      obtain ⟨taken, rfl, htaken⟩ :=
        hdone fun m hm => hall m (List.mem_append_left _ hm)
      refine ⟨taken ++ [⟨msg, true, hall msg (by simp)⟩], by simp, ?_⟩
      rw [run_append htaken, run_singleton, step_of_fault_eq_none rfl, htake]
      simp
    split
    · rename_i hmsg
      simpa only [hmsg] using hnext
    · rename_i hmsg
      simpa only [hmsg] using hnext

end Loop

/-- A client handles a sequence of messages safely, if and only if each of them
fits when its turn comes: its body is as long as what is taken off it, and
entities find a map. -/
theorem messages_safe_iff
    (flags : StartFlags) (msgs : List Taken) :
    Always step Safe (start flags) msgs ↔
      Meets step NextFits (start flags) msgs := by
  have h₀ : ReceivingInv (start flags) := receivingInv_start flags
  have hpres :
      ∀ s t s', ReceivingInv s → NextFits s t → step s t = some s' →
        ReceivingInv s' :=
    fun _ _ _ h hfits hstep => h.step hfits hstep
  constructor
  · exact meets_of_always hpres
      (fun _ _ h hfits => exists_unsafe_of_not_fits h hfits) h₀
  · exact always_of_invariant hpres (fun _ h => h.safe) h₀

/-- A client takes the layout of the map from an empty body. -/
theorem messages_safe_iff_fails_on_empty_layout :
    ¬ Always step Safe (start ⟨false, false, false, false⟩)
      [⟨⟨⟨.sendMapLayout, 0⟩, []⟩, true, rfl⟩] := by
  rintro ⟨-, hsafe, -⟩
  exact hsafe rfl

end Receiving

end SpeciesSimulator
