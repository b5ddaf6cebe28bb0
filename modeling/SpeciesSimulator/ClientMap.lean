import SpeciesSimulator.MapGrid
import SpeciesSimulator.NetMsg

/-!
# The map of a client

The class `ClientMap`: a map with its own buffer that, iteration after
iteration, shows the entities of the client and sends them to the server.  The
message it sends is a member, and `push_back_complex` appends to its body.

Waiting for the entities to change and writing the buffer to the console leave
no trace here: an iteration is described by what it reads from the entity
vector.

Main facts:
* `iterations_sent`: the message of an iteration carries the entities of all
  iterations up to it;
* `update_message_iff`: it carries exactly the current ones, if and only if the
  earlier iterations had none to send and their bytes can be counted in 32 bits.
-/

namespace SpeciesSimulator

open ByteLayout

structure ClientMap where
  map : Map
  buffer : TSConsoleBuffer
  entityMessage : Message MessageType

namespace ClientMap

section Model

def make
    (console : WinConsole) (config : MapConfig) (vecptr : VecPtr) :
    Except Fault ClientMap := do
  let (map, buffer) ← Map.makeWithBuffer console config (some vecptr)
  pure
    { map := map
      buffer := buffer
      entityMessage := Message.fresh.setId .sendEntities }

/-- What an iteration reads from the entity vector: first to show it, then to
send it. -/
structure Reads where
  shown : List Entity
  sent : List Entity
deriving DecidableEq

/-- The body of the loop of `run`. -/
def iteration (cm : ClientMap) (reads : Reads) :
    Except Fault (ClientMap × Message MessageType) :=
  match cm.map.entitiesExternal with
  | none => .error .nullPointer
  | some vecptr => do
      let (map, buffer) ← cm.map.updateEntities vecptr reads.shown cm.buffer
      let msg ←
        orWild
          (cm.entityMessage.pushBackComplex reads.sent reads.sent.length)
      pure ({ map := map, buffer := buffer, entityMessage := msg }, msg)

/-- Iterations of the loop, with the messages that are passed to `send`. -/
def iterations (cm : ClientMap) :
    List Reads → Except Fault (ClientMap × List (Message MessageType))
  | [] => .ok (cm, [])
  | reads :: rest => do
      let (cm', msg) ← cm.iteration reads
      let (cm'', msgs) ← cm'.iterations rest
      pure (cm'', msg :: msgs)

/-- The first iterations of `run`, which does not return. -/
def run (cm : ClientMap) (reads : List Reads) :
    Except Fault (ClientMap × List (Message MessageType)) := do
  let buffer ← cm.map.startUp cm.buffer
  iterations { cm with buffer := buffer } reads

end Model

section Sent

/-- A message that carries entities. -/
def entitiesMessage (es : List Entity) : Message MessageType :=
  (Message.fresh.setId .sendEntities).setBody (serialize es)

/-- An iteration appends its entities to the message. -/
theorem iteration_sent
    {cm cm' : ClientMap} {reads : Reads} {msg : Message MessageType}
    {before : List Entity}
    (hmsg : cm.entityMessage = entitiesMessage before)
    (h : cm.iteration reads = .ok (cm', msg)) :
    cm'.entityMessage = msg ∧ msg = entitiesMessage (before ++ reads.sent) := by
  unfold iteration at h
  cases hptr : cm.map.entitiesExternal with
  | none =>
      rw [hptr] at h
      cases h
  | some vecptr =>
      rw [hptr] at h
      obtain ⟨⟨map, buffer⟩, _, hpush⟩ := exists_of_bind_ok h
      rw [Message.pushBackComplex_length] at hpush
      cases hpush
      refine ⟨rfl, ?_⟩
      rw [hmsg]
      simp [entitiesMessage, Message.setBody]

/-- The message of an iteration carries the entities of all iterations up to
it. -/
theorem iterations_sent
    {cm cm' : ClientMap} {reads : List Reads}
    {msgs : List (Message MessageType)} {before : List Entity}
    (hmsg : cm.entityMessage = entitiesMessage before)
    (h : cm.iterations reads = .ok (cm', msgs))
    {i : Nat} (hi : i < reads.length) :
    msgs[i]? =
      some
        (entitiesMessage
          (before ++ (reads.take (i + 1)).flatMap Reads.sent)) := by
  induction reads generalizing cm msgs before i with
  | nil =>
      cases hi
  | cons r rest ih =>
      obtain ⟨⟨cm₁, msg⟩, hone, h'⟩ := exists_of_bind_ok h
      obtain ⟨⟨cm₂, msgs'⟩, hrest, h''⟩ := exists_of_bind_ok h'
      cases h''
      obtain ⟨hnext, hsent⟩ := iteration_sent hmsg hone
      rw [hsent] at hnext
      cases i with
      | zero =>
          simp [hsent]
      | succ i =>
          have hi' : i < rest.length := by
            simpa using hi
          have htail := ih hnext hrest hi'
          simpa using htail

/-- Exactly the current entities, as a message that announces its length. -/
def IsUpdate (msg : Message MessageType) (es : List Entity) : Prop :=
  msg.header.id = .sendEntities ∧
    msg.body = serialize es ∧
    msg.header.size.toNat = msg.body.length

theorem isUpdate_entitiesMessage_iff (before es : List Entity) :
    IsUpdate (entitiesMessage (before ++ es)) es ↔
      before = [] ∧ byteSize Entity * es.length < 2 ^ 32 := by
  unfold IsUpdate entitiesMessage
  simp only [Message.setBody_id, Message.setBody_body, Message.setBody_size,
    Message.setId_id, UInt32.toNat_ofNat', true_and]
  constructor
  · rintro ⟨hbody, hsize⟩
    have hbefore : before = [] := by
      rw [serialize_append] at hbody
      exact (serialize_eq_nil_iff before).mp
        (List.append_left_eq_self.mp hbody)
    subst hbefore
    rw [List.nil_append, length_serialize] at hsize
    refine ⟨rfl, ?_⟩
    rw [← hsize]
    exact Nat.mod_lt _ (by decide)
  · rintro ⟨rfl, hlen⟩
    rw [List.nil_append, length_serialize]
    exact ⟨rfl, Nat.mod_eq_of_lt hlen⟩

/-- In every run of the loop, the message of an iteration is an update with
exactly the current entities, if and only if no earlier iteration had entities
to send and the current ones take less than `2^32` bytes. -/
theorem update_message_iff
    {console : WinConsole} {config : MapConfig} {vecptr : VecPtr}
    {cm cm' : ClientMap} {reads : List Reads}
    {msgs : List (Message MessageType)}
    (hmake : make console config vecptr = .ok cm)
    (hrun : cm.run reads = .ok (cm', msgs))
    {i : Nat} {r : Reads}
    (hr : reads[i]? = some r) :
    ∃ msg, msgs[i]? = some msg ∧
      (IsUpdate msg r.sent ↔
        (∀ earlier ∈ reads.take i, earlier.sent = []) ∧
          byteSize Entity * r.sent.length < 2 ^ 32) := by
  obtain ⟨⟨map, buffer⟩, _, hcm⟩ := exists_of_bind_ok hmake
  cases hcm
  obtain ⟨buffer', _, hloop⟩ := exists_of_bind_ok hrun
  have hi : i < reads.length := (List.getElem?_eq_some_iff.mp hr).1
  have hfirst :
      (Message.fresh.setId .sendEntities : Message MessageType) =
        entitiesMessage [] := by
    rfl
  have hsent := iterations_sent hfirst hloop hi
  refine ⟨_, hsent, ?_⟩
  have hlast :
      (reads.take (i + 1)).flatMap Reads.sent =
        (reads.take i).flatMap Reads.sent ++ r.sent := by
    rw [List.take_add_one, hr]
    simp
  rw [List.nil_append, hlast, isUpdate_entitiesMessage_iff,
    List.flatMap_eq_nil_iff]

end Sent

section Iterations

/-- An entity that stands still in cell 1 of a row. -/
def standing : Entity :=
  { id := 1, x := 1, y := 0, char := .player, type := .playerobject }

/-- Nothing to send at first, one entity after that. -/
theorem update_message_after_empty :
    ∃ cm cm' msgs,
      make ⟨{}⟩ { width := 3, height := 1 } 0 = .ok cm ∧
      cm.run [⟨[], []⟩, ⟨[standing], [standing]⟩] = .ok (cm', msgs) ∧
      ∃ msg, msgs[1]? = some msg ∧
        (IsUpdate msg [standing] ↔
          (∀ earlier ∈ [(⟨[], []⟩ : Reads)], earlier.sent = []) ∧
            byteSize Entity * 1 < 2 ^ 32) := by
  refine ⟨_, _, _, rfl, rfl, ?_⟩
  exact
    @update_message_iff ⟨{}⟩ { width := 3, height := 1 } 0 _ _
      [⟨[], []⟩, ⟨[standing], [standing]⟩] _ rfl rfl 1 _ rfl

/-- The second update carries the entity of the first one as well. -/
theorem update_message_repeats :
    ∃ cm cm' msgs,
      make ⟨{}⟩ { width := 3, height := 1 } 0 = .ok cm ∧
      cm.run [⟨[standing], [standing]⟩, ⟨[standing], [standing]⟩] =
        .ok (cm', msgs) ∧
      ∃ msg, msgs[1]? = some msg ∧
        msg.body = serialize [standing, standing] ∧
        ¬ IsUpdate msg [standing] := by
  refine ⟨_, _, _, rfl, rfl, _, rfl, rfl, ?_⟩
  rintro ⟨_, hbody, _⟩
  exact absurd (congrArg List.length hbody) (by decide)

end Iterations

end ClientMap

end SpeciesSimulator
