import Mathlib.Data.List.TakeDrop
import SpeciesSimulator.NetMsg

/-!
# Messages of the server

The messages that `on_client_connect` and `on_client_validated` build, as
functions of what they have read.  `Send_Entities_Size` and `Send_Entities` are
one message object: its body keeps the size under the entities.
-/

namespace SpeciesSimulator

open ByteLayout

/-- An array of characters, such as a string literal with its final zero. -/
@[ext]
structure CharArray (n : Nat) where
  chars : List UInt8
  length_eq : chars.length = n + 1

instance (n : Nat) : Layout (CharArray n) where
  size := n + 1
  toBytes a := a.chars
  ofBytes bs :=
    ⟨bs.takeD (n + 1) 0, List.takeD_length (n + 1) bs 0⟩
  size_pos := Nat.succ_pos n
  length_toBytes a := a.length_eq
  ofBytes_toBytes a := by
    refine CharArray.ext ?_
    show a.chars.takeD (n + 1) 0 = a.chars
    rw [List.takeD_eq_take 0 (le_of_eq a.length_eq.symm), ← a.length_eq,
      List.take_length]

/-- The literal `"Max Clients connected"`. -/
def maxClientsConnected : CharArray 21 where
  chars :=
    [77, 97, 120, 32, 67, 108, 105, 101, 110, 116, 115, 32,
      99, 111, 110, 110, 101, 99, 116, 101, 100, 0]
  length_eq := by decide

namespace Server

def acceptMessage : Message MessageType :=
  Message.fresh.setId .serverAccept

def denialMessage : Message MessageType :=
  (Message.fresh.setId .serverDenial).insert maxClientsConnected

def layoutMessage (layout : WinConsoleLayout) : Message MessageType :=
  (Message.fresh.setId .sendMapConsoleLayout).insert layout

def configMessage (config : MapConfig) : Message MessageType :=
  (Message.fresh.setId .sendMapLayout).insert config

def entitiesSizeMessage (size : UInt64) : Message MessageType :=
  (Message.fresh.setId .sendEntitiesSize).insert size

/-- Reuse the message that announced the size; reading more entities than the
vector has is not defined. -/
def entitiesMessage
    (entMsg : Message MessageType) (vector : List Entity) (size : Nat) :
    Option (Message MessageType) :=
  (entMsg.setId .sendEntities).pushBackComplex vector size

/-- What a client is sent that is accepted and validated: the layout and the
configuration of a map and its entities, in a vector that does not change. -/
def startupMessages
    (layout : WinConsoleLayout) (config : MapConfig)
    (es : List Entity) : Option (List (Message MessageType)) :=
  let entMsg := entitiesSizeMessage (UInt64.ofNat es.length)
  (entitiesMessage entMsg es es.length).map fun entMsg' =>
    [acceptMessage, layoutMessage layout, configMessage config,
      entMsg, entMsg']

/-- The entities come on top of their announced number. -/
theorem entitiesMessage_length
    (entMsg : Message MessageType) (es : List Entity) :
    entitiesMessage entMsg es es.length =
      some ((entMsg.setId .sendEntities).setBody (entMsg.body ++ serialize es)) := by
  exact Message.pushBackComplex_length (entMsg.setId .sendEntities) es

theorem startupMessages_eq
    {layout : WinConsoleLayout} {config : MapConfig} {es : List Entity}
    {msgs : List (Message MessageType)}
    (h : startupMessages layout config es = some msgs) :
    ∃ sizeMsg entMsg,
      sizeMsg = entitiesSizeMessage (UInt64.ofNat es.length) ∧
      entMsg =
        (sizeMsg.setId .sendEntities).setBody
          (sizeMsg.body ++ serialize es) ∧
      msgs =
        [acceptMessage, layoutMessage layout, configMessage config,
          sizeMsg, entMsg] := by
  simp only [startupMessages, entitiesMessage_length, Option.map_some,
    Option.some.injEq] at h
  exact ⟨_, _, rfl, rfl, h.symm⟩

/-- Every message announces its length, if the entities leave room for their
number. -/
theorem startupMessages_size
    {layout : WinConsoleLayout} {config : MapConfig} {es : List Entity}
    {msgs : List (Message MessageType)}
    (hlen : byteSize Entity * es.length + 8 < 2 ^ 32)
    (h : startupMessages layout config es = some msgs) :
    ∀ msg ∈ msgs, msg.header.size.toNat = msg.body.length := by
  obtain ⟨sizeMsg, entMsg, rfl, rfl, rfl⟩ := startupMessages_eq h
  intro msg hmsg
  simp only [List.mem_cons, List.not_mem_nil, or_false] at hmsg
  rcases hmsg with rfl | rfl | rfl | rfl | rfl
  · rfl
  · rfl
  · rfl
  · rfl
  · have hbody :
        ((entitiesSizeMessage (UInt64.ofNat es.length)).body ++
          serialize es).length < 2 ^ 32 := by
      rw [List.length_append, length_serialize]
      show 8 + byteSize Entity * es.length < 2 ^ 32
      omega
    exact UInt32.toNat_ofNat_of_lt' hbody

/-- Only the first message has no body. -/
theorem startupMessages_body
    {layout : WinConsoleLayout} {config : MapConfig} {es : List Entity}
    {msgs : List (Message MessageType)}
    (h : startupMessages layout config es = some msgs) :
    ∀ msg ∈ msgs.tail, msg.body ≠ [] := by
  obtain ⟨sizeMsg, entMsg, rfl, rfl, rfl⟩ := startupMessages_eq h
  intro msg hmsg hnil
  have hlen := congrArg List.length hnil
  simp only [List.tail_cons, List.mem_cons, List.not_mem_nil,
    or_false] at hmsg
  rcases hmsg with rfl | rfl | rfl | rfl
  · cases hlen
  · cases hlen
  · cases hlen
  · simp only [Message.setBody_body, List.length_append] at hlen
    change 8 + (serialize es).length = 0 at hlen
    omega

/-- Only the last message carries entities. -/
theorem startupMessages_id
    {layout : WinConsoleLayout} {config : MapConfig} {es : List Entity}
    {msgs : List (Message MessageType)}
    (h : startupMessages layout config es = some msgs) :
    ∀ msg ∈ msgs.dropLast, msg.header.id ≠ .sendEntities := by
  obtain ⟨sizeMsg, entMsg, rfl, rfl, rfl⟩ := startupMessages_eq h
  intro msg hmsg
  simp only [List.dropLast_cons_cons, List.dropLast_singleton, List.mem_cons,
    List.not_mem_nil, or_false] at hmsg
  rcases hmsg with rfl | rfl | rfl | rfl
  · decide
  · exact fun hid => by cases hid
  · exact fun hid => by cases hid
  · exact fun hid => by cases hid

end Server

end SpeciesSimulator
