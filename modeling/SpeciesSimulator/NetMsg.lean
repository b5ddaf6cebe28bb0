import SpeciesSimulator.Entity

/-!
# Messages

The struct `Message` of `NetMsg.h`: a header and a body of raw bytes used as a
stack.  `operator<<` and `push_back_complex` append the bytes of an object or
of an array, `operator>>` and `pull_complex` take them off the end again.

Each operation ends by storing the body length in the 32-bit `size` of the
header.  The body length itself is a `size_t`: taking off more bytes than the
body has makes `body.size() - n` wrap around, and reading more elements than
an array has runs past its end.  Neither has a defined result, which is `none`
here.  The size of the objects that `pull_complex` is asked for wraps around as
well; it then takes off fewer.

Main fact: `Built.header_size`, the header size of every message that is built
with these operations is its body length modulo `2^32`.
-/

namespace SpeciesSimulator

open ByteLayout

universe u

/-- Contains the type of the message and its size. -/
structure MessageHeader (T : Type u) where
  id : T
  size : UInt32
deriving DecidableEq

/-- One byte of id, three bytes of padding, four bytes of size. -/
instance : Layout (MessageHeader MessageType) :=
  Layout.retract
    (fun h => (h.id, (⟨⟩ : Padding 3), h.size))
    (fun
      | (id, _, size) => ⟨id, size⟩)
    (fun _ => rfl)

example : byteSize (MessageHeader MessageType) = 8 := by
  rfl

structure Message (T : Type u) where
  header : MessageHeader T
  body : List UInt8
deriving DecidableEq

namespace Message

variable {T : Type u}

/-- A value-initialised message. -/
def fresh [Inhabited T] : Message T where
  header := ⟨default, 0⟩
  body := []

/-- `msg.header.id = id`. -/
def setId (msg : Message T) (id : T) : Message T :=
  { msg with header := { msg.header with id := id } }

/-- Resize the body and update the size in the header. -/
def setBody (msg : Message T) (body : List UInt8) : Message T where
  header := { msg.header with size := UInt32.ofNat body.length }
  body := body

def clear (msg : Message T) : Message T where
  header := { msg.header with size := 0 }
  body := []

/-- `operator<<`: copy an object to the end of the body. -/
def insert {α : Type} [Layout α]
    (msg : Message T) (data : α) : Message T :=
  msg.setBody (msg.body ++ toBytes data)

/-- Copy `sizeOfData` objects starting at `data` to the end of the body. -/
def pushBackComplex {α : Type} [Layout α]
    (msg : Message T) (data : List α) (sizeOfData : Nat) :
    Option (Message T) :=
  if sizeOfData ≤ data.length then
    some (msg.setBody (msg.body ++ serialize (data.take sizeOfData)))
  else
    none

/-- `operator>>`: take an object off the end of the body. -/
def extract (α : Type) [Layout α]
    (msg : Message T) : Option (α × Message T) :=
  if byteSize α ≤ msg.body.length then
    let cachedLocation := msg.body.length - byteSize α
    some
      (ofBytes (msg.body.drop cachedLocation),
        msg.setBody (msg.body.take cachedLocation))
  else
    none

/-- `sizeof(ComplexDataType) * size_of_data`, computed with `size_t`. -/
def complexSize (α : Type) [Layout α] (sizeOfData : Nat) : Nat :=
  byteSize α * sizeOfData % 2 ^ 64

/-- How many objects these bytes make. -/
def complexCount (α : Type) [Layout α] (sizeOfData : Nat) : Nat :=
  complexSize α sizeOfData / byteSize α

/-- Take `sizeOfData` objects off the end of the body, fewer if their size
wraps around. -/
def pullComplex (α : Type) [Layout α]
    (msg : Message T) (sizeOfData : Nat) :
    Option (List α × Message T) :=
  if complexSize α sizeOfData ≤ msg.body.length then
    let cachedLocation := msg.body.length - complexSize α sizeOfData
    some
      (deserialize (complexCount α sizeOfData) (msg.body.drop cachedLocation),
        msg.setBody (msg.body.take cachedLocation))
  else
    none

@[simp] theorem setId_id (msg : Message T) (id : T) :
    (msg.setId id).header.id = id := by
  rfl

@[simp] theorem setId_size (msg : Message T) (id : T) :
    (msg.setId id).header.size = msg.header.size := by
  rfl

@[simp] theorem setId_body (msg : Message T) (id : T) :
    (msg.setId id).body = msg.body := by
  rfl

@[simp] theorem setBody_id (msg : Message T) (body : List UInt8) :
    (msg.setBody body).header.id = msg.header.id := by
  rfl

@[simp] theorem setBody_size (msg : Message T) (body : List UInt8) :
    (msg.setBody body).header.size = UInt32.ofNat body.length := by
  rfl

@[simp] theorem setBody_body (msg : Message T) (body : List UInt8) :
    (msg.setBody body).body = body := by
  rfl

@[simp] theorem insert_id {α : Type} [Layout α]
    (msg : Message T) (data : α) :
    (msg.insert data).header.id = msg.header.id := by
  rfl

@[simp] theorem insert_body {α : Type} [Layout α]
    (msg : Message T) (data : α) :
    (msg.insert data).body = msg.body ++ toBytes data := by
  rfl

/-- A whole array is copied when its own length is given. -/
theorem pushBackComplex_length {α : Type} [Layout α]
    (msg : Message T) (data : List α) :
    msg.pushBackComplex data data.length =
      some (msg.setBody (msg.body ++ serialize data)) := by
  simp [pushBackComplex]

/-- What `operator<<` put on the body comes off again. -/
theorem extract_of_body_eq {α : Type} [Layout α]
    {msg : Message T} {rest : List UInt8} {data : α}
    (hbody : msg.body = rest ++ toBytes data) :
    msg.extract α = some (data, msg.setBody rest) := by
  simp [extract, hbody]

theorem complexSize_of_lt
    (α : Type) [Layout α] {sizeOfData : Nat}
    (hlt : byteSize α * sizeOfData < 2 ^ 64) :
    complexSize α sizeOfData = byteSize α * sizeOfData :=
  Nat.mod_eq_of_lt hlt

theorem complexCount_of_lt
    (α : Type) [Layout α] {sizeOfData : Nat}
    (hlt : byteSize α * sizeOfData < 2 ^ 64) :
    complexCount α sizeOfData = sizeOfData := by
  rw [complexCount, complexSize_of_lt α hlt]
  exact Nat.mul_div_cancel_left _ size_pos

/-- What `push_back_complex` put on the body comes off again. -/
theorem pullComplex_of_body_eq {α : Type} [Layout α]
    {msg : Message T} {rest : List UInt8} {data : List α}
    (hbody : msg.body = rest ++ serialize data)
    (hlt : byteSize α * data.length < 2 ^ 64) :
    msg.pullComplex α data.length = some (data, msg.setBody rest) := by
  simp [pullComplex, complexSize_of_lt α hlt, complexCount_of_lt α hlt, hbody]

/-- The messages that the operations build from a fresh one. -/
inductive Built [Inhabited T] : Message T → Prop
  | fresh : Built fresh
  | setId {msg : Message T} (id : T) :
      Built msg → Built (msg.setId id)
  | clear {msg : Message T} :
      Built msg → Built msg.clear
  | insert {msg : Message T} {α : Type} [Layout α] (data : α) :
      Built msg → Built (msg.insert data)
  | pushBackComplex {msg msg' : Message T} {α : Type} [Layout α]
      (data : List α) (sizeOfData : Nat) :
      Built msg →
      msg.pushBackComplex data sizeOfData = some msg' →
      Built msg'
  | extract {msg msg' : Message T} {α : Type} [Layout α] {data : α} :
      Built msg →
      msg.extract α = some (data, msg') →
      Built msg'
  | pullComplex {msg msg' : Message T} {α : Type} [Layout α]
      {data : List α} {sizeOfData : Nat} :
      Built msg →
      msg.pullComplex α sizeOfData = some (data, msg') →
      Built msg'

/-- The header of a built message announces its body length. -/
theorem Built.header_size [Inhabited T]
    {msg : Message T}
    (h : Built msg) :
    msg.header.size = UInt32.ofNat msg.body.length := by
  induction h with
  | fresh => rfl
  | setId id _ ih => exact ih
  | clear => rfl
  | insert => rfl
  | pushBackComplex data n _ hpush =>
      unfold Message.pushBackComplex at hpush
      split at hpush
      · cases hpush
        rfl
      · cases hpush
  | extract _ hpull =>
      unfold Message.extract at hpull
      split at hpull
      · cases hpull
        rfl
      · cases hpull
  | pullComplex _ hpull =>
      unfold Message.pullComplex at hpull
      split at hpull
      · cases hpull
        rfl
      · cases hpull

/-- The announced size is exact for a body shorter than `2^32` bytes. -/
theorem Built.header_size_toNat [Inhabited T]
    {msg : Message T}
    (h : Built msg)
    (hlen : msg.body.length < 2 ^ 32) :
    msg.header.size.toNat = msg.body.length := by
  rw [h.header_size]
  exact UInt32.toNat_ofNat_of_lt' hlen

end Message

end SpeciesSimulator
