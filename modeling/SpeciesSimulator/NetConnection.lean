import SpeciesSimulator.Lib.Transition
import SpeciesSimulator.NetMsg

/-!
# Connections

The class `Connection` of `NetConnection.h` together with what asio holds for
it: the handlers that were posted and have not run yet, and the asynchronous
reads and writes that were started and have not completed yet.

An outstanding read collects bytes until it has as many as it wants, an
outstanding write hands its bytes to the socket in any number of pieces.  A
completion handler runs without an error once its operation is through, or
with an error at any time; every error branch closes the socket.  After that
no more bytes move, but an operation that was already through may still
complete without an error.

`ioStep` is one handler of the io thread or one transfer of bytes.  What a
handler does outside the connection is its `Upcall`: pushing a message to
`m_qMessagesIn`, or calling `on_client_validated`, after which the handler goes
on with `mf_read_header`.  The buffers given to a write stay unchanged until it
completes, so a write holds its bytes.

The last fields of `Connection` record the history of a run: which posted
messages were queued, which bytes were handed to message writes, went over the
wire and came in, and which messages were delivered.
-/

namespace SpeciesSimulator

open ByteLayout

universe u

/-- Who owns a connection. -/
inductive Owner where
  | server
  | client
deriving DecidableEq

/-- What an asynchronous operation transfers. -/
inductive Payload where
  | validation
  | header
  | body
deriving DecidableEq

/-- An `async_read` that has not completed. -/
structure PendingRead where
  payload : Payload
  want : Nat
  got : List UInt8
deriving DecidableEq

/-- An `async_write` that has not completed. -/
structure PendingWrite where
  payload : Payload
  left : List UInt8
deriving DecidableEq

/-- Scramble the data of a challenge. -/
def mfScramble (nInput : UInt64) : UInt64 :=
  let out := nInput ^^^ 0xDEADBEEFC0DECAFE
  let out :=
    ((out &&& 0xF0F0F0F0F0F0F00F) >>> 4) |||
      ((out &&& 0xF0F0F0F0F0F0F000) <<< 4)
  out ^^^ 0xC0DEFACE12345678

structure Connection (T : Type u) where
  nowner : Owner
  isOpen : Bool
  uid : UInt32 := 0
  nHandshakeOut : UInt64 := 0
  nHandshakeIn : UInt64 := 0
  nHandshakeCheck : UInt64 := 0
  tempMessageIn : Message T
  qMessagesOut : List (Message T) := []
  posted : List (Message T) := []
  closing : Nat := 0
  connecting : Bool := false
  reads : List PendingRead := []
  writes : List PendingWrite := []
  ran : List (Message T) := []
  handed : List UInt8 := []
  wire : List UInt8 := []
  received : List UInt8 := []
  delivered : List (Message T) := []
  emptyFront : Bool := false

/-- What a handler does outside its connection. -/
inductive Upcall (T : Type u) where
  | none
  | incoming (msg : Message T)
  | validated

/-- One handler of the io thread, or one transfer of bytes. -/
inductive IoEvent where
  | runSend (i : Nat)
  | runClose
  | connected
  | connectFailed (isOpen : Bool)
  | recv (i : Nat) (bytes : List UInt8)
  | readDone (i : Nat)
  | readFail (i : Nat)
  | transfer (i : Nat) (n : Nat)
  | writeDone (i : Nat)
  | writeFail (i : Nat)
deriving DecidableEq

/-- A call from any thread, or something that happens on the io thread. -/
inductive ConnEvent (T : Type u) where
  | send (msg : Message T)
  | disconnect
  | io (e : IoEvent)

namespace Connection

variable {T : Type u}

section Calls

/-- The constructor; `now` is the clock and `isOpen` the state of the socket. -/
def make [Inhabited T]
    (parent : Owner) (now : UInt64) (isOpen : Bool) : Connection T :=
  match parent with
  | .server =>
      { nowner := .server
        isOpen := isOpen
        nHandshakeOut := now
        nHandshakeCheck := mfScramble now
        tempMessageIn := Message.fresh }
  | .client =>
      { nowner := .client
        isOpen := isOpen
        tempMessageIn := Message.fresh }

def close (c : Connection T) : Connection T :=
  { c with isOpen := false }

/-- Start an `async_read` of `want` bytes. -/
def asyncRead (c : Connection T) (payload : Payload) (want : Nat) :
    Connection T :=
  { c with reads := c.reads ++ [⟨payload, want, []⟩] }

/-- Start an `async_write`. -/
def asyncWrite (c : Connection T) (payload : Payload) (bytes : List UInt8) :
    Connection T :=
  { c with
    writes := c.writes ++ [⟨payload, bytes⟩]
    handed :=
      if payload = .validation then c.handed else c.handed ++ bytes }

/-- The posted handler is about to run. -/
def dropPosted (c : Connection T) (i : Nat) : Connection T :=
  { c with posted := c.posted.eraseIdx i }

/-- The read is no longer outstanding. -/
def dropRead (c : Connection T) (i : Nat) : Connection T :=
  { c with reads := c.reads.eraseIdx i }

/-- The write is no longer outstanding. -/
def dropWrite (c : Connection T) (i : Nat) : Connection T :=
  { c with writes := c.writes.eraseIdx i }

/-- Post a handler that queues the message. -/
def send (c : Connection T) (msg : Message T) : Connection T :=
  { c with posted := c.posted ++ [msg] }

/-- Post a handler that closes the socket. -/
def disconnect (c : Connection T) : Connection T :=
  if c.isOpen then { c with closing := c.closing + 1 } else c

theorem disconnect_eq (c : Connection T) :
    c.disconnect =
      { c with closing := if c.isOpen then c.closing + 1 else c.closing } := by
  unfold disconnect
  split
  · rfl
  · rfl

def mfReadValidation (c : Connection T) : Connection T :=
  c.asyncRead .validation (byteSize UInt64)

def mfWriteValidation (c : Connection T) : Connection T :=
  c.asyncWrite .validation (toBytes c.nHandshakeOut)

def mfReadHeader [Layout (MessageHeader T)] (c : Connection T) :
    Connection T :=
  c.asyncRead .header (byteSize (MessageHeader T))

def mfReadBody (c : Connection T) : Connection T :=
  c.asyncRead .body c.tempMessageIn.body.length

def mfAddToIncommingMessageQueue [Layout (MessageHeader T)]
    (c : Connection T) : Connection T × Upcall T :=
  (mfReadHeader { c with delivered := c.delivered ++ [c.tempMessageIn] },
    .incoming c.tempMessageIn)

/-- `front()` of an empty queue has no defined result. -/
def mfWriteHeader [Layout (MessageHeader T)] (c : Connection T) :
    Connection T :=
  match c.qMessagesOut with
  | [] => { c with emptyFront := true }
  | msg :: _ => c.asyncWrite .header (toBytes msg.header)

def mfWriteBody (c : Connection T) : Connection T :=
  match c.qMessagesOut with
  | [] => { c with emptyFront := true }
  | msg :: _ => c.asyncWrite .body msg.body

/-- Only used by clients. -/
def connectToServer (c : Connection T) : Connection T :=
  match c.nowner with
  | .client => { c with connecting := true, isOpen := true }
  | .server => c

/-- Only used by the server. -/
def connectToClient (c : Connection T) (uid : UInt32) : Connection T :=
  match c.nowner with
  | .server =>
      if c.isOpen then
        ({ c with uid := uid }).mfWriteValidation.mfReadValidation
      else c
  | .client => c

end Calls

section Handlers

variable [Layout (MessageHeader T)]

/-- The handler posted by `send`. -/
def onSend (c : Connection T) (msg : Message T) : Connection T :=
  let isAlreadyWritingMessages := !c.qMessagesOut.isEmpty
  let c' :=
    { c with
      qMessagesOut := c.qMessagesOut ++ [msg]
      ran := c.ran ++ [msg] }
  if isAlreadyWritingMessages then c' else c'.mfWriteHeader

def onReadValidation (c : Connection T) (bytes : List UInt8) :
    Connection T × Upcall T :=
  let c' := { c with nHandshakeIn := ofBytes bytes }
  match c'.nowner with
  | .server =>
      if c'.nHandshakeIn = c'.nHandshakeCheck then (c', .validated)
      else (c'.close, .none)
  | .client =>
      (({ c' with
          nHandshakeOut := mfScramble c'.nHandshakeIn }).mfWriteValidation,
        .none)

def onReadHeader (c : Connection T) (bytes : List UInt8) :
    Connection T × Upcall T :=
  let header : MessageHeader T := ofBytes bytes
  if 0 < header.size then
    (({ c with
        tempMessageIn :=
          ⟨header, c.tempMessageIn.body.takeD header.size.toNat 0⟩ }).mfReadBody,
      .none)
  else
    ({ c with
        tempMessageIn :=
          ⟨header, c.tempMessageIn.body⟩ }).mfAddToIncommingMessageQueue

def onReadBody (c : Connection T) (bytes : List UInt8) :
    Connection T × Upcall T :=
  ({ c with
      tempMessageIn :=
        ⟨c.tempMessageIn.header, bytes⟩ }).mfAddToIncommingMessageQueue

/-- Completion of an `async_read` without an error. -/
def onRead (c : Connection T) (r : PendingRead) :
    Connection T × Upcall T :=
  match r.payload with
  | .validation => c.onReadValidation r.got
  | .header => c.onReadHeader r.got
  | .body => c.onReadBody r.got

def onWriteValidation (c : Connection T) : Connection T :=
  match c.nowner with
  | .client => c.mfReadHeader
  | .server => c

/-- `pop_front()`, then the next message if there is one. -/
def popAndContinue (c : Connection T) : Connection T :=
  match c.qMessagesOut with
  | [] => { c with emptyFront := true }
  | _ :: rest =>
      let c' := { c with qMessagesOut := rest }
      if rest.isEmpty then c' else c'.mfWriteHeader

def onWriteHeader (c : Connection T) : Connection T :=
  match c.qMessagesOut with
  | [] => { c with emptyFront := true }
  | msg :: _ =>
      if 0 < msg.body.length then c.mfWriteBody else c.popAndContinue

def onWriteBody (c : Connection T) : Connection T :=
  c.popAndContinue

/-- Completion of an `async_write` without an error. -/
def onWrite (c : Connection T) (w : PendingWrite) : Connection T :=
  match w.payload with
  | .validation => c.onWriteValidation
  | .header => c.onWriteHeader
  | .body => c.onWriteBody

end Handlers

section Steps

variable [Layout (MessageHeader T)]

def ioStep (c : Connection T) :
    IoEvent → Option (Connection T × Upcall T)
  | .runSend i =>
      match c.posted[i]? with
      | some msg =>
          some ((c.dropPosted i).onSend msg, .none)
      | none => none
  | .runClose =>
      if 0 < c.closing then
        some (({ c with closing := c.closing - 1 }).close, .none)
      else none
  | .connected =>
      if c.connecting then
        some (({ c with connecting := false }).mfReadValidation, .none)
      else none
  | .connectFailed isOpen =>
      if c.connecting then
        some ({ c with connecting := false, isOpen := isOpen }, .none)
      else none
  | .recv i bytes =>
      match c.reads[i]? with
      | some r =>
          if c.isOpen ∧ r.got.length + bytes.length ≤ r.want then
            some
              ({ c with
                  reads := c.reads.set i { r with got := r.got ++ bytes }
                  received := c.received ++ bytes },
                .none)
          else none
      | none => none
  | .readDone i =>
      match c.reads[i]? with
      | some r =>
          if r.got.length = r.want then
            some ((c.dropRead i).onRead r)
          else none
      | none => none
  | .readFail i =>
      match c.reads[i]? with
      | some _ =>
          some ((c.dropRead i).close, .none)
      | none => none
  | .transfer i n =>
      match c.writes[i]? with
      | some w =>
          if c.isOpen ∧ n ≤ w.left.length then
            some
              ({ c with
                  writes := c.writes.set i { w with left := w.left.drop n }
                  wire := c.wire ++ w.left.take n },
                .none)
          else none
      | none => none
  | .writeDone i =>
      match c.writes[i]? with
      | some w =>
          if w.left = [] then
            some ((c.dropWrite i).onWrite w, .none)
          else none
      | none => none
  | .writeFail i =>
      match c.writes[i]? with
      | some _ =>
          some ((c.dropWrite i).close, .none)
      | none => none

/-- One step of a connection on its own: what `on_client_validated` sends is
left to the `send` events. -/
def step (c : Connection T) : ConnEvent T → Option (Connection T)
  | .send msg => some (c.send msg)
  | .disconnect => some c.disconnect
  | .io e =>
      match c.ioStep e with
      | some (c', .validated) => some c'.mfReadHeader
      | some (c', _) => some c'
      | none => none

/-- What the handler of a read does. -/
inductive OnRead (c : Connection T) (r : PendingRead) :
    Connection T → Upcall T → Prop
  | validated
      (hp : r.payload = .validation)
      (howner : c.nowner = .server)
      (hreply : (ofBytes r.got : UInt64) = c.nHandshakeCheck) :
      OnRead c r { c with nHandshakeIn := ofBytes r.got } .validated
  | refused
      (hp : r.payload = .validation)
      (howner : c.nowner = .server)
      (hreply : (ofBytes r.got : UInt64) ≠ c.nHandshakeCheck) :
      OnRead c r (({ c with nHandshakeIn := ofBytes r.got }).close) .none
  | reply
      (hp : r.payload = .validation)
      (howner : c.nowner = .client) :
      OnRead c r
        (({ c with
            nHandshakeIn := ofBytes r.got
            nHandshakeOut := mfScramble (ofBytes r.got) }).mfWriteValidation)
        .none
  | header {header : MessageHeader T}
      (hp : r.payload = .header)
      (hheader : ofBytes r.got = header)
      (hsize : 0 < header.size) :
      OnRead c r
        (({ c with
            tempMessageIn :=
              ⟨header,
                c.tempMessageIn.body.takeD header.size.toNat 0⟩ }).mfReadBody)
        .none
  | noBody {header : MessageHeader T}
      (hp : r.payload = .header)
      (hheader : ofBytes r.got = header)
      (hsize : ¬ 0 < header.size) :
      OnRead c r
        (mfReadHeader
          { c with
            tempMessageIn := ⟨header, c.tempMessageIn.body⟩
            delivered := c.delivered ++ [⟨header, c.tempMessageIn.body⟩] })
        (.incoming ⟨header, c.tempMessageIn.body⟩)
  | body
      (hp : r.payload = .body) :
      OnRead c r
        (mfReadHeader
          { c with
            tempMessageIn := ⟨c.tempMessageIn.header, r.got⟩
            delivered := c.delivered ++ [⟨c.tempMessageIn.header, r.got⟩] })
        (.incoming ⟨c.tempMessageIn.header, r.got⟩)

theorem onRead_cases
    {c c' : Connection T} {r : PendingRead} {u : Upcall T}
    (h : c.onRead r = (c', u)) :
    OnRead c r c' u := by
  cases hp : r.payload with
  | validation =>
      simp only [onRead, hp, onReadValidation] at h
      split at h
      · next howner =>
          split at h
          · next hreply =>
              cases h
              exact .validated hp howner hreply
          · next hreply =>
              cases h
              exact .refused hp howner hreply
      · next howner =>
          cases h
          exact .reply hp howner
  | header =>
      simp only [onRead, hp, onReadHeader] at h
      split at h
      · next hsize =>
          cases h
          exact .header hp rfl hsize
      · next hsize =>
          cases h
          exact .noBody hp rfl hsize
  | body =>
      simp only [onRead, hp, onReadBody] at h
      cases h
      exact .body hp

/-- What `ioStep` does, event by event. -/
inductive IoStep (c : Connection T) :
    IoEvent → Connection T → Upcall T → Prop
  | runSend {i : Nat} {msg : Message T}
      (hmsg : c.posted[i]? = some msg) :
      IoStep c (.runSend i)
        ((c.dropPosted i).onSend msg) .none
  | runClose
      (hclosing : 0 < c.closing) :
      IoStep c .runClose
        (({ c with closing := c.closing - 1 }).close) .none
  | connected
      (hconn : c.connecting = true) :
      IoStep c .connected
        (({ c with connecting := false }).mfReadValidation) .none
  | connectFailed {isOpen : Bool}
      (hconn : c.connecting = true) :
      IoStep c (.connectFailed isOpen)
        { c with connecting := false, isOpen := isOpen } .none
  | recv {i : Nat} {bytes : List UInt8} {r : PendingRead}
      (hr : c.reads[i]? = some r)
      (hopen : c.isOpen = true)
      (hwant : r.got.length + bytes.length ≤ r.want) :
      IoStep c (.recv i bytes)
        { c with
          reads := c.reads.set i { r with got := r.got ++ bytes }
          received := c.received ++ bytes } .none
  | readDone {i : Nat} {r : PendingRead} {c' : Connection T} {u : Upcall T}
      (hr : c.reads[i]? = some r)
      (hfull : r.got.length = r.want)
      (hon : (c.dropRead i).onRead r = (c', u)) :
      IoStep c (.readDone i) c' u
  | readFail {i : Nat} {r : PendingRead}
      (hr : c.reads[i]? = some r) :
      IoStep c (.readFail i)
        ((c.dropRead i).close) .none
  | transfer {i n : Nat} {w : PendingWrite}
      (hw : c.writes[i]? = some w)
      (hopen : c.isOpen = true)
      (hleft : n ≤ w.left.length) :
      IoStep c (.transfer i n)
        { c with
          writes := c.writes.set i { w with left := w.left.drop n }
          wire := c.wire ++ w.left.take n } .none
  | writeDone {i : Nat} {w : PendingWrite}
      (hw : c.writes[i]? = some w)
      (hleft : w.left = []) :
      IoStep c (.writeDone i)
        ((c.dropWrite i).onWrite w) .none
  | writeFail {i : Nat} {w : PendingWrite}
      (hw : c.writes[i]? = some w) :
      IoStep c (.writeFail i)
        ((c.dropWrite i).close) .none

theorem ioStep_cases
    {c c' : Connection T} {e : IoEvent} {u : Upcall T}
    (h : c.ioStep e = some (c', u)) :
    IoStep c e c' u := by
  cases e with
  | runSend i =>
      simp only [ioStep] at h
      split at h
      · next msg hmsg =>
          cases h
          exact .runSend hmsg
      · cases h
  | runClose =>
      simp only [ioStep] at h
      split at h
      · next hclosing =>
          cases h
          exact .runClose hclosing
      · cases h
  | connected =>
      simp only [ioStep] at h
      split at h
      · next hconn =>
          cases h
          exact .connected hconn
      · cases h
  | connectFailed isOpen =>
      simp only [ioStep] at h
      split at h
      · next hconn =>
          cases h
          exact .connectFailed hconn
      · cases h
  | recv i bytes =>
      simp only [ioStep] at h
      split at h
      · next r hr =>
          split at h
          · next hguard =>
              cases h
              exact .recv hr hguard.1 hguard.2
          · cases h
      · cases h
  | readDone i =>
      simp only [ioStep] at h
      split at h
      · next r hr =>
          split at h
          · next hfull =>
              exact .readDone hr hfull (Option.some.inj h)
          · cases h
      · cases h
  | readFail i =>
      simp only [ioStep] at h
      split at h
      · next r hr =>
          cases h
          exact .readFail hr
      · cases h
  | transfer i n =>
      simp only [ioStep] at h
      split at h
      · next w hw =>
          split at h
          · next hguard =>
              cases h
              exact .transfer hw hguard.1 hguard.2
          · cases h
      · cases h
  | writeDone i =>
      simp only [ioStep] at h
      split at h
      · next w hw =>
          split at h
          · next hleft =>
              cases h
              exact .writeDone hw hleft
          · cases h
      · cases h
  | writeFail i =>
      simp only [ioStep] at h
      split at h
      · next w hw =>
          cases h
          exact .writeFail hw
      · cases h

theorem IoStep.ioStep_eq
    {c c' : Connection T} {e : IoEvent} {u : Upcall T}
    (h : IoStep c e c' u) :
    c.ioStep e = some (c', u) := by
  cases h with
  | runSend hmsg => simp [ioStep, hmsg]
  | runClose hclosing => simp [ioStep, hclosing]
  | connected hconn => simp [ioStep, hconn]
  | connectFailed hconn => simp [ioStep, hconn]
  | recv hr hopen hwant => simp [ioStep, hr, hopen, hwant]
  | readDone hr hfull hon => simp [ioStep, hr, hfull, hon]
  | readFail hr => simp [ioStep, hr]
  | transfer hw hopen hleft => simp [ioStep, hw, hopen, hleft]
  | writeDone hw hleft => simp [ioStep, hw, hleft]
  | writeFail hw => simp [ioStep, hw]

/-- A step of a connection is a call or a handler of the io thread; after
`on_client_validated` the handler goes on with `mf_read_header`. -/
theorem step_cases
    {c c' : Connection T} {e : ConnEvent T}
    (h : c.step e = some c') :
    (∃ msg, e = .send msg ∧ c' = c.send msg) ∨
    (e = .disconnect ∧ c' = c.disconnect) ∨
    (∃ e₀ u c₀, e = .io e₀ ∧ IoStep c e₀ c₀ u ∧
      (c' = c₀ ∨ u = .validated ∧ c' = c₀.mfReadHeader)) := by
  cases e with
  | send msg =>
      cases h
      exact Or.inl ⟨msg, rfl, rfl⟩
  | disconnect =>
      cases h
      exact Or.inr (Or.inl ⟨rfl, rfl⟩)
  | io e₀ =>
      right
      right
      simp only [step] at h
      split at h
      · next c₀ hio =>
          cases h
          exact ⟨e₀, _, c₀, rfl, ioStep_cases hio, Or.inr ⟨rfl, rfl⟩⟩
      · next c₀ u _ hio =>
          cases h
          exact ⟨e₀, u, c', rfl, ioStep_cases hio, Or.inl rfl⟩
      · cases h

end Steps

end Connection

end SpeciesSimulator
