import SpeciesSimulator.Lib.Transition
import SpeciesSimulator.NetMsg

/-!
# The body of a message as a stack

Objects and arrays of any types are pushed to a message and taken off it again
in the reverse order, each as an object or an array that has as many bytes as
what was pushed.  A pull copies bytes out of the body; `Pull.read` says what
they are read as.

Main facts:
* `Pull.run_of_body_eq`: a pull takes the last bytes off the body;
* `stack_faithful`: every pull copies the bytes of its push, the size in the
  header is the length of the body all the time, and in the end the message is
  the one that it was.
-/

namespace SpeciesSimulator

open ByteLayout Transition

universe u

namespace Message

/-- An object for `operator<<`, or the first objects of an array for
`push_back_complex`. -/
inductive Push : Type 1
  | insert {α : Type} [Layout α] (data : α)
  | pushBackComplex {α : Type} [Layout α] (data : List α) (sizeOfData : Nat)
      (hsize : sizeOfData ≤ data.length)

/-- What `operator>>` or `pull_complex` is asked for. -/
inductive Pull : Type 1
  | extract (α : Type) [Layout α]
  | pullComplex (α : Type) [Layout α] (sizeOfData : Nat)

variable {T : Type u}

section Pushes

/-- The bytes that are copied to the message. -/
def Push.bytes : Push → List UInt8
  | @insert _ _ data => toBytes data
  | @pushBackComplex _ _ data sizeOfData _ => serialize (data.take sizeOfData)

def Push.run (msg : Message T) : Push → Option (Message T)
  | @insert _ _ data => some (msg.insert data)
  | @pushBackComplex _ _ data sizeOfData _ =>
      msg.pushBackComplex data sizeOfData

/-- A push appends its bytes to the body. -/
theorem Push.run_eq (msg : Message T) (p : Push) :
    p.run msg = some (msg.setBody (msg.body ++ p.bytes)) := by
  cases p with
  | insert data => rfl
  | pushBackComplex data sizeOfData hsize =>
      simp only [Push.run, Message.pushBackComplex, hsize, if_true, Push.bytes]

end Pushes

section Pulls

/-- How many bytes are copied from the message. -/
def Pull.size : Pull → Nat
  | @extract α _ => byteSize α
  | @pullComplex α _ sizeOfData => complexSize α sizeOfData

/-- What the bytes are copied to. -/
def Pull.Result : Pull → Type
  | @extract α _ => α
  | @pullComplex α _ _ => List α

/-- What the bytes are read as. -/
def Pull.read : (p : Pull) → List UInt8 → p.Result
  | @extract α _, bs => (ofBytes bs : α)
  | @pullComplex α _ sizeOfData, bs =>
      (deserialize (complexCount α sizeOfData) bs : List α)

def Pull.run (msg : Message T) :
    (p : Pull) → Option (p.Result × Message T)
  | @extract α _ => msg.extract α
  | @pullComplex α _ sizeOfData => msg.pullComplex α sizeOfData

/-- A pull takes the last bytes off the body. -/
theorem Pull.run_of_body_eq
    {msg : Message T} {rest bs : List UInt8} {p : Pull}
    (hbody : msg.body = rest ++ bs)
    (hsize : p.size = bs.length) :
    p.run msg = some (p.read bs, msg.setBody rest) := by
  cases p with
  | extract α =>
      simp only [Pull.size] at hsize
      simp [Pull.run, Message.extract, hbody, hsize]
      rfl
  | pullComplex α sizeOfData =>
      simp only [Pull.size] at hsize
      simp [Pull.run, Message.pullComplex, hbody, hsize]
      rfl

end Pulls

/-- A push, and a pull of as many bytes. -/
structure Exchange where
  push : Push
  pull : Pull
  fits : pull.size = push.bytes.length

inductive StackOp : Type 1
  | push (p : Push)
  | pull (p : Pull)

/-- A message, and what was taken off it so far. -/
structure Session (T : Type u) where
  msg : Message T
  pulled : List (Σ p : Pull, p.Result)

def Session.step (s : Session T) : StackOp → Option (Session T)
  | .push p =>
      match p.run s.msg with
      | some msg => some { s with msg := msg }
      | none => none
  | .pull p =>
      match p.run s.msg with
      | some (data, msg) => some ⟨msg, s.pulled ++ [⟨p, data⟩]⟩
      | none => none

/-- All pushes, then the pulls in the reverse order. -/
def stackOps (xs : List Exchange) : List StackOp :=
  xs.map (fun x => .push x.push) ++ xs.reverse.map (fun x => .pull x.pull)

/-- What the pushed bytes are read as, in the order of the pulls. -/
def stackData (xs : List Exchange) : List (Σ p : Pull, p.Result) :=
  xs.reverse.map fun x => ⟨x.pull, x.pull.read x.push.bytes⟩

/-- How many bytes are pushed. -/
def stackBytes (xs : List Exchange) : Nat :=
  (xs.map fun x => x.push.bytes.length).sum

section Stack

/-- The header announces the length of the body. -/
def Session.SizeExact (s : Session T) : Prop :=
  s.msg.header.size.toNat = s.msg.body.length

theorem setBody_setBody (msg : Message T) (b b' : List UInt8) :
    (msg.setBody b).setBody b' = msg.setBody b' := by
  rfl

theorem setBody_body_of_size
    {msg : Message T}
    (hsize : msg.header.size.toNat = msg.body.length) :
    msg.setBody msg.body = msg := by
  have hofNat : UInt32.ofNat msg.body.length = msg.header.size := by
    rw [← hsize, UInt32.ofNat_toNat]
  unfold setBody
  rw [hofNat]

theorem sizeExact_setBody
    {msg : Message T} {b : List UInt8} {pulled : List (Σ p : Pull, p.Result)}
    (hlen : b.length < 2 ^ 32) :
    Session.SizeExact ⟨msg.setBody b, pulled⟩ :=
  UInt32.toNat_ofNat_of_lt' hlen

theorem step_push
    (msg : Message T) (b : List UInt8) (pulled : List (Σ p : Pull, p.Result))
    (p : Push) :
    Session.step ⟨msg.setBody b, pulled⟩ (.push p) =
      some ⟨msg.setBody (b ++ p.bytes), pulled⟩ := by
  simp only [Session.step, Push.run_eq, setBody_body, setBody_setBody]

theorem step_pull
    (msg : Message T) (b : List UInt8) (pulled : List (Σ p : Pull, p.Result))
    (x : Exchange) :
    Session.step ⟨msg.setBody (b ++ x.push.bytes), pulled⟩ (.pull x.pull) =
      some
        ⟨msg.setBody b,
          pulled ++ [⟨x.pull, x.pull.read x.push.bytes⟩]⟩ := by
  have hrun :=
    Pull.run_of_body_eq
      (setBody_body msg (b ++ x.push.bytes)) x.fits
  simp only [Session.step, hrun, setBody_setBody]

theorem stackOps_cons (x : Exchange) (xs : List Exchange) :
    stackOps (x :: xs) =
      .push x.push :: (stackOps xs ++ [.pull x.pull]) := by
  simp [stackOps]

theorem stackData_cons (x : Exchange) (xs : List Exchange) :
    stackData (x :: xs) =
      stackData xs ++ [⟨x.pull, x.pull.read x.push.bytes⟩] := by
  simp [stackData]

theorem stackBytes_cons (x : Exchange) (xs : List Exchange) :
    stackBytes (x :: xs) = x.push.bytes.length + stackBytes xs := by
  simp [stackBytes]

/-- What is on the stack below the exchanges does not matter. -/
theorem run_stackOps
    (msg : Message T) (xs : List Exchange)
    (b : List UInt8) (pulled : List (Σ p : Pull, p.Result)) :
    run Session.step ⟨msg.setBody b, pulled⟩ (stackOps xs) =
      some ⟨msg.setBody b, pulled ++ stackData xs⟩ := by
  induction xs generalizing b with
  | nil =>
      simp [stackOps, stackData]
  | cons x xs ih =>
      have hinner := ih (b ++ x.push.bytes)
      rw [stackOps_cons, run_cons_of_step (step_push msg b pulled x.push),
        run_append hinner, run_singleton, step_pull, stackData_cons,
        List.append_assoc]

theorem always_stackOps
    (msg : Message T) (xs : List Exchange)
    (b : List UInt8) (pulled : List (Σ p : Pull, p.Result))
    (hlen : b.length + stackBytes xs < 2 ^ 32) :
    Always Session.step Session.SizeExact ⟨msg.setBody b, pulled⟩
      (stackOps xs) := by
  induction xs generalizing b with
  | nil =>
      exact sizeExact_setBody (by omega)
  | cons x xs ih =>
      rw [stackBytes_cons] at hlen
      have hbefore : Session.SizeExact ⟨msg.setBody b, pulled⟩ :=
        sizeExact_setBody (by omega)
      have hinner := ih (b ++ x.push.bytes) (by rw [List.length_append]; omega)
      have hrun := run_stackOps msg xs (b ++ x.push.bytes) pulled
      rw [stackOps_cons]
      refine always_cons hbefore fun s hpush => ?_
      rw [step_push] at hpush
      cases hpush
      refine always_append hinner hrun ?_
      refine always_cons (sizeExact_setBody ?_) fun s hpull => ?_
      · rw [List.length_append]
        omega
      · rw [step_pull] at hpull
        cases hpull
        exact sizeExact_setBody (by omega)

/-- Pulling in the reverse order gives the bytes that were pushed, and leaves
the message as it was.  All the time its header has the size of its body. -/
theorem stack_faithful
    {msg : Message T} {xs : List Exchange}
    (hsize : msg.header.size.toNat = msg.body.length)
    (hlen : msg.body.length + stackBytes xs < 2 ^ 32) :
    run Session.step ⟨msg, []⟩ (stackOps xs) =
        some ⟨msg, stackData xs⟩ ∧
      Always Session.step Session.SizeExact ⟨msg, []⟩ (stackOps xs) := by
  have hrun := run_stackOps msg xs msg.body []
  have halways := always_stackOps msg xs msg.body [] hlen
  rw [setBody_body_of_size hsize] at hrun halways
  exact ⟨hrun, halways⟩

/-- A number and two characters, taken off as a number and two characters. -/
theorem stack_faithful_two :
    run Session.step ⟨⟨⟨(0 : Nat), 0⟩, []⟩, []⟩
        (stackOps
          [⟨.insert (258 : UInt16), .pullComplex UInt8 2, rfl⟩,
            ⟨.pushBackComplex [7, 8, (9 : UInt8)] 2 (by decide),
              .extract UInt16, rfl⟩]) =
      some
        ⟨⟨⟨0, 0⟩, []⟩,
          [⟨.extract UInt16, (2055 : UInt16)⟩,
            ⟨.pullComplex UInt8 2, [(2 : UInt8), 1]⟩]⟩ :=
  (@stack_faithful Nat ⟨⟨0, 0⟩, []⟩ _ rfl (by decide)).1

end Stack

end Message

end SpeciesSimulator
