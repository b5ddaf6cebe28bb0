import SpeciesSimulator.Lib.CondVar
import SpeciesSimulator.Lib.Transition
import SpeciesSimulator.WinConsole

/-!
# The queue of incoming messages and `update`

`TSQueue` of `NetTSQueue.h` and the function `update` of `Server_Interface` and
`Client_Interface`, which only differ in what they pass to `on_message` of the
message they took from the queue.

Every operation of the queue is one step, made under its lock; `wait` gives the
lock back while it sleeps.  The io thread pushes, one thread calls `update`, and
the events of `Updating` say which of them moves.

Main facts:
* `UpdatingInv.step`: the position of the consumer says what it knows about the
  queue and the counter;
* `update_delivers`: messages reach `on_message` in the order in which they were
  pushed, none is lost or doubled, and the consumer does not oversleep;
* `exists_received`: the consumer can always go on until everything that was pushed
  has reached `on_message`.
-/

namespace SpeciesSimulator

open Transition CondVar

/-- The queue, with the one thread that may wait on `cv_push`. -/
structure TSQueue (α : Type) where
  deqQueue : List α := []
  cvPush : Waiter := .away

namespace TSQueue

variable {α : Type}

def pushBack (q : TSQueue α) (item : α) : TSQueue α where
  deqQueue := q.deqQueue ++ [item]
  cvPush := q.cvPush.notifyOne

def empty (q : TSQueue α) : Bool :=
  q.deqQueue.isEmpty

/-- `pop_front`; an empty queue has no first item. -/
def popFront (q : TSQueue α) : Except Fault (α × TSQueue α) :=
  match q.deqQueue with
  | [] => .error .wildAccess
  | item :: rest => .ok (item, { q with deqQueue := rest })

/-- The loop of `wait`, each time it has the lock: it falls asleep, or it is
done. -/
def waitLocked (q : TSQueue α) : TSQueue α :=
  if q.empty then { q with cvPush := .blocked } else { q with cvPush := .away }

end TSQueue

/-- Where the thread that calls `update` stands. -/
inductive UpdatePoint (α : Type) where
  /-- Outside of `update`. -/
  | idle
  /-- In `wait`. -/
  | wait
  /-- At the condition of the loop. -/
  | test
  /-- In the loop, before `pop_front`. -/
  | pop
  /-- Before `on_message`. -/
  | dispatch (msg : α)

/-- A queue, the thread that calls `update`, and what both have seen so far. -/
structure Updating (α : Type) where
  qMessagesIn : TSQueue α := {}
  point : UpdatePoint α := .idle
  nMaxMessages : UInt64 := 0
  nMessageCount : UInt64 := 0
  fault : Option Fault := none
  /-- The messages pushed to the queue. -/
  pushed : List α := []
  /-- The messages passed to `on_message`. -/
  received : List α := []
  /-- How many of them by the last call of `update`. -/
  receivedByCall : Nat := 0

/-- The io thread pushes a message, `update` is called, the sleeping thread
wakes up for no reason, or the thread in `update` goes on. -/
inductive UpdateEvent (α : Type) where
  | pushBack (msg : α)
  | update (nMaxMessages : UInt64) (bwait : Bool)
  | spurious
  | next

namespace Updating

variable {α : Type}

/-- The next step of the thread in `update`. -/
def next (s : Updating α) : Option (Updating α) :=
  match s.point with
  | .idle => none
  | .wait =>
      match s.qMessagesIn.cvPush with
      | .blocked => none
      | _ =>
          let q := s.qMessagesIn.waitLocked
          some
            { s with
              qMessagesIn := q
              point := if q.cvPush = .away then .test else .wait }
  | .test =>
      if s.nMessageCount < s.nMaxMessages ∧ ¬ s.qMessagesIn.empty then
        some { s with point := .pop }
      else
        some { s with point := .idle }
  | .pop =>
      match s.qMessagesIn.popFront with
      | .ok (msg, q) =>
          some { s with qMessagesIn := q, point := .dispatch msg }
      | .error fault => some { s with fault := some fault }
  | .dispatch msg =>
      some
        { s with
          point := .test
          nMessageCount := s.nMessageCount + 1
          received := s.received ++ [msg]
          receivedByCall := s.receivedByCall + 1 }

def step (s : Updating α) : UpdateEvent α → Option (Updating α)
  | .pushBack msg =>
      some
        { s with
          qMessagesIn := s.qMessagesIn.pushBack msg
          pushed := s.pushed ++ [msg] }
  | .update nMaxMessages bwait =>
      match s.point, s.fault with
      | .idle, none =>
          some
            { s with
              point := if bwait then .wait else .test
              nMaxMessages := nMaxMessages
              nMessageCount := 0
              receivedByCall := 0 }
      | _, _ => none
  | .spurious =>
      match s.qMessagesIn.cvPush.wakeUp with
      | some waiter =>
          some { s with qMessagesIn := { s.qMessagesIn with cvPush := waiter } }
      | none => none
  | .next => if s.fault.isSome then none else s.next

/-- The message that was popped and not yet passed on. -/
def inHand (s : Updating α) : List α :=
  match s.point with
  | .dispatch msg => [msg]
  | _ => []

/-- What is promised to the application. -/
structure Delivers (s : Updating α) : Prop where
  order : s.received ++ s.inHand ++ s.qMessagesIn.deqQueue = s.pushed
  fault : s.fault = none
  atMost : s.receivedByCall ≤ s.nMaxMessages.toNat
  awake : s.qMessagesIn.cvPush = .blocked → s.qMessagesIn.deqQueue = []

/-- What the thread in `update` knows at each point. -/
def Knows (s : Updating α) : Prop :=
  match s.point with
  | .idle => s.qMessagesIn.cvPush = .away
  | .wait => s.nMessageCount = 0
  | .test => s.qMessagesIn.cvPush = .away
  | .pop =>
      s.qMessagesIn.cvPush = .away ∧ s.nMessageCount < s.nMaxMessages ∧
        s.qMessagesIn.deqQueue ≠ []
  | .dispatch _ =>
      s.qMessagesIn.cvPush = .away ∧ s.nMessageCount < s.nMaxMessages

structure UpdatingInv (s : Updating α) : Prop extends Delivers s where
  knows : s.Knows
  counted : s.nMessageCount.toNat = s.receivedByCall

namespace UpdatingInv

variable {s s' : Updating α}

/-- A push lands behind everything else and wakes the consumer up. -/
theorem pushBack
    (h : UpdatingInv s)
    (msg : α) :
    UpdatingInv
      { s with
        qMessagesIn := s.qMessagesIn.pushBack msg
        pushed := s.pushed ++ [msg] } where
  order := by
    have horder := h.order
    simp only [inHand, TSQueue.pushBack] at horder ⊢
    rw [← horder]
    simp only [List.append_assoc]
  fault := h.fault
  atMost := h.atMost
  awake := by
    intro hblocked
    exact absurd hblocked (Waiter.notifyOne_ne_blocked _)
  knows := by
    have hknows := h.knows
    cases hp : s.point with
    | idle => simpa [Knows, hp, TSQueue.pushBack] using hknows
    | wait => simpa [Knows, hp] using hknows
    | test => simpa [Knows, hp, TSQueue.pushBack] using hknows
    | pop =>
        simp only [Knows, hp] at hknows
        simp [Knows, TSQueue.pushBack, hknows]
    | dispatch m => simpa [Knows, hp, TSQueue.pushBack] using hknows
  counted := h.counted

/-- A call starts with its counter at zero. -/
theorem update
    (h : UpdatingInv s)
    (hidle : s.point = .idle)
    (nMaxMessages : UInt64) (bwait : Bool) :
    UpdatingInv
      { s with
        point := if bwait then .wait else .test
        nMaxMessages := nMaxMessages
        nMessageCount := 0
        receivedByCall := 0 } where
  order := by
    have horder := h.order
    simp only [inHand, hidle] at horder ⊢
    cases bwait with
    | false => simpa using horder
    | true => simpa using horder
  fault := h.fault
  atMost := Nat.zero_le _
  awake := h.awake
  knows := by
    have hknows := h.knows
    simp only [Knows, hidle] at hknows
    cases bwait with
    | false => simpa [Knows] using hknows
    | true => simp [Knows]
  counted := rfl

/-- A thread that wakes up finds the queue as it is. -/
theorem spurious
    (h : UpdatingInv s)
    (hblocked : s.qMessagesIn.cvPush = .blocked) :
    UpdatingInv
      { s with qMessagesIn := { s.qMessagesIn with cvPush := .woken } } where
  order := h.order
  fault := h.fault
  atMost := h.atMost
  awake := by
    intro hwoken
    cases hwoken
  knows := by
    have hknows := h.knows
    cases hp : s.point with
    | wait => simpa [Knows, hp] using hknows
    | idle => simp [Knows, hp, hblocked] at hknows
    | test => simp [Knows, hp, hblocked] at hknows
    | pop => simp [Knows, hp, hblocked] at hknows
    | dispatch m => simp [Knows, hp, hblocked] at hknows
  counted := h.counted

/-- Whoever has the lock in `wait` sleeps only on an empty queue. -/
theorem next_wait
    (h : UpdatingInv s)
    (hp : s.point = .wait)
    (hnext : s.next = some s') :
    UpdatingInv s' := by
  have hknows := h.knows
  have horder := h.order
  simp only [Knows, hp] at hknows
  simp only [inHand, hp, List.append_nil] at horder
  simp only [next, hp] at hnext
  split at hnext
  · cases hnext
  · cases hnext
    cases hq : s.qMessagesIn.deqQueue with
    | nil =>
        rw [hq] at horder
        refine ⟨⟨?_, h.fault, h.atMost, ?_⟩, ?_, h.counted⟩
        · simpa [inHand, TSQueue.waitLocked, TSQueue.empty, hq] using horder
        · simp [TSQueue.waitLocked, TSQueue.empty, hq]
        · simpa [Knows, TSQueue.waitLocked, TSQueue.empty, hq] using hknows
    | cons m rest =>
        rw [hq] at horder
        refine ⟨⟨?_, h.fault, h.atMost, ?_⟩, ?_, h.counted⟩
        · simpa [inHand, TSQueue.waitLocked, TSQueue.empty, hq] using horder
        · simp [TSQueue.waitLocked, TSQueue.empty, hq]
        · simp [Knows, TSQueue.waitLocked, TSQueue.empty, hq]

/-- The condition of the loop is what `pop_front` relies on. -/
theorem next_test
    (h : UpdatingInv s)
    (hp : s.point = .test)
    (hnext : s.next = some s') :
    UpdatingInv s' := by
  have hknows := h.knows
  have horder := h.order
  simp only [Knows, hp] at hknows
  simp only [inHand, hp] at horder
  simp only [next, hp] at hnext
  split at hnext
  · rename_i hcond
    obtain ⟨hcount, hnonempty⟩ := hcond
    cases hnext
    refine ⟨⟨horder, h.fault, h.atMost, h.awake⟩, ?_, h.counted⟩
    refine ⟨hknows, hcount, ?_⟩
    simpa [TSQueue.empty] using hnonempty
  · cases hnext
    exact ⟨⟨horder, h.fault, h.atMost, h.awake⟩, hknows, h.counted⟩

/-- The item that is popped was the first of the queue. -/
theorem next_pop
    (h : UpdatingInv s)
    (hp : s.point = .pop)
    (hnext : s.next = some s') :
    UpdatingInv s' := by
  have hknows := h.knows
  have horder := h.order
  simp only [Knows, hp] at hknows
  simp only [inHand, hp] at horder
  obtain ⟨haway, hcount, hnonempty⟩ := hknows
  obtain ⟨msg, rest, hq⟩ := List.exists_cons_of_ne_nil hnonempty
  simp only [next, hp, TSQueue.popFront, hq, Option.some.injEq] at hnext
  subst s'
  refine ⟨⟨?_, h.fault, h.atMost, ?_⟩, ⟨haway, hcount⟩, h.counted⟩
  · rw [hq] at horder
    simpa [inHand] using horder
  · intro hblocked
    rw [haway] at hblocked
    cases hblocked

/-- The counter stays within its bound, so it does not wrap around. -/
theorem next_dispatch
    {msg : α}
    (h : UpdatingInv s)
    (hp : s.point = .dispatch msg)
    (hnext : s.next = some s') :
    UpdatingInv s' := by
  have hknows := h.knows
  have horder := h.order
  have hcounted := h.counted
  simp only [Knows, hp] at hknows
  simp only [inHand, hp] at horder
  obtain ⟨haway, hcount⟩ := hknows
  have hlt : s.nMessageCount.toNat < s.nMaxMessages.toNat :=
    UInt64.lt_iff_toNat_lt.mp hcount
  have hmax := s.nMaxMessages.toNat_lt
  simp only [next, hp, Option.some.injEq] at hnext
  subst s'
  refine ⟨⟨?_, h.fault, ?_, h.awake⟩, haway, ?_⟩
  · simpa [inHand] using horder
  · simp only
    omega
  · simp only [UInt64.toNat_add, UInt64.toNat_one]
    omega

/-- Every step keeps what the consumer knows. -/
theorem step
    {e : UpdateEvent α}
    (h : UpdatingInv s)
    (hstep : s.step e = some s') :
    UpdatingInv s' := by
  cases e with
  | pushBack msg =>
      cases hstep
      exact h.pushBack msg
  | update nMaxMessages bwait =>
      simp only [Updating.step] at hstep
      split at hstep
      · rename_i hidle _
        cases hstep
        exact h.update hidle nMaxMessages bwait
      · cases hstep
  | spurious =>
      simp only [Updating.step] at hstep
      split at hstep
      · rename_i waiter hwake
        obtain ⟨hblocked, rfl⟩ := Waiter.wakeUp_eq_some.mp hwake
        cases hstep
        exact h.spurious hblocked
      · cases hstep
  | next =>
      simp only [Updating.step, h.fault, Option.isSome_none,
        Bool.false_eq_true, ↓reduceIte] at hstep
      cases hp : s.point with
      | idle => simp [next, hp] at hstep
      | wait => exact h.next_wait hp hstep
      | test => exact h.next_test hp hstep
      | pop => exact h.next_pop hp hstep
      | dispatch msg => exact h.next_dispatch hp hstep

end UpdatingInv

/-- Nothing was pushed, and nobody waits. -/
theorem updatingInv_start : UpdatingInv ({} : Updating α) where
  order := rfl
  fault := rfl
  atMost := Nat.le_refl _
  awake := fun _ => rfl
  knows := rfl
  counted := rfl

section Progress

variable {s : Updating α}

/-- How far the thread in `update` is from the next `on_message`. -/
def stage (s : Updating α) : Nat :=
  match s.point with
  | .dispatch _ => 0
  | .pop => 1
  | .test => if s.nMessageCount < s.nMaxMessages then 2 else 4
  | .idle => 3
  | .wait => 5

/-- How far it is from the last one. -/
def distance (s : Updating α) : Nat :=
  6 * (s.inHand.length + s.qMessagesIn.deqQueue.length) + s.stage

/-- As long as a message has not reached `on_message` the thread in `update` can go
on, or `update` can be called. -/
theorem UpdatingInv.exists_next
    (h : UpdatingInv s)
    (hmissing : s.received ≠ s.pushed) :
    ∃ e s', s.step e = some s' ∧ s'.pushed = s.pushed ∧
      s'.distance < s.distance := by
  have horder := h.order
  have hknows := h.knows
  have hstep (s' : Updating α) (hnext : s.next = some s') :
      s.step .next = some s' := by
    simp [Updating.step, h.fault, hnext]
  cases hp : s.point with
  | idle =>
      refine ⟨.update 1 false,
        { s with
          point := .test
          nMaxMessages := 1
          nMessageCount := 0
          receivedByCall := 0 }, ?_, rfl, ?_⟩
      · simp [Updating.step, hp, h.fault]
      · simp [distance, inHand, stage, hp]
  | wait =>
      have hne : s.qMessagesIn.deqQueue ≠ [] := by
        intro hnil
        simp only [inHand, hp, hnil, List.append_nil] at horder
        exact hmissing horder
      have hawake : s.qMessagesIn.cvPush ≠ .blocked := fun hblocked =>
        hne (h.awake hblocked)
      refine ⟨.next,
        { s with
          qMessagesIn := { s.qMessagesIn with cvPush := .away }
          point := .test }, hstep _ ?_, rfl, ?_⟩
      · cases hcv : s.qMessagesIn.cvPush with
        | blocked => exact absurd hcv hawake
        | away => simp [next, hp, hcv, TSQueue.waitLocked, TSQueue.empty, hne]
        | woken => simp [next, hp, hcv, TSQueue.waitLocked, TSQueue.empty, hne]
      · simp only [distance, inHand, stage, hp]
        split
        · omega
        · omega
  | test =>
      have hne : s.qMessagesIn.deqQueue ≠ [] := by
        intro hnil
        simp only [inHand, hp, hnil, List.append_nil] at horder
        exact hmissing horder
      by_cases hcount : s.nMessageCount < s.nMaxMessages
      · refine ⟨.next, { s with point := .pop }, hstep _ ?_, rfl, ?_⟩
        · simp [next, hp, hcount, TSQueue.empty, hne]
        · simp [distance, inHand, stage, hp, hcount]
      · refine ⟨.next, { s with point := .idle }, hstep _ ?_, rfl, ?_⟩
        · simp [next, hp, hcount]
        · simp [distance, inHand, stage, hp, hcount]
  | pop =>
      simp only [Knows, hp] at hknows
      obtain ⟨msg, rest, hq⟩ := List.exists_cons_of_ne_nil hknows.2.2
      refine ⟨.next,
        { s with
          qMessagesIn := { s.qMessagesIn with deqQueue := rest }
          point := .dispatch msg }, hstep _ ?_, rfl, ?_⟩
      · simp [next, hp, TSQueue.popFront, hq]
      · simp only [distance, inHand, stage, hp, hq, List.length_cons,
          List.length_nil]
        omega
  | dispatch msg =>
      refine ⟨.next,
        { s with
          point := .test
          nMessageCount := s.nMessageCount + 1
          received := s.received ++ [msg]
          receivedByCall := s.receivedByCall + 1 },
        hstep _ (by simp only [next, hp]), rfl, ?_⟩
      simp only [distance, inHand, stage, hp, List.length_cons, List.length_nil]
      split
      · omega
      · omega

/-- From every state the consumer can go on, by itself, until everything that was
pushed has reached `on_message`. -/
theorem UpdatingInv.exists_received
    (h : UpdatingInv s) :
    ∃ es s', run Updating.step s es = some s' ∧ s'.pushed = s.pushed ∧
      s'.received = s.pushed := by
  have hprogress (q : Updating α) (hq : UpdatingInv q ∧ q.pushed = s.pushed)
      (hmissing : ¬ q.received = q.pushed) :
      ∃ e q', q.step e = some q' ∧ (UpdatingInv q' ∧ q'.pushed = s.pushed) ∧
        q'.distance < q.distance := by
    obtain ⟨e, q', hstep, hpushed, hcloser⟩ := hq.1.exists_next hmissing
    exact ⟨e, q', hstep, ⟨hq.1.step hstep, hpushed.trans hq.2⟩, hcloser⟩
  obtain ⟨es, s', hrun, ⟨_, hpushed⟩, hreceived⟩ :=
    exists_run_of_progress distance hprogress ⟨h, rfl⟩
  exact ⟨es, s', hrun, hpushed, hreceived.trans hpushed⟩

end Progress

/-- In every interleaving of pushes with calls of `update`, messages reach
`on_message` in the order of the pushes, without loss or duplication; nothing is
popped from an empty queue; no call passes on more than `nMaxMessages`; and the
consumer does not sleep on a queue that is not empty. -/
theorem update_delivers (es : List (UpdateEvent α)) :
    Always step Delivers ({} : Updating α) es := by
  refine always_of_invariant (C := fun _ _ => True) (I := UpdatingInv)
    ?_ (fun s h => h.toDelivers) updatingInv_start ?_
  · intro s e s' h _ hstep
    exact h.step hstep
  · exact meets_of_forall (fun _ _ _ => trivial) _

/-- A message that comes while the consumer sleeps reaches `on_message`. -/
theorem update_delivers_sleeping :
    ∃ s : Updating Nat,
      run step {} [.update 5 true, .next, .pushBack 7, .next, .next, .next, .next] =
          some s ∧
        s.received = [7] ∧ s.Delivers := by
  obtain ⟨s, hrun, hreceived⟩ :
      ∃ s : Updating Nat,
        run step {}
            [.update 5 true, .next, .pushBack 7, .next, .next, .next, .next] =
          some s ∧ s.received = [7] :=
    ⟨_, rfl, rfl⟩
  exact ⟨s, hrun, hreceived, (update_delivers _).of_run hrun⟩

end Updating

end SpeciesSimulator
