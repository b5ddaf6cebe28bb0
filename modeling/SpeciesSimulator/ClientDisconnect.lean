import SpeciesSimulator.NetConnection

/-!
# Disconnecting a client

`Client_Interface::disconnect` posts a handler that closes the socket, stops the
context, joins its thread and gives up the connection.  It runs concurrently with
the thread that executes `m_AsioContext.run()`: that one takes no further handler
after `stop`, and returns when it is stopped or when nothing is left to do.

`m_uptrConnection.release()` does not destroy the connection, whose socket stays
as it is.

Main facts:
* `isOpen_of_stopped`: nothing opens or closes the socket after `stop`;
* `closed_iff`: the socket is closed when `disconnect` returns, if and only if
  it was when the context was stopped.
-/

namespace SpeciesSimulator

open ByteLayout Transition

universe u

/-- The next statement of `disconnect`. -/
inductive DisconnectPc where
  | isConnected
  | disconnect
  | stop
  | join
  | release
  | returned
deriving DecidableEq

/-- A client that is being disconnected; the connection exists also after the
client has given it up. -/
structure ClientInterface (T : Type u) where
  connection : Connection T
  owned : Bool := true
  stopped : Bool := false
  runReturned : Bool := false
  pc : DisconnectPc := .isConnected

/-- What happens next: a statement of `disconnect`, something on the connection,
or the end of `m_AsioContext.run()`. -/
inductive DisconnectEvent where
  | caller
  | io (e : IoEvent)
  | runReturns

/-- Bytes are moved without a handler. -/
def IoEvent.isTransfer : IoEvent → Bool
  | .recv _ _ => true
  | .transfer _ _ => true
  | _ => false

/-- The context has something to do. -/
def Connection.hasWork {T : Type u} (c : Connection T) : Bool :=
  !c.posted.isEmpty || decide (0 < c.closing) || c.connecting ||
    !c.reads.isEmpty || !c.writes.isEmpty

namespace ClientInterface

variable {T : Type u}

section Model

/-- One statement of `disconnect`. -/
def callerStep (c : ClientInterface T) : Option (ClientInterface T) :=
  match c.pc with
  | .isConnected =>
      some
        { c with pc := if c.connection.isOpen then .disconnect else .stop }
  | .disconnect =>
      some { c with connection := c.connection.disconnect, pc := .stop }
  | .stop => some { c with stopped := true, pc := .join }
  | .join => if c.runReturned then some { c with pc := .release } else none
  | .release => some { c with owned := false, pc := .returned }
  | .returned => none

variable [Layout (MessageHeader T)]

def step (c : ClientInterface T) :
    DisconnectEvent → Option (ClientInterface T)
  | .caller => c.callerStep
  | .io e =>
      if e.isTransfer || !(c.stopped || c.runReturned) then
        match c.connection.step (.io e) with
        | some connection => some { c with connection := connection }
        | none => none
      else none
  | .runReturns =>
      if !c.runReturned && (c.stopped || !c.connection.hasWork) then
        some { c with runReturned := true }
      else none

/-- A connected client is about to be disconnected. -/
structure Connected (c : ClientInterface T) : Prop where
  owner : c.connection.nowner = .client
  isOpen : c.connection.isOpen = true
  owned : c.owned = true
  stopped : c.stopped = false
  runReturned : c.runReturned = false
  pc : c.pc = .isConnected

/-- The socket is closed already when the context is stopped. -/
def ClosedBeforeStop
    (c : ClientInterface T) (e : DisconnectEvent) : Prop :=
  e = .caller → c.pc = .stop → c.connection.isOpen = false

/-- The context has been stopped. -/
def AfterStop (c : ClientInterface T) : Prop :=
  c.stopped = true ∧ (c.pc = .join ∨ c.pc = .release ∨ c.pc = .returned)

/-- The context is yet to be stopped. -/
def BeforeStop (c : ClientInterface T) : Prop :=
  c.pc = .isConnected ∨ c.pc = .disconnect ∨ c.pc = .stop

end Model

section Steps

variable [Layout (MessageHeader T)]
  {c c' : ClientInterface T} {e : DisconnectEvent}

/-- Bytes that are moved do not open or close the socket. -/
theorem isOpen_of_transfer
    {conn conn' : Connection T} {e : IoEvent}
    (he : e.isTransfer = true)
    (hstep : conn.step (.io e) = some conn') :
    conn'.isOpen = conn.isOpen := by
  rcases Connection.step_cases hstep with
    ⟨_, hcall, _⟩ | ⟨hcall, _⟩ | ⟨e₀, u, conn₀, hcall, hio, hconn'⟩
  · cases hcall
  · cases hcall
  · cases hcall
    cases hio with
    | recv =>
        rcases hconn' with rfl | ⟨hu, _⟩
        · rfl
        · cases hu
    | transfer =>
        rcases hconn' with rfl | ⟨hu, _⟩
        · rfl
        · cases hu
    | _ => cases he

/-- Nothing opens or closes the socket when the context is stopped. -/
theorem isOpen_of_stopped
    (h : AfterStop c)
    (hstep : c.step e = some c') :
    AfterStop c' ∧ c'.connection.isOpen = c.connection.isOpen := by
  obtain ⟨hstopped, hpc⟩ := h
  cases e with
  | caller =>
      simp only [step, callerStep] at hstep
      rcases hpc with hpc | hpc | hpc
      · rw [hpc] at hstep
        dsimp only at hstep
        split at hstep
        · cases hstep
          exact ⟨⟨hstopped, Or.inr (Or.inl rfl)⟩, rfl⟩
        · cases hstep
      · rw [hpc] at hstep
        cases hstep
        exact ⟨⟨hstopped, Or.inr (Or.inr rfl)⟩, rfl⟩
      · rw [hpc] at hstep
        cases hstep
  | io e =>
      simp only [step, hstopped, Bool.true_or, Bool.not_true, Bool.or_false]
        at hstep
      split at hstep
      · next htransfer =>
        split at hstep
        · next hio =>
          cases hstep
          exact ⟨⟨rfl, hpc⟩, isOpen_of_transfer htransfer hio⟩
        · cases hstep
      · cases hstep
  | runReturns =>
      simp only [step] at hstep
      split at hstep
      · cases hstep
        exact ⟨⟨hstopped, hpc⟩, rfl⟩
      · cases hstep

/-- Before it is stopped, the context is not stopped by anything but `stop`. -/
theorem step_of_beforeStop
    (h : BeforeStop c)
    (hstep : c.step e = some c') :
    BeforeStop c' ∧ ¬ (e = .caller ∧ c.pc = .stop) ∨
      (e = .caller ∧ c.pc = .stop) ∧ AfterStop c' ∧
        c'.connection.isOpen = c.connection.isOpen := by
  cases e with
  | caller =>
      simp only [step, callerStep] at hstep
      rcases h with hpc | hpc | hpc
      · rw [hpc] at hstep
        cases hstep
        refine Or.inl ⟨?_, fun hstop => by simp [hpc] at hstop⟩
        unfold BeforeStop
        dsimp only
        split
        · exact Or.inr (Or.inl rfl)
        · exact Or.inr (Or.inr rfl)
      · rw [hpc] at hstep
        cases hstep
        exact
          Or.inl ⟨Or.inr (Or.inr rfl), fun hstop => by simp [hpc] at hstop⟩
      · rw [hpc] at hstep
        cases hstep
        exact Or.inr ⟨⟨rfl, hpc⟩, ⟨rfl, Or.inl rfl⟩, rfl⟩
  | io e =>
      left
      simp only [step] at hstep
      split at hstep
      · split at hstep
        · cases hstep
          exact ⟨h, fun hstop => by cases hstop.1⟩
        · cases hstep
      · cases hstep
  | runReturns =>
      left
      simp only [step] at hstep
      split at hstep
      · cases hstep
        exact ⟨h, fun hstop => by cases hstop.1⟩
      · cases hstep

end Steps

section Runs

variable [Layout (MessageHeader T)]
  {c t : ClientInterface T} {es : List DisconnectEvent}

/-- After `stop`, the socket stays as it is until `disconnect` returns. -/
theorem run_afterStop
    (h : AfterStop c)
    (hrun : run step c es = some t) :
    t.connection.isOpen = c.connection.isOpen ∧
      Meets step ClosedBeforeStop c es := by
  constructor
  · have hinv :
        AfterStop t ∧ t.connection.isOpen = c.connection.isOpen := by
      refine
        reachable_invariant
          (I := fun s =>
            AfterStop s ∧ s.connection.isOpen = c.connection.isOpen)
          ?_ ⟨h, rfl⟩ ⟨es, hrun⟩
      rintro s e s' ⟨hs, hsame⟩ hstep
      obtain ⟨hs', hkept⟩ := isOpen_of_stopped hs hstep
      exact ⟨hs', hkept.trans hsame⟩
    exact hinv.2
  · refine
      meets_of_invariant (I := AfterStop)
        (fun s e _ s' hs hstep => (isOpen_of_stopped hs hstep).1) ?_ h
    rintro s e _ ⟨_, hpc⟩ _ hstop
    simp [hstop] at hpc

/-- The state of the socket at `stop` is the one it is left in. -/
theorem closed_iff_of_beforeStop
    (h : BeforeStop c)
    (hrun : run step c es = some t)
    (hreturned : t.pc = .returned) :
    t.connection.isOpen = false ↔ Meets step ClosedBeforeStop c es := by
  induction es generalizing c with
  | nil =>
      simp only [run_nil, Option.some.injEq] at hrun
      subst t
      simp [BeforeStop, hreturned] at h
  | cons e es ih =>
      obtain ⟨c', hstep, htail⟩ := run_cons_some hrun
      rcases step_of_beforeStop h hstep with
        ⟨h', hnot⟩ | ⟨hstop, hafter, hkept⟩
      · rw [ih h' htail]
        constructor
        · intro hmeets
          refine meets_cons (fun he hpc => absurd ⟨he, hpc⟩ hnot) ?_
          intro s hs
          obtain rfl := Option.some.inj (hstep.symm.trans hs)
          exact hmeets
        · exact fun hmeets => hmeets.tail hstep
      · obtain ⟨hsame, hmeets⟩ := run_afterStop hafter htail
        rw [hsame, hkept]
        constructor
        · intro hclosed
          refine meets_cons (fun _ _ => hclosed) fun s hs => ?_
          obtain rfl := Option.some.inj (hstep.symm.trans hs)
          exact hmeets
        · exact fun hmeets => hmeets.head hstop.1 hstop.2

/-- The close is posted. -/
theorem exists_run_post
    (h : Connected c) :
    ∃ c₁, run step c [.caller, .caller] = some c₁ ∧ c₁.pc = .stop ∧
      c₁.stopped = false ∧ c₁.runReturned = false ∧
      c₁.connection.isOpen = true ∧ 0 < c₁.connection.closing := by
  have hchecked :
      step c .caller = some { c with pc := .disconnect } := by
    simp [step, callerStep, h.pc, h.isOpen]
  refine
    ⟨{ c with connection := c.connection.disconnect, pc := .stop }, ?_, rfl,
      h.stopped, h.runReturned, ?_, ?_⟩
  · rw [run_cons_of_step hchecked, run_singleton]
    rfl
  · simp [Connection.disconnect, h.isOpen]
  · simp [Connection.disconnect, h.isOpen]

/-- From `stop` on, `disconnect` gets to its end. -/
theorem exists_run_stop
    (hpc : c.pc = .stop)
    (hreturned : c.runReturned = false) :
    ∃ t, run step c [.caller, .runReturns, .caller, .caller] = some t ∧
      t.pc = .returned ∧ t.connection = c.connection := by
  have hstopped :
      step c .caller = some { c with stopped := true, pc := .join } := by
    simp [step, callerStep, hpc]
  have hran :
      step { c with stopped := true, pc := .join } .runReturns =
        some { c with stopped := true, runReturned := true, pc := .join } := by
    simp [step, hreturned]
  refine
    ⟨{ c with
        owned := false, stopped := true, runReturned := true, pc := .returned },
      ?_, rfl, rfl⟩
  rw [run_cons_of_step hstopped, run_cons_of_step hran]
  rfl

/-- The context may be stopped before the posted handler has run. -/
theorem exists_run_open
    (h : Connected c) :
    ∃ es t, run step c es = some t ∧ t.pc = .returned ∧
      t.connection.isOpen = true := by
  obtain ⟨c₁, hpost, hpc, _, hreturned, hopen, _⟩ := exists_run_post h
  obtain ⟨t, hstop, htpc, hconn⟩ := exists_run_stop hpc hreturned
  refine
    ⟨[.caller, .caller] ++ [.caller, .runReturns, .caller, .caller], t, ?_,
      htpc, ?_⟩
  · rw [run_append hpost, hstop]
  · rw [hconn, hopen]

/-- The posted handler may run before the context is stopped. -/
theorem exists_run_closed
    (h : Connected c) :
    ∃ es t, run step c es = some t ∧ t.pc = .returned ∧
      t.connection.isOpen = false := by
  obtain ⟨c₁, hpost, hpc, hstopped, hreturned, _, hclosing⟩ :=
    exists_run_post h
  obtain ⟨c₂, hclose, hpc', hreturned', hclosed⟩ :
      ∃ c₂, step c₁ (.io .runClose) = some c₂ ∧ c₂.pc = .stop ∧
        c₂.runReturned = false ∧ c₂.connection.isOpen = false := by
    refine
      ⟨{ c₁ with
          connection :=
            ({ c₁.connection with
                closing := c₁.connection.closing - 1 }).close },
        ?_, hpc, hreturned, rfl⟩
    simp [step, Connection.step, Connection.ioStep, hstopped, hreturned,
      hclosing]
  obtain ⟨t, hstop, htpc, hconn⟩ := exists_run_stop hpc' hreturned'
  refine
    ⟨[.caller, .caller] ++
      .io .runClose :: [.caller, .runReturns, .caller, .caller], t, ?_, htpc,
      ?_⟩
  · rw [run_append hpost, run_cons_of_step hclose, hstop]
  · rw [hconn, hclosed]

/-- When `disconnect` returns, the socket is closed if and only if it was when
the context was stopped; it may be either for every connected client. -/
theorem closed_iff
    (h : Connected c) :
    (∀ es t, run step c es = some t → t.pc = .returned →
      (t.connection.isOpen = false ↔ Meets step ClosedBeforeStop c es)) ∧
    (∃ es t, run step c es = some t ∧ t.pc = .returned ∧
      t.connection.isOpen = true) ∧
    ∃ es t, run step c es = some t ∧ t.pc = .returned ∧
      t.connection.isOpen = false :=
  ⟨fun _ _ hrun hreturned =>
    closed_iff_of_beforeStop (Or.inl h.pc) hrun hreturned,
    exists_run_open h, exists_run_closed h⟩

/-- A client that has just been told to connect. -/
def justConnected : ClientInterface MessageType where
  connection := (Connection.make .client 0 false).connectToServer

/-- Its socket is closed if the posted handler runs in time. -/
theorem closed_iff_in_time :
    ∃ es t, run step justConnected es = some t ∧ t.pc = .returned ∧
      t.connection.isOpen = false :=
  (closed_iff (c := justConnected) ⟨rfl, rfl, rfl, rfl, rfl, rfl⟩).2.2

/-- It stays open if the context is stopped right after the post. -/
theorem closed_iff_fails_on_early_stop :
    ∃ es t, Connected justConnected ∧ run step justConnected es = some t ∧
      t.pc = .returned ∧ t.owned = false ∧ t.connection.isOpen = true :=
  ⟨[.caller, .caller, .caller, .runReturns, .caller, .caller], _,
    ⟨rfl, rfl, rfl, rfl, rfl, rfl⟩, rfl, rfl, rfl, rfl⟩

end Runs

end ClientInterface

end SpeciesSimulator
