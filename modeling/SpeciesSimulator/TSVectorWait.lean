import Mathlib.Data.Fintype.Basic
import SpeciesSimulator.Lib.Sleepers
import SpeciesSimulator.WinConsole

/-!
# Threads that wait on one vector

`TSVector` with all threads that use it.  Each function is one step, since it holds
the lock; `wait` is two, one up to where it sleeps and one from where it has the
lock again.  It installs the condition variable it was given, and puts back on its
way out what it had found on its way in.  The assignments from another `TSVector`
install the variable of the other one.  Every writer notifies the variable that is
installed when it writes.

Main facts:
* `stepped_of_step`: what one step does to the installed variable and to the
  threads that sleep;
* `uniform_iff_keepsCv`: all sleeping threads stay on the installed variable, if and
  only if no step replaces it under them;
* `run_listened_iff`: a notification then finds a listener in every state of a
  run, and otherwise some wake-ups for no reason lead to a state without one.
-/

namespace SpeciesSimulator

open Sleepers Transition

/-- The local variables of `wait`. -/
structure WaitCall (κ : Type) where
  prevPtr : κ
  changedCvPtr : Bool
deriving DecidableEq

/-- A vector and the threads that use it; `calls` has the locals of those that are
in `wait`. -/
structure WaitedVector (α κ : Type) (n : Nat) where
  vec : List α
  cvPtr : κ
  threads : Fin n → Sleeper κ
  calls : Fin n → WaitCall κ

/-- The functions of `TSVector` that wait or notify.  Those that notify come with
the thread that is woken. -/
inductive VectorCall (α κ : Type) (n : Nat) where
  | wait (customPtr : Option κ)
  | pushBack (item : α) (woken : Option (Fin n))
  | atMutable (pos : Nat) (woken : Option (Fin n))
  | assign (newVec : List α) (woken : Option (Fin n))
  | copyAssign (newVec : List α) (newCvPtr : κ) (woken : Option (Fin n))
  | moveAssign (newVec : List α) (newCvPtr : κ) (woken : Option (Fin n))

/-- A thread calls a function; in `wait`, it wakes up for no reason, or goes on. -/
inductive VectorEvent (α κ : Type) (n : Nat) where
  | call (i : Fin n) (c : VectorCall α κ n)
  | wakeUp (i : Fin n)
  | waitEnd (i : Fin n)

namespace WaitedVector

variable {α κ : Type} {n : Nat}

/-- A vector that nobody waits on. -/
def make (vec : List α) (cv : κ) : WaitedVector α κ n where
  vec := vec
  cvPtr := cv
  threads := fun _ => .away
  calls := fun _ => ⟨cv, false⟩

section Operations

variable [DecidableEq κ]

/-- `cv_ptr->notify_one()`. -/
def notifyOne (v : WaitedVector α κ n) (woken : Option (Fin n)) :
    Option (WaitedVector α κ n) :=
  match Sleepers.notifyOne v.threads v.cvPtr woken with
  | some threads => some { v with threads := threads }
  | none => none

def pushBack (v : WaitedVector α κ n) (item : α) (woken : Option (Fin n)) :
    Option (WaitedVector α κ n) :=
  { v with vec := v.vec ++ [item] }.notifyOne woken

/-- The notification comes before the access, which may throw. -/
def atMutable (v : WaitedVector α κ n) (pos : Nat) (woken : Option (Fin n)) :
    Option (WaitedVector α κ n × Except Fault α) :=
  match v.notifyOne woken with
  | some v' =>
      match v.vec[pos]? with
      | some obj => some (v', .ok obj)
      | none => some (v', .error .outOfRange)
  | none => none

/-- `operator=` from a `std::vector`, whose `unsigned int` counter never gets to
the end of a vector that is too long. -/
def assign (v : WaitedVector α κ n) (newVec : List α) (woken : Option (Fin n)) :
    Option (WaitedVector α κ n) :=
  if newVec.length < 2 ^ 32 then { v with vec := newVec }.notifyOne woken
  else none

/-- `operator=` from another `TSVector`. -/
def copyAssign
    (v : WaitedVector α κ n) (newVec : List α) (newCvPtr : κ)
    (woken : Option (Fin n)) :
    Option (WaitedVector α κ n) :=
  { v with vec := newVec, cvPtr := newCvPtr }.notifyOne woken

/-- `operator=` from a `TSVector&&`, which is `const` and therefore copied. -/
def moveAssign
    (v : WaitedVector α κ n) (newVec : List α) (newCvPtr : κ)
    (woken : Option (Fin n)) :
    Option (WaitedVector α κ n) :=
  v.copyAssign newVec newCvPtr woken

/-- `wait` up to where it sleeps. -/
def waitBegin (v : WaitedVector α κ n) (i : Fin n) (customPtr : Option κ) :
    WaitedVector α κ n :=
  match customPtr with
  | some cv =>
      { v with
        cvPtr := cv
        threads := fallAsleep v.threads i cv
        calls := Function.update v.calls i ⟨v.cvPtr, true⟩ }
  | none =>
      { v with
        threads := fallAsleep v.threads i v.cvPtr
        calls := Function.update v.calls i ⟨v.cvPtr, false⟩ }

/-- `wait` from where it has the lock again. -/
def waitEnd (v : WaitedVector α κ n) (i : Fin n) :
    Option (WaitedVector α κ n) :=
  match goOn v.threads i with
  | some threads =>
      some
        { v with
          threads := threads
          cvPtr :=
            if (v.calls i).changedCvPtr then (v.calls i).prevPtr else v.cvPtr }
  | none => none

/-- A function is called, or `wait` up to where it sleeps. -/
def perform (v : WaitedVector α κ n) (i : Fin n) :
    VectorCall α κ n → Option (WaitedVector α κ n)
  | .wait customPtr => some (v.waitBegin i customPtr)
  | .pushBack item woken => v.pushBack item woken
  | .atMutable pos woken =>
      match v.atMutable pos woken with
      | some (v', _) => some v'
      | none => none
  | .assign newVec woken => v.assign newVec woken
  | .copyAssign newVec newCvPtr woken => v.copyAssign newVec newCvPtr woken
  | .moveAssign newVec newCvPtr woken => v.moveAssign newVec newCvPtr woken

/-- A thread in `wait` cannot call anything else. -/
def step (v : WaitedVector α κ n) :
    VectorEvent α κ n → Option (WaitedVector α κ n)
  | .call i c => if v.threads i = .away then v.perform i c else none
  | .wakeUp i =>
      match Sleepers.wakeUp v.threads i with
      | some threads => some { v with threads := threads }
      | none => none
  | .waitEnd i => v.waitEnd i

end Operations

section Steps

/-- The condition variable that a step leaves installed. -/
def installed (v : WaitedVector α κ n) : VectorEvent α κ n → κ
  | .call _ (.wait customPtr) => customPtr.getD v.cvPtr
  | .call _ (.pushBack _ _) => v.cvPtr
  | .call _ (.atMutable _ _) => v.cvPtr
  | .call _ (.assign _ _) => v.cvPtr
  | .call _ (.copyAssign _ newCvPtr _) => newCvPtr
  | .call _ (.moveAssign _ newCvPtr _) => newCvPtr
  | .wakeUp _ => v.cvPtr
  | .waitEnd i =>
      if (v.calls i).changedCvPtr then (v.calls i).prevPtr else v.cvPtr

/-- The installed variable is not replaced under a thread that sleeps. -/
def KeepsCv (v : WaitedVector α κ n) (e : VectorEvent α κ n) : Prop :=
  (∃ i, (v.threads i).IsAsleep) → v.installed e = v.cvPtr

/-- All threads that sleep do so on the installed variable. -/
def Uniform (v : WaitedVector α κ n) : Prop :=
  AllOn v.threads v.cvPtr

/-- What a step does to the installed variable and to the threads that sleep. -/
structure Stepped
    (v : WaitedVector α κ n) (e : VectorEvent α κ n)
    (v' : WaitedVector α κ n) : Prop where
  cvPtr : v'.cvPtr = v.installed e
  /-- Whoever falls asleep does so on the installed variable. -/
  asleep : ∀ i cv, v'.threads i = .asleep cv →
    v.threads i = .asleep cv ∨ cv = v'.cvPtr
  /-- A step that replaces the variable wakes nobody who sleeps on another one. -/
  kept : v'.cvPtr ≠ v.cvPtr → ∀ i cv, v.threads i = .asleep cv →
    cv ≠ v'.cvPtr → v'.threads i = .asleep cv

variable {v v' : WaitedVector α κ n} {e : VectorEvent α κ n}

/-- Nobody sleeps yet. -/
theorem uniform_make (vec : List α) (cv : κ) :
    (make (n := n) vec cv).Uniform := by
  intro i cv' hi
  cases hi

/-- Both branches of `wait` sleep on the variable that is installed then. -/
theorem waitBegin_eq (v : WaitedVector α κ n) (i : Fin n) (customPtr : Option κ) :
    v.waitBegin i customPtr =
      { v with
        cvPtr := customPtr.getD v.cvPtr
        threads := fallAsleep v.threads i (customPtr.getD v.cvPtr)
        calls := Function.update v.calls i ⟨v.cvPtr, customPtr.isSome⟩ } := by
  cases customPtr with
  | none => rfl
  | some cv => rfl

theorem stepped_waitBegin
    {i : Fin n} {customPtr : Option κ}
    (haway : v.threads i = .away) :
    Stepped v (.call i (.wait customPtr)) (v.waitBegin i customPtr) := by
  rw [waitBegin_eq]
  refine ⟨rfl, fun j cv hj => ?_, fun _ j cv hj _ => ?_⟩
  · rcases asleep_fallAsleep_iff.mp hj with ⟨-, heq⟩ | ⟨-, hj⟩
    · exact Or.inr heq.symm
    · exact Or.inl hj
  · refine asleep_fallAsleep_iff.mpr (Or.inr ⟨?_, hj⟩)
    rintro rfl
    rw [haway] at hj
    cases hj

theorem stepped_waitEnd
    {i : Fin n}
    (h : v.waitEnd i = some v') :
    Stepped v (.waitEnd i) v' := by
  unfold waitEnd at h
  split at h
  · next threads hgo =>
    cases h
    exact ⟨rfl, fun j cv hj => Or.inl ((asleep_goOn_iff hgo).mp hj),
      fun _ j cv hj _ => (asleep_goOn_iff hgo).mpr hj⟩
  · cases h

variable [DecidableEq κ]

/-- What a notification does. -/
theorem notifyOne_spec
    {woken : Option (Fin n)}
    (h : v.notifyOne woken = some v') :
    v'.cvPtr = v.cvPtr ∧
      (∀ i cv, v'.threads i = .asleep cv → v.threads i = .asleep cv) ∧
      ∀ i cv, v.threads i = .asleep cv → cv ≠ v.cvPtr →
        v'.threads i = .asleep cv := by
  unfold notifyOne at h
  split at h
  · next threads hnotify =>
    cases h
    exact ⟨rfl, fun i cv => asleep_of_notifyOne hnotify,
      fun i cv => asleep_notifyOne_of_ne hnotify⟩
  · cases h

/-- A function that changes the vector and perhaps the variable, and notifies. -/
theorem stepped_of_notifyOne
    {vec : List α} {cv : κ} {woken : Option (Fin n)}
    (hinstalled : cv = v.installed e)
    (h : notifyOne { v with vec := vec, cvPtr := cv } woken = some v') :
    Stepped v e v' := by
  obtain ⟨hcv, hasleep, hkept⟩ := notifyOne_spec h
  refine ⟨hcv.trans hinstalled, ?_, ?_⟩
  · exact fun i cv' hi => Or.inl (hasleep i cv' hi)
  · intro _ i cv' hi hne
    rw [hcv] at hne
    exact hkept i cv' hi hne

theorem stepped_perform
    {i : Fin n} {c : VectorCall α κ n}
    (haway : v.threads i = .away)
    (h : v.perform i c = some v') :
    Stepped v (.call i c) v' := by
  cases c with
  | wait customPtr =>
      cases h
      exact stepped_waitBegin haway
  | pushBack item woken =>
      exact stepped_of_notifyOne rfl h
  | atMutable pos woken =>
      simp only [perform, atMutable] at h
      cases hnotify : v.notifyOne woken with
      | none =>
          simp only [hnotify] at h
          cases h
      | some v₁ =>
          simp only [hnotify] at h
          have heq : v₁ = v' := by
            cases hpos : v.vec[pos]? with
            | none => simpa only [hpos, Option.some.injEq] using h
            | some obj => simpa only [hpos, Option.some.injEq] using h
          rw [heq] at hnotify
          exact stepped_of_notifyOne rfl hnotify
  | assign newVec woken =>
      simp only [perform, assign, Option.ite_none_right_eq_some] at h
      exact stepped_of_notifyOne rfl h.2
  | copyAssign newVec newCvPtr woken =>
      exact stepped_of_notifyOne rfl h
  | moveAssign newVec newCvPtr woken =>
      exact stepped_of_notifyOne rfl h

/-- What one step does. -/
theorem stepped_of_step
    (h : v.step e = some v') :
    Stepped v e v' := by
  cases e with
  | call i c =>
      simp only [step, Option.ite_none_right_eq_some] at h
      exact stepped_perform h.1 h.2
  | wakeUp i =>
      simp only [step] at h
      cases hwake : Sleepers.wakeUp v.threads i with
      | none =>
          simp only [hwake] at h
          cases h
      | some threads =>
          simp only [hwake] at h
          cases h
          obtain ⟨-, rfl⟩ := wakeUp_eq_some.mp hwake
          refine ⟨rfl, fun j cv hj => ?_, fun hne => absurd rfl hne⟩
          rw [asleep_update_iff (by simp)] at hj
          exact Or.inl hj.2
  | waitEnd i =>
      exact stepped_waitEnd h

/-- All sleeping threads stay on the installed variable, if and only if it is not
replaced under them. -/
theorem uniform_iff_keepsCv
    (h : v.Uniform)
    (hstep : v.step e = some v') :
    v'.Uniform ↔ v.KeepsCv e := by
  obtain ⟨hcv, hasleep, hkept⟩ := stepped_of_step hstep
  constructor
  · rintro hon ⟨i, hi⟩
    obtain ⟨cv, hi⟩ := Sleeper.isAsleep_iff.mp hi
    have hold : cv = v.cvPtr := h i cv hi
    by_contra hne
    rw [← hcv] at hne
    have hother : cv ≠ v'.cvPtr := by
      rw [hold]
      exact Ne.symm hne
    exact hother (hon i cv (hkept hne i cv hi hother))
  · intro hkeeps i cv hi
    rcases hasleep i cv hi with hold | heq
    · rw [hcv, hkeeps ⟨i, Sleeper.isAsleep_iff.mpr ⟨cv, hold⟩⟩]
      exact h i cv hold
    · exact heq

end Steps

section Runs

variable [DecidableEq κ] {v v' : WaitedVector α κ n}

/-- If a thread sleeps in `wait`, one sleeps on the variable that the next writer
notifies. -/
def Listened (v : WaitedVector α κ n) : Prop :=
  Sleepers.Listened v.threads v.cvPtr

instance (v : WaitedVector α κ n) : Decidable v.Listened :=
  inferInstanceAs (Decidable (_ → _))

/-- So it is whoever wakes up for no reason. -/
def StaysListened (v : WaitedVector α κ n) : Prop :=
  ∀ (is : List (Fin n)) (v' : WaitedVector α κ n),
    run step v (is.map .wakeUp) = some v' → v'.Listened

/-- Somebody listens whoever wakes up for no reason, if and only if all threads that
sleep do so on the installed variable. -/
theorem staysListened_iff :
    v.StaysListened ↔ v.Uniform := by
  constructor
  · intro h
    refine allOn_iff_reachable.mpr ?_
    rintro threads ⟨is, hrun⟩
    refine h is { v with threads := threads } ?_
    refine
      run_map (fun threads => { v with threads := threads }) VectorEvent.wakeUp
        ?_ hrun
    intro threads i threads' hwake
    simp only [step, hwake]
  · intro h is v' hrun
    have hmeets : Meets step KeepsCv v (is.map .wakeUp) := by
      refine meets_of_forall (fun v e he => ?_) v
      obtain ⟨i, -, rfl⟩ := List.mem_map.mp he
      exact fun _ => rfl
    have huniform : v'.Uniform :=
      run_invariant
        (fun _ _ _ hv hkeeps hstep =>
          (uniform_iff_keepsCv hv hstep).mpr hkeeps)
        h hmeets hrun
    exact AllOn.listened huniform

/-- If no step replaces the installed variable under a thread that sleeps, a
notification finds a listener in every state of a run.  If one does, wake-ups for
no reason lead to a state in which none finds any. -/
theorem run_listened_iff
    (vec : List α) (cv : κ) (es : List (VectorEvent α κ n)) :
    (Meets step KeepsCv (make vec cv) es →
      Always step Listened (make vec cv) es) ∧
    ∀ v, run step (make vec cv) es = some v →
      (Always step StaysListened (make vec cv) es ↔
        Meets step KeepsCv (make vec cv) es) := by
  have hpres :
      ∀ (v : WaitedVector α κ n) e v', v.Uniform → v.KeepsCv e →
        v.step e = some v' → v'.Uniform :=
    fun _ _ _ h hkeeps hstep => (uniform_iff_keepsCv h hstep).mpr hkeeps
  constructor
  · intro hmeets
    refine always_of_invariant hpres ?_ (uniform_make vec cv) hmeets
    exact fun v h => AllOn.listened h
  · intro v hrun
    refine
      always_iff_of_run hpres (fun _ h => staysListened_iff.mpr h) ?_
        (uniform_make vec cv) hrun
    intro v e v' h hkeeps hstep hstays
    exact hkeeps ((uniform_iff_keepsCv h hstep).mp (staysListened_iff.mp hstays))

/-- A thread waits with its own variable; another one writes and wakes it. -/
theorem run_listened_iff_one_waiter :
    ∃ v,
      run step (make (n := 2) ([] : List Nat) 0)
          [.call 0 (.wait (some 1)), .call 1 (.pushBack 5 (some 0)),
            .waitEnd 0] = some v ∧
        v.cvPtr = 0 ∧
        Always step Listened (make (n := 2) ([] : List Nat) 0)
          [.call 0 (.wait (some 1)), .call 1 (.pushBack 5 (some 0)),
            .waitEnd 0] ∧
        Always step StaysListened (make (n := 2) ([] : List Nat) 0)
          [.call 0 (.wait (some 1)), .call 1 (.pushBack 5 (some 0)),
            .waitEnd 0] := by
  have hmeets :
      Meets step KeepsCv (make (n := 2) ([] : List Nat) 0)
        [.call 0 (.wait (some 1)), .call 1 (.pushBack 5 (some 0)),
          .waitEnd 0] := by
    refine ⟨?_, ?_, ?_, trivial⟩ <;> unfold KeepsCv <;> decide
  exact
    ⟨_, rfl, rfl, (run_listened_iff [] 0 _).1 hmeets,
      ((run_listened_iff [] 0 _).2 _ rfl).mpr hmeets⟩

/-- A vector is assigned under a thread that waits with the variable of the
constructor.  Two threads wait with one variable, and the first one that goes on
puts back the variable of the constructor under the other one. -/
theorem run_listened_iff_fails_replaced :
    (∃ v,
      run step (make (n := 2) ([] : List Nat) 0)
        [.call 0 (.wait none), .call 1 (.copyAssign [] 1 none)] = some v ∧
        ¬ v.Listened) ∧
    ∃ v,
      run step (make (n := 3) ([] : List Nat) 0)
        [.call 0 (.wait (some 1)), .call 1 (.wait (some 1)),
          .call 2 (.pushBack 5 (some 0)), .waitEnd 0] = some v ∧
        ¬ v.Listened :=
  ⟨⟨_, rfl, by decide⟩, ⟨_, rfl, by decide⟩⟩

end Runs

end WaitedVector

end SpeciesSimulator
