import Mathlib.Data.Finset.Card
import Mathlib.Data.Fintype.Defs
import SpeciesSimulator.Lib.Transition

/-!
# Threads that sleep on condition variables

Any number of threads and of condition variables.  A thread sleeps on one variable
at a time.  `notify_one` on a variable wakes one of the threads that sleep on it,
whichever it likes, and does nothing if there is none.  A thread may also wake up
for no reason.  A thread that was woken goes on when it has got its lock again.

Main facts:
* `asleep_of_notifyOne`, `asleep_notifyOne_of_ne`: who sleeps after a notification;
* `allOn_iff_reachable`: a notification on a variable finds a listener as long as
  anybody sleeps, whoever wakes up for no reason before it, if and only if all
  that sleep do so on this variable.
-/

namespace Sleepers

open Transition

universe u v

/-- What a thread is doing, as far as the condition variables know. -/
inductive Sleeper (C : Type v) where
  /-- It does not wait. -/
  | away
  /-- It sleeps on a variable. -/
  | asleep (c : C)
  /-- It was woken and wants its lock back. -/
  | woken
deriving DecidableEq

/-- The thread sleeps on some variable. -/
def Sleeper.IsAsleep {C : Type v} : Sleeper C → Prop
  | away => False
  | asleep _ => True
  | woken => False

instance {C : Type v} : DecidablePred (Sleeper.IsAsleep (C := C))
  | .away => instDecidableFalse
  | .asleep _ => instDecidableTrue
  | .woken => instDecidableFalse

@[simp] theorem Sleeper.not_isAsleep_away {C : Type v} :
    ¬ (away : Sleeper C).IsAsleep :=
  id

@[simp] theorem Sleeper.not_isAsleep_woken {C : Type v} :
    ¬ (woken : Sleeper C).IsAsleep :=
  id

theorem Sleeper.isAsleep_iff {C : Type v} {w : Sleeper C} :
    w.IsAsleep ↔ ∃ c, w = asleep c := by
  cases w with
  | away => simp [IsAsleep]
  | asleep c => simp [IsAsleep]
  | woken => simp [IsAsleep]

variable {T : Type u} {C : Type v}

/-- If anybody sleeps, somebody sleeps on this variable. -/
def Listened (s : T → Sleeper C) (c : C) : Prop :=
  (∃ t, (s t).IsAsleep) → ∃ t, s t = .asleep c

/-- Nobody sleeps on another variable. -/
def AllOn (s : T → Sleeper C) (c : C) : Prop :=
  ∀ t d, s t = .asleep d → d = c

theorem AllOn.listened
    {s : T → Sleeper C} {c : C}
    (h : AllOn s c) :
    Listened s c := by
  rintro ⟨t, ht⟩
  obtain ⟨d, hd⟩ := Sleeper.isAsleep_iff.mp ht
  rw [h t d hd] at hd
  exact ⟨t, hd⟩

section Operations

variable [DecidableEq T]

/-- Fall asleep on a variable. -/
def fallAsleep (s : T → Sleeper C) (t : T) (c : C) : T → Sleeper C :=
  Function.update s t (.asleep c)

/-- Wake up for no reason. -/
def wakeUp (s : T → Sleeper C) (t : T) : Option (T → Sleeper C) :=
  if (s t).IsAsleep then some (Function.update s t .woken) else none

/-- Go on with the lock, after having been woken. -/
def goOn (s : T → Sleeper C) (t : T) : Option (T → Sleeper C) :=
  match s t with
  | .away => none
  | .asleep _ => none
  | .woken => some (Function.update s t .away)

/-- `notify_one`, which wakes the given thread, or nobody if nobody sleeps on the
variable. -/
def notifyOne [Fintype T] [DecidableEq C]
    (s : T → Sleeper C) (c : C) : Option T → Option (T → Sleeper C)
  | some t =>
      if s t = .asleep c then some (Function.update s t .woken) else none
  | none => if ∃ t, s t = .asleep c then none else some s

variable {s s' : T → Sleeper C} {t t' : T} {c d : C}

theorem asleep_fallAsleep_iff :
    fallAsleep s t c t' = .asleep d ↔
      (t' = t ∧ c = d) ∨ (t' ≠ t ∧ s t' = .asleep d) := by
  unfold fallAsleep
  by_cases heq : t' = t
  · subst heq
    simp
  · simp [heq]

theorem wakeUp_eq_some :
    wakeUp s t = some s' ↔
      (s t).IsAsleep ∧ s' = Function.update s t .woken := by
  simp only [wakeUp, Option.ite_none_right_eq_some, Option.some.injEq]
  exact and_congr_right fun _ => eq_comm

theorem goOn_eq_some :
    goOn s t = some s' ↔ s t = .woken ∧ s' = Function.update s t .away := by
  unfold goOn
  cases hst : s t with
  | away => simp
  | asleep c => simp
  | woken => simp [eq_comm]

/-- A thread that sleeps after it or another one was changed. -/
theorem asleep_update_iff
    {w : Sleeper C}
    (hw : ¬ w.IsAsleep) :
    Function.update s t w t' = .asleep d ↔ t' ≠ t ∧ s t' = .asleep d := by
  by_cases heq : t' = t
  · subst heq
    rw [Function.update_self]
    constructor
    · intro hd
      exact absurd (Sleeper.isAsleep_iff.mpr ⟨d, hd⟩) hw
    · exact fun h => absurd rfl h.1
  · rw [Function.update_of_ne heq]
    exact ⟨fun h => ⟨heq, h⟩, fun h => h.2⟩

/-- Going on does not change who sleeps. -/
theorem asleep_goOn_iff
    (h : goOn s t = some s') :
    s' t' = .asleep d ↔ s t' = .asleep d := by
  obtain ⟨hwoken, rfl⟩ := goOn_eq_some.mp h
  rw [asleep_update_iff (by simp)]
  refine ⟨fun h => h.2, fun hasleep => ⟨?_, hasleep⟩⟩
  rintro rfl
  rw [hwoken] at hasleep
  cases hasleep

section Notification

variable [Fintype T] [DecidableEq C] {w : Option T}

/-- A notification puts nobody to sleep. -/
theorem asleep_of_notifyOne
    (h : notifyOne s c w = some s')
    (hasleep : s' t = .asleep d) :
    s t = .asleep d := by
  cases w with
  | none =>
      simp only [notifyOne, Option.ite_none_left_eq_some, Option.some.injEq] at h
      rw [h.2]
      exact hasleep
  | some t₀ =>
      simp only [notifyOne, Option.ite_none_right_eq_some,
        Option.some.injEq] at h
      rw [← h.2, asleep_update_iff (by simp)] at hasleep
      exact hasleep.2

/-- A notification does not reach a thread that sleeps on another variable. -/
theorem asleep_notifyOne_of_ne
    (h : notifyOne s c w = some s')
    (hasleep : s t = .asleep d)
    (hne : d ≠ c) :
    s' t = .asleep d := by
  cases w with
  | none =>
      simp only [notifyOne, Option.ite_none_left_eq_some, Option.some.injEq] at h
      rw [← h.2]
      exact hasleep
  | some t₀ =>
      simp only [notifyOne, Option.ite_none_right_eq_some,
        Option.some.injEq] at h
      rw [← h.2, asleep_update_iff (by simp)]
      refine ⟨?_, hasleep⟩
      rintro rfl
      rw [h.1] at hasleep
      cases hasleep
      exact hne rfl

end Notification

/-- Whoever wakes up, the others sleep on the same variables. -/
theorem AllOn.wakeUp
    (h : AllOn s c)
    (hstep : Sleepers.wakeUp s t = some s') :
    AllOn s' c := by
  obtain ⟨_, rfl⟩ := wakeUp_eq_some.mp hstep
  intro t' d hd
  rw [asleep_update_iff (by simp)] at hd
  exact h t' d hd.2

/-- All others may wake up before a thread that sleeps. -/
theorem exists_run_wakeUp
    [Fintype T]
    (h : s t = .asleep d) :
    ∃ s', Reachable wakeUp s s' ∧ s' t = .asleep d ∧
      ∀ t', t' ≠ t → ¬ (s' t').IsAsleep := by
  have hprogress :
      ∀ s : T → Sleeper C, s t = .asleep d →
        (¬ ∀ t', t' ≠ t → ¬ (s t').IsAsleep) →
          ∃ t' s', wakeUp s t' = some s' ∧ s' t = .asleep d ∧
            (Finset.univ.filter fun t' => (s' t').IsAsleep).card <
              (Finset.univ.filter fun t' => (s t').IsAsleep).card := by
    intro s hs hgoal
    push Not at hgoal
    obtain ⟨t', hne, ht'⟩ := hgoal
    refine
      ⟨t', Function.update s t' .woken, wakeUp_eq_some.mpr ⟨ht', rfl⟩, ?_, ?_⟩
    · rw [Function.update_of_ne hne.symm]
      exact hs
    · -- `t'` leaves the set of the sleeping threads, and nobody joins it
      refine Finset.card_lt_card ((Finset.ssubset_iff_of_subset ?_).mpr ?_)
      · intro t'' ht''
        simp only [Finset.mem_filter, Finset.mem_univ, true_and] at ht'' ⊢
        obtain ⟨e, he⟩ := Sleeper.isAsleep_iff.mp ht''
        rw [asleep_update_iff (by simp)] at he
        exact Sleeper.isAsleep_iff.mpr ⟨e, he.2⟩
      · exact ⟨t', by simpa using ht', by simp⟩
  obtain ⟨ts, s', hrun, hkept, hgoal⟩ :=
    exists_run_of_progress
      (fun s : T → Sleeper C =>
        (Finset.univ.filter fun t' => (s t').IsAsleep).card)
      hprogress h
  exact ⟨s', ⟨ts, hrun⟩, hkept, hgoal⟩

/-- Somebody listens to a variable, whoever wakes up for no reason, if and only if
nobody sleeps on another one. -/
theorem allOn_iff_reachable
    [Fintype T] :
    AllOn s c ↔ ∀ s', Reachable wakeUp s s' → Listened s' c := by
  constructor
  · intro h s' hreach
    have hon : AllOn s' c :=
      reachable_invariant (I := fun s => AllOn s c)
        (fun _ _ _ hs hstep => AllOn.wakeUp hs hstep) h hreach
    exact hon.listened
  · intro h t d hd
    obtain ⟨s', hreach, hkept, hothers⟩ := exists_run_wakeUp hd
    obtain ⟨t', ht'⟩ :=
      h s' hreach ⟨t, Sleeper.isAsleep_iff.mpr ⟨d, hkept⟩⟩
    have heq : t' = t := by
      by_contra hne
      exact hothers t' hne (Sleeper.isAsleep_iff.mpr ⟨c, ht'⟩)
    rw [heq, hkept] at ht'
    exact Sleeper.asleep.inj ht'

end Operations

end Sleepers
