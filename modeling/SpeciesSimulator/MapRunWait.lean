import SpeciesSimulator.MapRun
import SpeciesSimulator.TSVectorWait

/-!
# The vector of the map thread

The vector of `Refreshing` is one that two threads use, the map thread and the
writer: every run of `Refreshing` is a run of a `WaitedVector`.  There is only one
thread that waits, so no step of such a run replaces the installed variable under
a thread that sleeps.

Main facts:
* `step_vector`: a step of `Refreshing` is at most one step of the vector;
* `run_vector`: a run of it is a run of the vector that never leaves the condition
  `KeepsCv`;
* `blocked_listened`: the next replacement reaches a map thread that sleeps.
-/

namespace SpeciesSimulator

open CondVar Sleepers Transition

namespace TSVector

section Notification

variable {α : Type} (v : TSVector α)

/-- A notification only changes what is known of the thread that waits. -/
theorem notifyOne_setVec (newVec : List α) :
    { v with vec := newVec }.notifyOne =
      { v with vec := newVec, customCond := v.notifyOne.customCond } := by
  unfold notifyOne
  cases v.cvPtr with
  | own => rfl
  | custom => rfl

/-- It puts nobody into `wait`, nor takes anybody out. -/
theorem notifyOne_customCond_eq_away :
    v.notifyOne.customCond = .away ↔ v.customCond = .away := by
  unfold notifyOne
  cases v.cvPtr with
  | own => exact Iff.rfl
  | custom => exact Waiter.notifyOne_eq_away

end Notification

end TSVector

namespace Refreshing

/-- What the map thread is doing, among the threads that use the vector. -/
def sleeper : Waiter → Sleeper CvPtr
  | .away => .away
  | .blocked => .asleep .custom
  | .woken => .woken

/-- The vector with the map thread, which is number 0, and the writer. -/
structure Uses (s : Refreshing) (v : WaitedVector Entity CvPtr 2) : Prop where
  vec : v.vec = s.entities.vec
  cvPtr : v.cvPtr = s.entities.cvPtr
  mapThread : v.threads 0 = sleeper s.entities.customCond
  writer : v.threads 1 = .away
  /-- The map thread sleeps in `wait` and nowhere else. -/
  waits : s.entities.customCond = .away ↔ s.point ≠ .wait
  call : s.point = .wait → v.calls 0 = ⟨s.prevPtr, true⟩

/-- The thread that a replacement wakes. -/
def wokenBy (s : Refreshing) : Option (Fin 2) :=
  match s.entities.cvPtr, s.entities.customCond with
  | .custom, .blocked => some 0
  | .custom, .away => none
  | .custom, .woken => none
  | .own, _ => none

/-- What a step does with the vector. -/
def vectorEvents (s : Refreshing) :
    RefreshEvent → List (VectorEvent Entity CvPtr 2)
  | .replace newEntities => [.call 1 (.assign newEntities s.wokenBy)]
  | .spurious => [.wakeUp 0]
  | .next =>
      match s.point with
      | .run => [.call 0 (.wait (some .custom))]
      | .wait => [.waitEnd 0]
      | .update => []

section Steps

variable {s s' : Refreshing} {v : WaitedVector Entity CvPtr 2}

theorem isAsleep_sleeper_iff {w : Waiter} :
    (sleeper w).IsAsleep ↔ w = .blocked := by
  cases w with
  | away => simp [sleeper]
  | blocked => simp [sleeper, Sleeper.IsAsleep]
  | woken => simp [sleeper]

/-- Only the map thread can sleep. -/
theorem Uses.exists_isAsleep_iff
    (h : Uses s v) :
    (∃ i, (v.threads i).IsAsleep) ↔ s.entities.customCond = .blocked := by
  rw [Fin.exists_fin_two, h.mapThread, h.writer, isAsleep_sleeper_iff]
  simp

/-- The map thread does something else. -/
theorem Uses.update
    (h : Uses s v)
    (w : Sleeper CvPtr) :
    Function.update v.threads 0 w 0 = w ∧
      Function.update v.threads 0 w 1 = .away := by
  constructor
  · exact Function.update_self _ _ _
  · rw [Function.update_of_ne (by decide)]
    exact h.writer

/-- Nobody is woken, if the map thread does not sleep on the installed variable. -/
theorem Uses.notifyNobody
    (h : Uses s v)
    (hnobody : v.threads 0 ≠ .asleep v.cvPtr) :
    Sleepers.notifyOne v.threads v.cvPtr none = some v.threads := by
  have hnone : ¬ ∃ i, v.threads i = .asleep v.cvPtr := by
    rw [Fin.exists_fin_two, h.writer]
    rintro (hzero | hone)
    · exact hnobody hzero
    · cases hone
  simp only [Sleepers.notifyOne, hnone, if_false]

/-- A notification wakes the map thread, if it sleeps on the installed variable. -/
theorem Uses.notifyOne
    (h : Uses s v) :
    ∃ threads, Sleepers.notifyOne v.threads v.cvPtr s.wokenBy = some threads ∧
      threads 0 = sleeper s.entities.notifyOne.customCond ∧
      threads 1 = .away := by
  have hthread := h.mapThread
  have hcv := h.cvPtr
  cases hptr : s.entities.cvPtr with
  | own =>
      refine ⟨v.threads, ?_, ?_, h.writer⟩
      · simp only [wokenBy, hptr]
        refine h.notifyNobody ?_
        rw [hthread, hcv, hptr]
        cases s.entities.customCond with
        | away => simp [sleeper]
        | blocked => simp [sleeper]
        | woken => simp [sleeper]
      · simp only [TSVector.notifyOne, hptr, hthread]
  | custom =>
      cases hcond : s.entities.customCond with
      | blocked =>
          rw [hcond] at hthread
          have hasleep : v.threads 0 = .asleep v.cvPtr := by
            rw [hthread, hcv, hptr]
            rfl
          obtain ⟨hzero, hone⟩ := h.update .woken
          refine ⟨Function.update v.threads 0 .woken, ?_, ?_, hone⟩
          · simp only [wokenBy, hptr, hcond, Sleepers.notifyOne, hasleep, if_true]
          · simp only [TSVector.notifyOne, hptr, hcond, hzero]
            rfl
      | away | woken =>
          rw [hcond] at hthread
          refine ⟨v.threads, ?_, ?_, h.writer⟩
          · simp only [wokenBy, hptr, hcond]
            refine h.notifyNobody ?_
            simp [hthread, sleeper]
          · simp only [TSVector.notifyOne, hptr, hcond, hthread]
            rfl

/-- A replacement is an assignment by the writer. -/
theorem Uses.replace
    {newEntities : List Entity}
    (h : Uses s v)
    (hstep : s.step (.replace newEntities) = some s') :
    ∃ v', v.step (.call 1 (.assign newEntities s.wokenBy)) = some v' ∧
      Uses s' v' := by
  simp only [step, Option.bind_eq_bind] at hstep
  split at hstep
  · cases hstep
  obtain ⟨entities, hassign, hs'⟩ := Option.bind_eq_some_iff.mp hstep
  obtain ⟨hlen, rfl⟩ := TSVector.assign_eq_some.mp hassign
  cases hs'
  obtain ⟨threads, hnotify, hmap, hwriter⟩ := h.notifyOne
  refine ⟨{ v with vec := newEntities, threads := threads }, ?_, ?_⟩
  · simp only [WaitedVector.step, h.writer, if_true, WaitedVector.perform,
      WaitedVector.assign, hlen, WaitedVector.notifyOne, hnotify]
  · rw [TSVector.notifyOne_setVec]
    exact
      { vec := rfl
        cvPtr := h.cvPtr
        mapThread := hmap
        writer := hwriter
        waits := (TSVector.notifyOne_customCond_eq_away _).trans h.waits
        call := h.call }

/-- The map thread wakes up for no reason. -/
theorem Uses.spurious
    (h : Uses s v)
    (hstep : s.step .spurious = some s') :
    ∃ v', v.step (.wakeUp 0) = some v' ∧ Uses s' v' := by
  simp only [step, Option.bind_eq_bind] at hstep
  split at hstep
  · cases hstep
  obtain ⟨waiter, hwake, hs'⟩ := Option.bind_eq_some_iff.mp hstep
  obtain ⟨hblocked, rfl⟩ := Waiter.wakeUp_eq_some.mp hwake
  cases hs'
  have hthread := h.mapThread
  rw [hblocked] at hthread
  have hasleep : (v.threads 0).IsAsleep := by
    rw [hthread]
    trivial
  refine
    ⟨{ v with threads := Function.update v.threads 0 .woken }, ?_, ?_⟩
  · simp only [WaitedVector.step, wakeUp_eq_some.mpr ⟨hasleep, rfl⟩]
  · have hwaits := h.waits
    rw [hblocked] at hwaits
    exact
      { vec := h.vec
        cvPtr := h.cvPtr
        mapThread := (h.update .woken).1
        writer := (h.update .woken).2
        waits := by simpa using hwaits
        call := h.call }

/-- The map thread goes on: into `wait`, out of it, or to its map. -/
theorem Uses.next
    (h : Uses s v)
    (hstep : s.step .next = some s') :
    ∃ v', run WaitedVector.step v (s.vectorEvents .next) = some v' ∧
      Uses s' v' := by
  simp only [step] at hstep
  split at hstep
  · cases hstep
  have hwaits := h.waits
  have hthread := h.mapThread
  cases hp : s.point with
  | run =>
      simp only [Refreshing.next, hp, Option.some.injEq] at hstep
      subst hstep
      have haway : v.threads 0 = .away := by
        rw [hthread, hwaits.mpr (by simp [hp])]
        rfl
      refine ⟨v.waitBegin 0 (some .custom), ?_, ?_⟩
      · simp only [vectorEvents, hp, run_singleton, WaitedVector.step, haway,
          if_true, WaitedVector.perform]
      · exact
          { vec := h.vec
            cvPtr := rfl
            mapThread := (h.update (.asleep .custom)).1
            writer := (h.update (.asleep .custom)).2
            waits := by simp [TSVector.waitBegin]
            call := fun _ => by
              simp only [WaitedVector.waitBegin, Function.update_self, h.cvPtr] }
  | wait =>
      simp only [Refreshing.next, hp] at hstep
      split at hstep
      · next hwoken =>
        cases hstep
        rw [hwoken] at hthread
        have hgo := goOn_eq_some.mpr ⟨hthread, rfl⟩
        refine
          ⟨{ v with
              threads := Function.update v.threads 0 .away
              cvPtr := s.prevPtr }, ?_, ?_⟩
        · simp only [vectorEvents, hp, run_singleton, WaitedVector.step,
            WaitedVector.waitEnd, hgo, h.call hp, if_true]
        · exact
            { vec := h.vec
              cvPtr := rfl
              mapThread := (h.update .away).1
              writer := (h.update .away).2
              waits := by simp [TSVector.waitEnd]
              call := fun hpoint => by cases hpoint }
      · cases hstep
  | update =>
      simp only [Refreshing.next, hp] at hstep
      simp only [vectorEvents, hp, run_nil]
      rw [hp] at hwaits
      split at hstep
      · cases hstep
        exact
          ⟨v, rfl,
            { vec := h.vec
              cvPtr := h.cvPtr
              mapThread := hthread
              writer := h.writer
              waits := by simpa using hwaits
              call := fun hpoint => by cases hpoint }⟩
      · cases hstep
        exact
          ⟨v, rfl,
            { vec := h.vec
              cvPtr := h.cvPtr
              mapThread := hthread
              writer := h.writer
              waits := by simpa using hwaits
              call := fun hpoint => by cases hpoint }⟩

/-- A step is at most one step of the vector. -/
theorem step_vector
    {e : RefreshEvent}
    (h : Uses s v)
    (hstep : s.step e = some s') :
    ∃ v', run WaitedVector.step v (s.vectorEvents e) = some v' ∧ Uses s' v' := by
  cases e with
  | replace newEntities =>
      simp only [vectorEvents, run_singleton]
      exact h.replace hstep
  | spurious =>
      simp only [vectorEvents, run_singleton]
      exact h.spurious hstep
  | next => exact h.next hstep

/-- There is no other thread under which the installed variable could be
replaced. -/
theorem Uses.keepsCv
    {e : RefreshEvent}
    (h : Uses s v)
    (hstep : s.step e = some s') :
    Meets WaitedVector.step WaitedVector.KeepsCv v (s.vectorEvents e) := by
  cases e with
  | replace newEntities =>
      exact meets_cons (fun _ => rfl) fun _ _ => trivial
  | spurious =>
      exact meets_cons (fun _ => rfl) fun _ _ => trivial
  | next =>
      have hwaits := h.waits
      cases hp : s.point with
      | run =>
          simp only [vectorEvents, hp]
          refine meets_cons (fun hasleep => ?_) fun _ _ => trivial
          have hblocked := h.exists_isAsleep_iff.mp hasleep
          have haway := hwaits.mpr (by simp [hp])
          rw [hblocked] at haway
          cases haway
      | wait =>
          simp only [vectorEvents, hp]
          refine meets_cons (fun hasleep => ?_) fun _ _ => trivial
          have hblocked := h.exists_isAsleep_iff.mp hasleep
          simp only [step] at hstep
          split at hstep
          · cases hstep
          · simp [Refreshing.next, hp, hblocked] at hstep
      | update =>
          simp only [vectorEvents, hp]
          trivial

end Steps

section Runs

variable {map : Map} {entities : List Entity} {buffer : TSConsoleBuffer}
  {s₀ s : Refreshing}

/-- The vector that the map thread and the writer start with. -/
theorem uses_start
    (hstart : start map entities buffer = .ok s₀) :
    Uses s₀ (WaitedVector.make entities .own) := by
  obtain ⟨⟨map', buffer'⟩, _, hs⟩ := exists_of_bind_ok hstart
  cases hs
  exact
    { vec := rfl
      cvPtr := rfl
      mapThread := rfl
      writer := rfl
      waits := by simp
      call := fun hpoint => by cases hpoint }

/-- A run is one of the vector, in which the installed variable is never replaced
under a thread that sleeps. -/
theorem run_vector
    {v : WaitedVector Entity CvPtr 2} {es : List RefreshEvent}
    (h : Uses s₀ v)
    (hrun : run step s₀ es = some s) :
    ∃ es' v', run WaitedVector.step v es' = some v' ∧
      Meets WaitedVector.step WaitedVector.KeepsCv v es' ∧ Uses s v' := by
  induction es generalizing s₀ v with
  | nil =>
      cases hrun
      exact ⟨[], v, rfl, trivial, h⟩
  | cons e es ih =>
      obtain ⟨s₁, hstep, htail⟩ := run_cons_some hrun
      obtain ⟨v₁, hfirst, huses⟩ := step_vector h hstep
      obtain ⟨es', v', hrest, hmeets, huses'⟩ := ih huses htail
      refine ⟨s₀.vectorEvents e ++ es', v', ?_, ?_, huses'⟩
      · rw [run_append hfirst, hrest]
      · exact meets_append (h.keepsCv hstep) hfirst hmeets

/-- Whenever the map thread sleeps, the variable it sleeps on is installed, so that
the next replacement wakes it. -/
theorem blocked_listened
    {es : List RefreshEvent}
    (hstart : start map entities buffer = .ok s₀)
    (hrun : run step s₀ es = some s)
    (hblocked : s.entities.customCond = .blocked) :
    s.entities.cvPtr = .custom := by
  obtain ⟨es', v, hrun', hmeets, huses⟩ := run_vector (uses_start hstart) hrun
  have huniform : v.Uniform :=
    run_invariant
      (fun _ _ _ h hkeeps hstep =>
        (WaitedVector.uniform_iff_keepsCv h hstep).mpr hkeeps)
      (WaitedVector.uniform_make entities .own) hmeets hrun'
  have hthread := huses.mapThread
  rw [hblocked] at hthread
  rw [← huses.cvPtr]
  exact (huniform 0 .custom hthread).symm

end Runs

end Refreshing

end SpeciesSimulator
