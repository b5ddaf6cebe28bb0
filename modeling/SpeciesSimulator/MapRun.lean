import SpeciesSimulator.Lib.CondVar
import SpeciesSimulator.Lib.Transition
import SpeciesSimulator.Map

/-!
# The thread that keeps a map up to date

`TSVector` of `TSVector.h`, as far as `Map::run` waits on it.  `wait` installs
the condition variable it is given and sleeps on it without a condition; a
writer notifies whatever condition variable is installed when it writes.

`Refreshing` is the map thread, which calls `Map::run` with a frequency of one
over and over again, together with the writer that replaces the entities.

Main facts:
* `RefreshInv.step`: if no replacement lands on the way from `update_entities`
  back to `wait`, the thread only goes to sleep on entities it has shown;
* `fresh_iff`: such runs are exactly those in which it may go to sleep anywhere.
-/

namespace SpeciesSimulator

open Transition CondVar

/-- A condition variable that `cv_ptr` may point to. -/
inductive CvPtr where
  /-- The one the constructor made. -/
  | own
  /-- The one that `Map::run` waits on. -/
  | custom
deriving DecidableEq

/-- A vector, with the one thread that may wait on the condition variable it
brought along. -/
structure TSVector (α : Type) where
  vec : List α := []
  cvPtr : CvPtr := .own
  customCond : Waiter := .away

namespace TSVector

variable {α : Type}

/-- `cv_ptr->notify_one()`; nobody waits on the vector's own variable. -/
def notifyOne (v : TSVector α) : TSVector α :=
  match v.cvPtr with
  | .own => v
  | .custom => { v with customCond := v.customCond.notifyOne }

/-- `operator=`, whose `unsigned int` counter never gets to the end of a vector
that is too long. -/
def assign (v : TSVector α) (newVec : List α) : Option (TSVector α) :=
  if newVec.length < 2 ^ 32 then
    some { v with vec := newVec }.notifyOne
  else
    none

/-- `wait` up to where it sleeps. -/
def waitBegin (v : TSVector α) : TSVector α :=
  { v with cvPtr := .custom, customCond := .blocked }

/-- `wait` from where it has the lock again. -/
def waitEnd (v : TSVector α) (prevPtr : CvPtr) : TSVector α :=
  { v with cvPtr := prevPtr, customCond := .away }

theorem assign_eq_some
    {v v' : TSVector α} {newVec : List α} :
    v.assign newVec = some v' ↔
      newVec.length < 2 ^ 32 ∧ v' = { v with vec := newVec }.notifyOne := by
  unfold assign
  by_cases hlen : newVec.length < 2 ^ 32
  · rw [if_pos hlen, Option.some.injEq, eq_comm]
    exact ⟨fun h => ⟨hlen, h⟩, fun h => h.2⟩
  · rw [if_neg hlen]
    exact ⟨fun h => (Option.some_ne_none _ h.symm).elim, fun h => absurd h.1 hlen⟩

end TSVector

/-- Where the map thread stands. -/
inductive RunPoint where
  /-- Before the call of `wait`. -/
  | run
  /-- In `wait`. -/
  | wait
  /-- Before the call of `update_entities`. -/
  | update
deriving DecidableEq

structure Refreshing where
  map : Map
  buffer : TSConsoleBuffer
  entities : TSVector Entity
  point : RunPoint := .run
  prevPtr : CvPtr := .own
  fault : Option Fault := none
  /-- The entities that the last `update_entities` was called with. -/
  used : List Entity

/-- The writer replaces the entities, the sleeping thread wakes up for no reason,
or the map thread goes on. -/
inductive RefreshEvent where
  | replace (newEntities : List Entity)
  | spurious
  | next

namespace Refreshing

/-- The place of the vector the map shows. -/
def vecptr : VecPtr := 0

/-- The next step of the map thread. -/
def next (s : Refreshing) : Option Refreshing :=
  match s.point with
  | .run =>
      some
        { s with
          point := .wait
          prevPtr := s.entities.cvPtr
          entities := s.entities.waitBegin }
  | .wait =>
      if s.entities.customCond = .woken then
        some
          { s with
            point := .update
            entities := s.entities.waitEnd s.prevPtr }
      else none
  | .update =>
      match s.map.updateEntities vecptr s.entities.vec s.buffer with
      | .ok (map, buffer) =>
          some
            { s with
              point := .run
              map := map
              buffer := buffer
              used := s.entities.vec }
      | .error fault => some { s with fault := some fault }

/-- An exception that the map thread does not catch ends the process. -/
def step (s : Refreshing) (e : RefreshEvent) : Option Refreshing :=
  if s.fault.isSome then none
  else
    match e with
    | .replace newEntities => do
        let entities ← s.entities.assign newEntities
        some { s with entities := entities }
    | .spurious => do
        let waiter ← s.entities.customCond.wakeUp
        some { s with entities := { s.entities with customCond := waiter } }
    | .next => s.next

/-- The map has been updated once. -/
def start
    (map : Map) (entities : List Entity) (buffer : TSConsoleBuffer) :
    Except Fault Refreshing := do
  let (map, buffer) ← map.updateEntities vecptr entities buffer
  pure
    { map := map
      buffer := buffer
      entities := { vec := entities }
      used := entities }

/-- A map thread that sleeps has shown the entities there are. -/
def Fresh (s : Refreshing) : Prop :=
  s.entities.customCond = .blocked → s.used = s.entities.vec

/-- Nor does it go to sleep on others, if it moves next. -/
def StaysFresh (s : Refreshing) : Prop :=
  s.Fresh ∧ ∀ s', s.step .next = some s' → s'.Fresh

/-- A replacement on the way from `update_entities` back to `wait` replaces the
entities by themselves. -/
def NoReplaceBeforeWait (s : Refreshing) : RefreshEvent → Prop
  | .replace newEntities =>
      s.point = .run → newEntities.length < 2 ^ 32 →
        newEntities = s.entities.vec
  | .spurious => True
  | .next => True

section Steps

variable {s s' : Refreshing}

/-- Where the map thread stands says which condition variable is installed and
whether it has seen all entities. -/
def RefreshInv (s : Refreshing) : Prop :=
  match s.point with
  | .run =>
      s.fault = none ∧ s.entities.cvPtr = .own ∧
        s.entities.customCond = .away ∧ s.used = s.entities.vec
  | .wait =>
      s.fault = none ∧ s.entities.cvPtr = .custom ∧ s.prevPtr = .own ∧
        s.entities.customCond ≠ .away ∧ s.Fresh
  | .update =>
      s.entities.cvPtr = .own ∧ s.entities.customCond = .away

theorem RefreshInv.fresh
    (h : RefreshInv s) :
    s.Fresh := by
  intro hblocked
  cases hp : s.point with
  | run =>
      simp only [RefreshInv, hp] at h
      exact h.2.2.2
  | wait =>
      simp only [RefreshInv, hp] at h
      exact h.2.2.2.2 hblocked
  | update =>
      simp only [RefreshInv, hp] at h
      rw [h.2] at hblocked
      cases hblocked

/-- A replacement wakes the thread up if it is in `wait`; if it has yet to call
`wait`, nothing must have changed. -/
theorem RefreshInv.replace
    {newEntities : List Entity}
    (h : RefreshInv s)
    (hC : s.NoReplaceBeforeWait (.replace newEntities))
    (hstep : s.step (.replace newEntities) = some s') :
    RefreshInv s' := by
  simp only [step, Option.bind_eq_bind] at hstep
  split at hstep
  · cases hstep
  obtain ⟨entities, hassign, hs'⟩ := Option.bind_eq_some_iff.mp hstep
  obtain ⟨hlen, rfl⟩ := TSVector.assign_eq_some.mp hassign
  cases hs'
  cases hp : s.point with
  | run =>
      simp only [RefreshInv, hp] at h ⊢
      obtain ⟨hnone, hown, haway, hused⟩ := h
      have hsame : newEntities = s.entities.vec := hC hp hlen
      simp only [TSVector.notifyOne, hown]
      exact ⟨hnone, trivial, haway, hused.trans hsame.symm⟩
  | wait =>
      simp only [RefreshInv, hp] at h ⊢
      obtain ⟨hnone, hcustom, hprev, hwaits, -⟩ := h
      simp only [TSVector.notifyOne, hcustom]
      refine ⟨hnone, trivial, hprev, ?_, ?_⟩
      · rw [ne_eq, Waiter.notifyOne_eq_away]
        exact hwaits
      · intro hblocked
        exact absurd hblocked (Waiter.notifyOne_ne_blocked _)
  | update =>
      simp only [RefreshInv, hp] at h ⊢
      obtain ⟨hown, haway⟩ := h
      simp only [TSVector.notifyOne, hown]
      exact ⟨trivial, haway⟩

theorem RefreshInv.spurious
    (h : RefreshInv s)
    (hstep : s.step .spurious = some s') :
    RefreshInv s' := by
  simp only [step, Option.bind_eq_bind] at hstep
  split at hstep
  · cases hstep
  obtain ⟨waiter, hwake, hs'⟩ := Option.bind_eq_some_iff.mp hstep
  obtain ⟨hblocked, rfl⟩ := Waiter.wakeUp_eq_some.mp hwake
  cases hs'
  cases hp : s.point with
  | run =>
      simp only [RefreshInv, hp, hblocked] at h
      cases h.2.2.1
  | wait =>
      simp only [RefreshInv, hp] at h ⊢
      obtain ⟨hnone, hcustom, hprev, -, -⟩ := h
      refine ⟨hnone, hcustom, hprev, by simp, ?_⟩
      intro hwoken
      cases hwoken
  | update =>
      simp only [RefreshInv, hp, hblocked] at h
      cases h.2

/-- The thread goes to sleep on what it has shown, and comes back to `wait` with
what there is. -/
theorem RefreshInv.next
    (h : RefreshInv s)
    (hstep : s.step .next = some s') :
    RefreshInv s' := by
  simp only [step] at hstep
  split at hstep
  · cases hstep
  rename_i hfault
  cases hp : s.point with
  | run =>
      simp only [Refreshing.next, hp, Option.some.injEq] at hstep
      simp only [RefreshInv, hp] at h
      obtain ⟨hnone, hown, -, hused⟩ := h
      subst s'
      refine ⟨hnone, rfl, hown, ?_, ?_⟩
      · simp [TSVector.waitBegin]
      · intro _
        exact hused
  | wait =>
      simp only [Refreshing.next, hp] at hstep
      simp only [RefreshInv, hp] at h
      obtain ⟨-, -, hprev, -, -⟩ := h
      split at hstep
      · cases hstep
        exact ⟨hprev, rfl⟩
      · cases hstep
  | update =>
      simp only [Refreshing.next, hp] at hstep
      simp only [RefreshInv, hp] at h
      obtain ⟨hown, haway⟩ := h
      split at hstep
      · cases hstep
        refine ⟨by simpa using hfault, hown, haway, rfl⟩
      · cases hstep
        simp only [RefreshInv]
        exact ⟨hown, haway⟩

/-- Without replacements before `wait` the invariant is kept. -/
theorem RefreshInv.step
    {e : RefreshEvent}
    (h : RefreshInv s)
    (hC : s.NoReplaceBeforeWait e)
    (hstep : s.step e = some s') :
    RefreshInv s' := by
  cases e with
  | replace newEntities => exact h.replace hC hstep
  | spurious => exact h.spurious hstep
  | next => exact h.next hstep

/-- If the thread goes to sleep next, it has shown what there is. -/
theorem RefreshInv.staysFresh
    (h : RefreshInv s) :
    s.StaysFresh :=
  ⟨h.fresh, fun _ hstep => (h.next hstep).fresh⟩

/-- The thread goes to sleep, whatever has happened in the meantime. -/
theorem step_next_of_run
    (hfault : s.fault = none)
    (hp : s.point = .run) :
    s.step .next =
      some
        { s with
          point := .wait
          prevPtr := s.entities.cvPtr
          entities := s.entities.waitBegin } := by
  simp only [Refreshing.step, hfault, Option.isSome_none, Bool.false_eq_true,
    if_false, Refreshing.next, hp]

/-- Other entities that arrive before `wait` notify nobody, and the thread goes
to sleep on the old ones. -/
theorem exists_stale_of_replace
    {e : RefreshEvent}
    (h : RefreshInv s)
    (hC : ¬ s.NoReplaceBeforeWait e) :
    ∃ s', s.step e = some s' ∧ ¬ s'.StaysFresh := by
  cases e with
  | replace newEntities =>
      simp only [NoReplaceBeforeWait, Classical.not_imp] at hC
      obtain ⟨hp, hlen, hne⟩ := hC
      simp only [RefreshInv, hp] at h
      obtain ⟨hnone, hown, -, hused⟩ := h
      refine
        ⟨{ s with entities := { s.entities with vec := newEntities } }, ?_, ?_⟩
      · have hassign :=
          (TSVector.assign_eq_some (v := s.entities)).mpr ⟨hlen, rfl⟩
        simp only [Refreshing.step, hnone, Option.isSome_none, Bool.false_eq_true,
          if_false, Option.bind_eq_bind, hassign, Option.bind_some,
          TSVector.notifyOne, hown]
      · rintro ⟨-, hnext⟩
        have hsleeps := hnext _ (step_next_of_run hnone hp)
        have hstale := hsleeps rfl
        exact hne (hstale.symm.trans hused)
  | spurious => exact absurd trivial hC
  | next => exact absurd trivial hC

theorem refreshInv_of_start
    {map : Map} {entities : List Entity} {buffer : TSConsoleBuffer}
    (hstart : start map entities buffer = .ok s) :
    RefreshInv s := by
  obtain ⟨⟨map', buffer'⟩, _, hs⟩ := exists_of_bind_ok hstart
  cases hs
  exact ⟨rfl, rfl, rfl, rfl⟩

end Steps

/-- In a run in which no other entities arrive on the way from `update_entities`
back to `wait`, a map thread that sleeps has shown the entities there are.  In
any other run it may go to sleep on old ones. -/
theorem fresh_iff
    {map : Map} {entities : List Entity} {buffer : TSConsoleBuffer}
    {s₀ : Refreshing}
    (hstart : start map entities buffer = .ok s₀)
    (es : List RefreshEvent) :
    (Meets step NoReplaceBeforeWait s₀ es → Always step Fresh s₀ es) ∧
      (Always step StaysFresh s₀ es ↔ Meets step NoReplaceBeforeWait s₀ es) := by
  have h₀ : RefreshInv s₀ := refreshInv_of_start hstart
  have hpres :
      ∀ s e s', RefreshInv s → NoReplaceBeforeWait s e → step s e = some s' →
        RefreshInv s' :=
    fun _ _ _ h hC hstep => h.step hC hstep
  refine ⟨?_, ?_, ?_⟩
  · exact always_of_invariant hpres (fun _ h => h.fresh) h₀
  · exact meets_of_always hpres (fun _ _ h hC => exists_stale_of_replace h hC) h₀
  · exact always_of_invariant hpres (fun _ h => h.staysFresh) h₀

section Runs

/-- An entity that stands in the first cell. -/
def standing : Entity :=
  { id := 1, x := 0, y := 0, veloX := 0, veloY := 0,
    char := .player, type := .playerobject }

/-- A thread that is notified in `wait`, updates the map and goes to sleep. -/
theorem fresh_iff_woken_once :
    ∃ map buffer s₀,
      Map.makeWithBuffer ⟨{}⟩ { width := 1, height := 1 } (some vecptr) =
          .ok (map, buffer) ∧
        start map [] buffer = .ok s₀ ∧
        Always step Fresh s₀ [.next, .replace [standing], .next, .next, .next] := by
  obtain ⟨map, buffer, s₀, hmake, hstart⟩ :
      ∃ map buffer s₀,
        Map.makeWithBuffer ⟨{}⟩ { width := 1, height := 1 } (some vecptr) =
            .ok (map, buffer) ∧
          start map [] buffer = .ok s₀ :=
    ⟨_, _, _, rfl, rfl⟩
  refine ⟨map, buffer, s₀, hmake, hstart, (fresh_iff hstart _).1 ?_⟩
  obtain ⟨⟨map', buffer'⟩, _, hs⟩ := exists_of_bind_ok hstart
  cases hs
  refine meets_cons trivial fun s₁ h₁ => ?_
  cases h₁
  refine meets_cons (fun hp _ => by cases hp) fun s₂ _ => ?_
  refine meets_of_forall (fun s e he => ?_) s₂
  simp only [List.mem_cons, List.not_mem_nil, or_false, or_self] at he
  subst he
  trivial

/-- The writer is faster: the thread goes to sleep on the empty vector. -/
theorem fresh_iff_fails_before_wait :
    ∃ map buffer s₀,
      Map.makeWithBuffer ⟨{}⟩ { width := 1, height := 1 } (some vecptr) =
          .ok (map, buffer) ∧
        start map [] buffer = .ok s₀ ∧
        ¬ Always step Fresh s₀ [.replace [standing], .next] := by
  refine ⟨_, _, _, rfl, rfl, ?_⟩
  intro halways
  have hstale := (halways.tail rfl).tail rfl |>.head
  cases hstale rfl

end Runs

end Refreshing

end SpeciesSimulator
