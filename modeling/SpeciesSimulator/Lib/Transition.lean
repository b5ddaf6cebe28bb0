import Mathlib.Data.List.Basic

/-!
# Runs of deterministic labelled transition systems

A system is a partial step function: `step s e` is the state after event `e`,
or `none` when `e` is not enabled in `s`.  Several parties, threads or
callbacks are one such system whose events say which of them moves, so that a
list of events is one interleaving.

Main facts:
* `run_invariant`: a predicate that every step preserves holds after every run;
* `always_of_invariant`: it then holds in every state the run visits;
* `always_iff_of_run`: the runs that only visit good states, if leaving the
  condition makes the next state bad;
* `meets_of_always`: if leaving the condition at a step makes the next state
  bad, a run whose states are all good meets the condition at every step;
* `always_iff_forall`: if the condition is one on events, and breaking it makes the
  next state bad, the runs that only visit good states are those of events with
  the condition;
* `meets_congr_of_run`: conditions that agree where an invariant holds are met
  by the same runs; `Meets.of_invariant`: where one implies the other;
* `meets_or_of_run`: if leaving the condition makes all later states bad, a run
  that ends in a good state meets the condition;
* `exists_run_of_progress`, `exists_reachableBy_of_progress`: steps that come
  closer to a goal reach it;
* `ReachableBy.append`, `ReachableBy.invariant`: the states of the runs whose steps
  all meet a condition;
* `run_map`: a system whose steps are steps of another has its runs there;
* `exists_run_of_simulation`: so has one whose steps are runs of another.

Both directions take a condition `C` on steps, so that a result can be about
exactly the runs whose steps all meet `C`.
-/

namespace Transition

universe u v

section Runs

variable {σ : Type u} {ε : Type v}
variable (step : σ → ε → Option σ)

/-- The state after a list of events. -/
def run : σ → List ε → Option σ
  | s, [] => some s
  | s, e :: es =>
      match step s e with
      | some s' => run s' es
      | none => none

/-- Every step of the run meets `C` in the state it starts from. -/
def Meets (C : σ → ε → Prop) : σ → List ε → Prop
  | _, [] => True
  | s, e :: es =>
      C s e ∧
        match step s e with
        | some s' => Meets C s' es
        | none => True

/-- Every state the run visits satisfies `P`. -/
def Always (P : σ → Prop) : σ → List ε → Prop
  | s, [] => P s
  | s, e :: es =>
      P s ∧
        match step s e with
        | some s' => Always P s' es
        | none => True

/-- Every state that a step of the run leads to satisfies `P`. -/
def AfterEach (P : σ → Prop) : σ → List ε → Prop :=
  Meets step fun s e => ∀ s', step s e = some s' → P s'

/-- A state some run from `s₀` leads to. -/
def Reachable (s₀ s : σ) : Prop :=
  ∃ es, run step s₀ es = some s

variable {step}

@[simp] theorem run_nil (s : σ) :
    run step s [] = some s := by
  rfl

theorem run_cons_of_step
    {s s' : σ} {e : ε}
    (hstep : step s e = some s')
    (es : List ε) :
    run step s (e :: es) = run step s' es := by
  simp [run, hstep]

theorem run_singleton (s : σ) (e : ε) :
    run step s [e] = step s e := by
  simp only [run]
  cases step s e with
  | none => rfl
  | some s' => rfl

/-- Peel the first step from a run. -/
theorem run_cons_some
    {s t : σ} {e : ε} {es : List ε}
    (hrun : run step s (e :: es) = some t) :
    ∃ s', step s e = some s' ∧ run step s' es = some t := by
  simp only [run] at hrun
  cases hs : step s e with
  | none =>
      simp [hs] at hrun
  | some s' =>
      refine ⟨s', rfl, ?_⟩
      simpa [hs] using hrun

/-- Runs concatenate. -/
theorem run_append
    {s t : σ} {es₁ : List ε}
    (hrun : run step s es₁ = some t)
    (es₂ : List ε) :
    run step s (es₁ ++ es₂) = run step t es₂ := by
  induction es₁ generalizing s with
  | nil =>
      simp only [run_nil, Option.some.injEq] at hrun
      subst t
      rfl
  | cons e es ih =>
      obtain ⟨s', hstep, htail⟩ := run_cons_some hrun
      rw [List.cons_append, run_cons_of_step hstep]
      exact ih htail

theorem Meets.head
    {C : σ → ε → Prop} {s : σ} {e : ε} {es : List ε}
    (h : Meets step C s (e :: es)) :
    C s e := by
  exact h.1

theorem Meets.tail
    {C : σ → ε → Prop} {s s' : σ} {e : ε} {es : List ε}
    (h : Meets step C s (e :: es))
    (hstep : step s e = some s') :
    Meets step C s' es := by
  have h' := h.2
  simpa only [hstep] using h'

theorem Always.head
    {P : σ → Prop} {s : σ} {es : List ε}
    (h : Always step P s es) :
    P s := by
  cases es with
  | nil => exact h
  | cons e es => exact h.1

theorem Always.tail
    {P : σ → Prop} {s s' : σ} {e : ε} {es : List ε}
    (h : Always step P s (e :: es))
    (hstep : step s e = some s') :
    Always step P s' es := by
  have h' := h.2
  simpa only [hstep] using h'

theorem meets_cons
    {C : σ → ε → Prop} {s : σ} {e : ε} {es : List ε}
    (hC : C s e)
    (htail : ∀ s', step s e = some s' → Meets step C s' es) :
    Meets step C s (e :: es) := by
  refine ⟨hC, ?_⟩
  cases hstep : step s e with
  | none => trivial
  | some s' => exact htail s' hstep

theorem always_cons
    {P : σ → Prop} {s : σ} {e : ε} {es : List ε}
    (hP : P s)
    (htail : ∀ s', step s e = some s' → Always step P s' es) :
    Always step P s (e :: es) := by
  refine ⟨hP, ?_⟩
  cases hstep : step s e with
  | none => trivial
  | some s' => exact htail s' hstep

/-- A condition that an invariant of the run's own events implies. -/
theorem meets_of_invariant
    {C : σ → ε → Prop} {I : σ → Prop} {es : List ε}
    (hpres : ∀ s, ∀ e ∈ es, ∀ s', I s → step s e = some s' → I s')
    (h : ∀ s, ∀ e ∈ es, I s → C s e)
    {s : σ}
    (h₀ : I s) :
    Meets step C s es := by
  induction es generalizing s with
  | nil =>
      trivial
  | cons e es ih =>
      refine meets_cons (h s e (by simp) h₀) fun s' hstep => ?_
      refine ih ?_ ?_ (hpres s e (by simp) s' h₀ hstep)
      · exact fun s e he => hpres s e (List.mem_cons_of_mem _ he)
      · exact fun s e he => h s e (List.mem_cons_of_mem _ he)

/-- A condition on the events alone. -/
theorem meets_of_forall
    {C : σ → ε → Prop} {es : List ε}
    (h : ∀ s, ∀ e ∈ es, C s e)
    (s : σ) :
    Meets step C s es :=
  meets_of_invariant (I := fun _ => True) (fun _ _ _ _ _ _ => trivial)
    (fun s e he _ => h s e he) trivial

theorem Meets.mono
    {C D : σ → ε → Prop} {s : σ} {es : List ε}
    (h : Meets step C s es)
    (hCD : ∀ s e, C s e → D s e) :
    Meets step D s es := by
  induction es generalizing s with
  | nil =>
      trivial
  | cons e es ih =>
      exact meets_cons (hCD s e h.head) fun s' hstep => ih (h.tail hstep)

/-- A condition that another one implies, as long as an invariant holds that steps
within the other one preserve. -/
theorem Meets.of_invariant
    {C D : σ → ε → Prop} {I : σ → Prop}
    (hpres : ∀ s e s', I s → C s e → step s e = some s' → I s')
    (hCD : ∀ s e, I s → C s e → D s e)
    {s : σ} {es : List ε}
    (h₀ : I s)
    (h : Meets step C s es) :
    Meets step D s es := by
  induction es generalizing s with
  | nil =>
      trivial
  | cons e es ih =>
      refine meets_cons (hCD s e h₀ h.head) fun s' hstep => ?_
      exact ih (hpres s e s' h₀ h.head hstep) (h.tail hstep)

/-- Conditions on the two parts of a run. -/
theorem meets_append
    {C : σ → ε → Prop} {s t : σ} {es₁ es₂ : List ε}
    (h₁ : Meets step C s es₁)
    (hrun : run step s es₁ = some t)
    (h₂ : Meets step C t es₂) :
    Meets step C s (es₁ ++ es₂) := by
  induction es₁ generalizing s with
  | nil =>
      simp only [run_nil, Option.some.injEq] at hrun
      subst t
      exact h₂
  | cons e es ih =>
      obtain ⟨s', hstep, htail⟩ := run_cons_some hrun
      refine meets_cons h₁.head fun s₁ hstep₁ => ?_
      obtain rfl := Option.some.inj (hstep.symm.trans hstep₁)
      exact ih (h₁.tail hstep) htail

/-- A predicate that every step within `C` preserves holds after every run
whose steps all meet `C`. -/
theorem run_invariant
    {C : σ → ε → Prop} {I : σ → Prop}
    (hpres :
      ∀ s e s', I s → C s e → step s e = some s' → I s')
    {s t : σ} {es : List ε}
    (h₀ : I s)
    (hmeets : Meets step C s es)
    (hrun : run step s es = some t) :
    I t := by
  induction es generalizing s with
  | nil =>
      simp only [run_nil, Option.some.injEq] at hrun
      subst t
      exact h₀
  | cons e es ih =>
      obtain ⟨s', hstep, htail⟩ := run_cons_some hrun
      have hs' : I s' := hpres s e s' h₀ hmeets.head hstep
      exact ih hs' (hmeets.tail hstep) htail

/-- The unconditional form of `run_invariant`. -/
theorem reachable_invariant
    {I : σ → Prop}
    (hpres : ∀ s e s', I s → step s e = some s' → I s')
    {s t : σ}
    (h₀ : I s)
    (hreach : Reachable step s t) :
    I t := by
  obtain ⟨es, hrun⟩ := hreach
  induction es generalizing s with
  | nil =>
      simp only [run_nil, Option.some.injEq] at hrun
      subst t
      exact h₀
  | cons e es ih =>
      obtain ⟨s', hstep, htail⟩ := run_cons_some hrun
      exact ih (hpres s e s' h₀ hstep) htail

/-- An invariant of the steps within `C` holds in every state visited. -/
theorem always_of_invariant
    {C : σ → ε → Prop} {I P : σ → Prop}
    (hpres :
      ∀ s e s', I s → C s e → step s e = some s' → I s')
    (hgood : ∀ s, I s → P s)
    {s : σ} {es : List ε}
    (h₀ : I s)
    (hmeets : Meets step C s es) :
    Always step P s es := by
  induction es generalizing s with
  | nil =>
      exact hgood s h₀
  | cons e es ih =>
      refine ⟨hgood s h₀, ?_⟩
      cases hstep : step s e with
      | none => trivial
      | some s' =>
          have hs' : I s' := hpres s e s' h₀ hmeets.head hstep
          exact ih hs' (hmeets.tail hstep)

/-- The two parts of a run visit good states only. -/
theorem always_append
    {P : σ → Prop} {s t : σ} {es₁ es₂ : List ε}
    (h₁ : Always step P s es₁)
    (hrun : run step s es₁ = some t)
    (h₂ : Always step P t es₂) :
    Always step P s (es₁ ++ es₂) := by
  induction es₁ generalizing s with
  | nil =>
      simp only [run_nil, Option.some.injEq] at hrun
      subst t
      exact h₂
  | cons e es ih =>
      obtain ⟨s', hstep, htail⟩ := run_cons_some hrun
      refine always_cons h₁.head fun s₁ hstep₁ => ?_
      obtain rfl := Option.some.inj (hstep.symm.trans hstep₁)
      exact ih (h₁.tail hstep) htail

/-- The last state of a run is good, if all of them are. -/
theorem Always.of_run
    {P : σ → Prop} {s t : σ} {es : List ε}
    (h : Always step P s es)
    (hrun : run step s es = some t) :
    P t := by
  induction es generalizing s with
  | nil =>
      cases hrun
      exact h
  | cons e es ih =>
      obtain ⟨s', hstep, htail⟩ := run_cons_some hrun
      exact ih (h.tail hstep) htail

/-- A run visits good states only, if it starts in one and every step leads to
one. -/
theorem always_iff_meets
    {P : σ → Prop} {s : σ} {es : List ε} :
    Always step P s es ↔
      P s ∧
        Meets step (fun s e => ∀ s', step s e = some s' → P s') s es := by
  induction es generalizing s with
  | nil =>
      exact ⟨fun h => ⟨h, trivial⟩, fun h => h.1⟩
  | cons e es ih =>
      constructor
      · intro h
        refine ⟨h.head, ?_⟩
        refine meets_cons (fun s' hstep => (h.tail hstep).head) ?_
        exact fun s' hstep => (ih.mp (h.tail hstep)).2
      · rintro ⟨hP, hmeets⟩
        refine ⟨hP, ?_⟩
        cases hstep : step s e with
        | none => trivial
        | some s' =>
            exact ih.mpr ⟨hmeets.head s' hstep, hmeets.tail hstep⟩

theorem meets_and_iff
    {C D : σ → ε → Prop} {s : σ} {es : List ε} :
    Meets step (fun s e => C s e ∧ D s e) s es ↔
      Meets step C s es ∧ Meets step D s es := by
  induction es generalizing s with
  | nil =>
      exact ⟨fun _ => ⟨trivial, trivial⟩, fun _ => trivial⟩
  | cons e es ih =>
      constructor
      · intro h
        refine ⟨meets_cons h.head.1 ?_, meets_cons h.head.2 ?_⟩
        · exact fun s' hstep => (ih.mp (h.tail hstep)).1
        · exact fun s' hstep => (ih.mp (h.tail hstep)).2
      · rintro ⟨hC, hD⟩
        refine meets_cons ⟨hC.head, hD.head⟩ fun s' hstep => ?_
        exact ih.mpr ⟨hC.tail hstep, hD.tail hstep⟩

/-- Two conditions that agree on the steps from states with an invariant, which
the steps within either preserve. -/
theorem meets_congr_of_run
    {C D : σ → ε → Prop} {I : σ → Prop}
    (hpres :
      ∀ s e s', I s → D s e → step s e = some s' → I s')
    (hiff : ∀ s e s', I s → step s e = some s' → (C s e ↔ D s e))
    {s t : σ} {es : List ε}
    (h₀ : I s)
    (hrun : run step s es = some t) :
    Meets step C s es ↔ Meets step D s es := by
  induction es generalizing s with
  | nil =>
      exact Iff.rfl
  | cons e es ih =>
      obtain ⟨s', hstep, htail⟩ := run_cons_some hrun
      have hhead : C s e ↔ D s e := hiff s e s' h₀ hstep
      have hrest (hD : D s e) : Meets step C s' es ↔ Meets step D s' es :=
        ih (hpres s e s' h₀ hD hstep) htail
      constructor
      · intro h
        have hD := hhead.mp h.head
        refine meets_cons hD fun s₁ hstep₁ => ?_
        obtain rfl := Option.some.inj (hstep.symm.trans hstep₁)
        exact (hrest hD).mp (h.tail hstep)
      · intro h
        refine meets_cons (hhead.mpr h.head) fun s₁ hstep₁ => ?_
        obtain rfl := Option.some.inj (hstep.symm.trans hstep₁)
        exact (hrest h.head).mpr (h.tail hstep)

/-- Where steps within `C` keep an invariant that implies `P`, and steps outside
`C` lead to states without `P`, the runs that only visit states with `P` are
those that meet `C`. -/
theorem always_iff_of_run
    {C : σ → ε → Prop} {I P : σ → Prop}
    (hpres :
      ∀ s e s', I s → C s e → step s e = some s' → I s')
    (hgood : ∀ s, I s → P s)
    (hbad : ∀ s e s', I s → ¬ C s e → step s e = some s' → ¬ P s')
    {s t : σ} {es : List ε}
    (h₀ : I s)
    (hrun : run step s es = some t) :
    Always step P s es ↔ Meets step C s es := by
  have hnext :
      ∀ s e s', I s → step s e = some s' →
        ((∀ s', step s e = some s' → P s') ↔ C s e) := by
    intro s e s' h hstep
    constructor
    · intro hall
      by_contra hC
      exact hbad s e s' h hC hstep (hall s' hstep)
    · intro hC s'' hstep''
      exact hgood s'' (hpres s e s'' h hC hstep'')
  rw [always_iff_meets, meets_congr_of_run hpres hnext h₀ hrun]
  exact ⟨fun h => h.2, fun h => ⟨hgood s h₀, h⟩⟩

/-- If a step outside `C` is always taken into a state without `P`, then a run
that only visits states with `P` meets `C` throughout. -/
theorem meets_of_always
    {C : σ → ε → Prop} {I P : σ → Prop}
    (hpres :
      ∀ s e s', I s → C s e → step s e = some s' → I s')
    (hbad :
      ∀ s e, I s → ¬ C s e → ∃ s', step s e = some s' ∧ ¬ P s')
    {s : σ} {es : List ε}
    (h₀ : I s)
    (halways : Always step P s es) :
    Meets step C s es := by
  induction es generalizing s with
  | nil =>
      trivial
  | cons e es ih =>
      have hC : C s e := by
        by_contra hC
        obtain ⟨s', hstep, hP⟩ := hbad s e h₀ hC
        exact hP (halways.tail hstep).head
      refine meets_cons hC fun s' hstep => ?_
      have hs' : I s' := hpres s e s' h₀ hC hstep
      exact ih hs' (halways.tail hstep)

/-- Where events with `C` keep an invariant that implies `P`, and events without
`C` lead to states without `P`, a run only visits states with `P` if all of its
events have `C`, and only then. -/
theorem always_iff_forall
    {C : ε → Prop} {I P : σ → Prop}
    (hpres : ∀ s e, I s → C e → ∃ s', step s e = some s' ∧ I s')
    (hgood : ∀ s, I s → P s)
    (hbad : ∀ s e, I s → ¬ C e → ∃ s', step s e = some s' ∧ ¬ P s')
    {s : σ} {es : List ε}
    (h₀ : I s) :
    Always step P s es ↔ ∀ e ∈ es, C e := by
  induction es generalizing s with
  | nil =>
      exact iff_of_true (hgood s h₀) (by simp)
  | cons e es ih =>
      rw [List.forall_mem_cons]
      by_cases hC : C e
      · obtain ⟨s', hstep, hs'⟩ := hpres s e h₀ hC
        rw [← ih hs']
        constructor
        · exact fun h => ⟨hC, h.tail hstep⟩
        · rintro ⟨-, h⟩
          refine always_cons (hgood s h₀) fun s'' hstep' => ?_
          obtain rfl := Option.some.inj (hstep.symm.trans hstep')
          exact h
      · obtain ⟨s', hstep, hP⟩ := hbad s e h₀ hC
        exact iff_of_false (fun h => hP (h.tail hstep).head) fun h => hC h.1

/-- If leaving the condition at a step leads to states with `T` for good, a run
meets the condition or ends in such a state. -/
theorem meets_or_of_run
    {C : σ → ε → Prop} {I T : σ → Prop}
    (hpres : ∀ s e s', I s → step s e = some s' → I s')
    (hleave :
      ∀ s e s', I s → ¬ C s e → step s e = some s' → T s')
    (hkeep : ∀ s e s', T s → step s e = some s' → T s')
    {s t : σ} {es : List ε}
    (h₀ : I s)
    (hrun : run step s es = some t) :
    Meets step C s es ∨ T t := by
  induction es generalizing s with
  | nil =>
      exact Or.inl trivial
  | cons e es ih =>
      obtain ⟨s', hstep, htail⟩ := run_cons_some hrun
      by_cases hC : C s e
      · rcases ih (hpres s e s' h₀ hstep) htail with hmeets | ht
        · left
          refine meets_cons hC fun s₁ hstep₁ => ?_
          obtain rfl := Option.some.inj (hstep.symm.trans hstep₁)
          exact hmeets
        · exact Or.inr ht
      · right
        exact reachable_invariant hkeep (hleave s e s' h₀ hC hstep) ⟨es, htail⟩

/-- A state that some run whose steps all meet `C` leads to. -/
def ReachableBy
    (step : σ → ε → Option σ) (C : σ → ε → Prop) (s₀ s : σ) : Prop :=
  ∃ es, Meets step C s₀ es ∧ run step s₀ es = some s

theorem reachableBy_refl (C : σ → ε → Prop) (s : σ) :
    ReachableBy step C s s :=
  ⟨[], trivial, run_nil s⟩

theorem ReachableBy.mono
    {C D : σ → ε → Prop} {s₀ s : σ}
    (h : ReachableBy step C s₀ s)
    (hCD : ∀ s e, C s e → D s e) :
    ReachableBy step D s₀ s := by
  obtain ⟨es, hmeets, hrun⟩ := h
  exact ⟨es, hmeets.mono hCD, hrun⟩

theorem ReachableBy.append
    {C : σ → ε → Prop} {s₀ s t : σ} {es : List ε}
    (h : ReachableBy step C s₀ s)
    (hmeets : Meets step C s es)
    (hrun : run step s es = some t) :
    ReachableBy step C s₀ t := by
  obtain ⟨before, hbefore, hs⟩ := h
  exact ⟨before ++ es, meets_append hbefore hs hmeets,
    (run_append hs es).trans hrun⟩

theorem ReachableBy.snoc
    {C : σ → ε → Prop} {s₀ s t : σ} {e : ε}
    (h : ReachableBy step C s₀ s)
    (hC : C s e)
    (hstep : step s e = some t) :
    ReachableBy step C s₀ t := by
  have hmeets : Meets step C s [e] := meets_cons hC fun _ _ => trivial
  exact h.append hmeets (run_cons_of_step hstep [])

theorem ReachableBy.trans
    {C : σ → ε → Prop} {s₀ s t : σ}
    (h : ReachableBy step C s₀ s)
    (h' : ReachableBy step C s t) :
    ReachableBy step C s₀ t := by
  obtain ⟨es, hmeets, hrun⟩ := h'
  exact h.append hmeets hrun

theorem ReachableBy.invariant
    {C : σ → ε → Prop} {I : σ → Prop} {s₀ s : σ}
    (hpres : ∀ s e s', I s → C s e → step s e = some s' → I s')
    (h : ReachableBy step C s₀ s)
    (h₀ : I s₀) :
    I s := by
  obtain ⟨es, hmeets, hrun⟩ := h
  exact run_invariant hpres h₀ hmeets hrun

/-- If from every state with `I` some step within `C` comes closer to the goal,
some run within `C` reaches it. -/
theorem exists_reachableBy_of_progress
    {C : σ → ε → Prop} {I Goal : σ → Prop}
    (distance : σ → Nat)
    (hprogress :
      ∀ s, I s → ¬ Goal s →
        ∃ e s', step s e = some s' ∧ C s e ∧ I s' ∧
          distance s' < distance s)
    {s : σ}
    (h₀ : I s) :
    ∃ s', ReachableBy step C s s' ∧ I s' ∧ Goal s' := by
  induction hn : distance s using Nat.strongRecOn generalizing s with
  | ind n ih =>
      by_cases hgoal : Goal s
      · exact ⟨s, reachableBy_refl C s, h₀, hgoal⟩
      · obtain ⟨e, s', hstep, hC, hs', hlt⟩ := hprogress s h₀ hgoal
        obtain ⟨t, hreached, ht, htgoal⟩ :=
          ih (distance s') (hn ▸ hlt) hs' rfl
        have hfirst : ReachableBy step C s s' :=
          (reachableBy_refl C s).snoc hC hstep
        exact ⟨t, hfirst.trans hreached, ht, htgoal⟩

/-- If from every state with `I` some step comes closer to the goal, some run
reaches it. -/
theorem exists_run_of_progress
    {I Goal : σ → Prop}
    (distance : σ → Nat)
    (hprogress :
      ∀ s, I s → ¬ Goal s →
        ∃ e s', step s e = some s' ∧ I s' ∧ distance s' < distance s)
    {s : σ}
    (h₀ : I s) :
    ∃ es s', run step s es = some s' ∧ I s' ∧ Goal s' := by
  have hwithin :
      ∀ s, I s → ¬ Goal s →
        ∃ e s', step s e = some s' ∧ True ∧ I s' ∧ distance s' < distance s := by
    intro s hs hgoal
    obtain ⟨e, s', hstep, hs', hlt⟩ := hprogress s hs hgoal
    exact ⟨e, s', hstep, trivial, hs', hlt⟩
  obtain ⟨t, ⟨es, _, hrun⟩, ht, htgoal⟩ :=
    exists_reachableBy_of_progress (C := fun _ _ => True) distance hwithin h₀
  exact ⟨es, t, hrun, ht, htgoal⟩

end Runs

section Simulation

variable {σ τ : Type u} {ε δ : Type v}
variable {step : σ → ε → Option σ} {step' : τ → δ → Option τ}

/-- A system whose steps are steps of another has its runs there. -/
theorem run_map
    (f : σ → τ) (g : ε → δ)
    (hsim :
      ∀ s e s', step s e = some s' → step' (f s) (g e) = some (f s'))
    {s t : σ} {es : List ε}
    (hrun : run step s es = some t) :
    run step' (f s) (es.map g) = some (f t) := by
  induction es generalizing s with
  | nil =>
      simp only [run_nil, Option.some.injEq] at hrun
      subst t
      rfl
  | cons e es ih =>
      obtain ⟨s', hstep, htail⟩ := run_cons_some hrun
      rw [List.map_cons, run_cons_of_step (hsim s e s' hstep)]
      exact ih htail

/-- If every step of a system is a run of another one, which may be empty, then
so is every run; what the steps of these runs meet, the whole run meets. -/
theorem exists_run_of_simulation
    {C : σ → ε → Prop} {D : τ → δ → Prop} {R : σ → τ → Prop}
    (f : ε → List δ)
    (hsim :
      ∀ s e s' t, R s t → C s e → step s e = some s' →
        ∃ t', run step' t (f e) = some t' ∧ Meets step' D t (f e) ∧ R s' t')
    {s s' : σ} {t : τ} {es : List ε}
    (h₀ : R s t)
    (hmeets : Meets step C s es)
    (hrun : run step s es = some s') :
    ∃ t', run step' t (es.flatMap f) = some t' ∧
      Meets step' D t (es.flatMap f) ∧ R s' t' := by
  induction es generalizing s t with
  | nil =>
      simp only [run_nil, Option.some.injEq] at hrun
      subst s'
      exact ⟨t, rfl, trivial, h₀⟩
  | cons e es ih =>
      obtain ⟨s₁, hstep, htail⟩ := run_cons_some hrun
      obtain ⟨t₁, hfirst, hmeets₁, h₁⟩ := hsim s e s₁ t h₀ hmeets.head hstep
      obtain ⟨t', hrest, hmeets', h'⟩ := ih h₁ (hmeets.tail hstep) htail
      refine ⟨t', ?_, meets_append hmeets₁ hfirst hmeets', h'⟩
      rw [List.flatMap_cons, run_append hfirst, hrest]

end Simulation

end Transition
