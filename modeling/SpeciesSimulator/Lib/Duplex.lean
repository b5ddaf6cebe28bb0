import Mathlib.Data.List.Infix
import SpeciesSimulator.Lib.Transition

/-!
# Two parties joined by streams

A party is a transition system that keeps a log of what it has sent and a log
of what it has got; neither log forgets anything.  Two parties are joined by
two reliable streams: a step of either is possible as long as what it has got
afterwards is a beginning of what the other one has sent.  Nothing is lost or
reordered on the way, but it may take arbitrarily long.

Main facts:
* `run_left`, `run_right`: a run of the joined system is a run of each party,
  and `meets_left`, `meets_right` carry conditions on steps over;
* `run_joined`: after every run each party has got a beginning of what the
  other one has sent;
* `run_inl`, `run_inr`: a run of one party is a run of the joined system if
  what it gets has been sent; `reachableBy_inl`, `reachableBy_inr`: with
  conditions on the steps of both;
* `exists_run_of_party`: what one party does on behalf of another one, the joined
  system does.
-/

namespace Duplex

open Transition

universe u v w

/-- A system with logs of what went out and what came in. -/
structure Party (σ : Type u) (ε : Type v) (β : Type w) where
  step : σ → ε → Option σ
  sent : σ → List β
  got : σ → List β
  sent_grows : ∀ s e s', step s e = some s' → sent s <+: sent s'
  got_grows : ∀ s e s', step s e = some s' → got s <+: got s'

namespace Party

variable {σ : Type u} {ε : Type v} {β : Type w}
variable (A : Party σ ε β) {a a' : σ} {es : List ε}

/-- A log that no step shortens. -/
theorem run_grows
    {log : σ → List β}
    (hgrows : ∀ s e s', A.step s e = some s' → log s <+: log s')
    (hrun : run A.step a es = some a') :
    log a <+: log a' := by
  induction es generalizing a with
  | nil =>
      simp only [run_nil, Option.some.injEq] at hrun
      rw [hrun]
  | cons e es ih =>
      obtain ⟨a₁, hstep, htail⟩ := run_cons_some hrun
      exact (hgrows a e a₁ hstep).trans (ih htail)

theorem run_got
    (hrun : run A.step a es = some a') :
    A.got a <+: A.got a' :=
  A.run_grows A.got_grows hrun

end Party

section Joined

variable {σ τ : Type u} {ε δ : Type v} {β : Type w} [DecidableEq β]
variable (A : Party σ ε β) (B : Party τ δ β)

/-- A step of either party that gets nothing the other one has not sent. -/
def step (s : σ × τ) : ε ⊕ δ → Option (σ × τ)
  | .inl e =>
      match A.step s.1 e with
      | some a => if A.got a <+: B.sent s.2 then some (a, s.2) else none
      | none => none
  | .inr e =>
      match B.step s.2 e with
      | some b => if B.got b <+: A.sent s.1 then some (s.1, b) else none
      | none => none

/-- Each party has got a beginning of what the other one has sent. -/
structure Joined (s : σ × τ) : Prop where
  left : A.got s.1 <+: B.sent s.2
  right : B.got s.2 <+: A.sent s.1

/-- What a step of the joined system does. -/
inductive Step (s : σ × τ) : ε ⊕ δ → σ × τ → Prop
  | inl {e : ε} {a : σ}
      (hstep : A.step s.1 e = some a)
      (hgot : A.got a <+: B.sent s.2) :
      Step s (.inl e) (a, s.2)
  | inr {e : δ} {b : τ}
      (hstep : B.step s.2 e = some b)
      (hgot : B.got b <+: A.sent s.1) :
      Step s (.inr e) (s.1, b)

variable {A B} {s t : σ × τ} {es : List (ε ⊕ δ)}

theorem step_cases
    {e : ε ⊕ δ}
    (hstep : step A B s e = some t) :
    Step A B s e t := by
  cases e with
  | inl e =>
      simp only [step] at hstep
      split at hstep
      · next a ha =>
        split at hstep
        · next hgot =>
          cases hstep
          exact .inl ha hgot
        · cases hstep
      · cases hstep
  | inr e =>
      simp only [step] at hstep
      split at hstep
      · next b hb =>
        split at hstep
        · next hgot =>
          cases hstep
          exact .inr hb hgot
        · cases hstep
      · cases hstep

theorem step_inl
    {e : ε} {a : σ}
    (hstep : A.step s.1 e = some a)
    (hgot : A.got a <+: B.sent s.2) :
    step A B s (.inl e) = some (a, s.2) := by
  simp [step, hstep, hgot]

theorem step_inr
    {e : δ} {b : τ}
    (hstep : B.step s.2 e = some b)
    (hgot : B.got b <+: A.sent s.1) :
    step A B s (.inr e) = some (s.1, b) := by
  simp [step, hstep, hgot]

theorem step_joined
    (s : σ × τ) (e : ε ⊕ δ) (t : σ × τ)
    (h : Joined A B s)
    (hstep : step A B s e = some t) :
    Joined A B t := by
  cases step_cases hstep with
  | inl ha hgot => exact ⟨hgot, h.right.trans (A.sent_grows _ _ _ ha)⟩
  | inr hb hgot => exact ⟨h.left.trans (B.sent_grows _ _ _ hb), hgot⟩

/-- What is got after a run has been sent by then. -/
theorem run_joined
    (h : Joined A B s)
    (hrun : run (step A B) s es = some t) :
    Joined A B t :=
  reachable_invariant step_joined h ⟨es, hrun⟩

/-- The steps of one party in a run of both. -/
theorem run_left
    (hrun : run (step A B) s es = some t) :
    run A.step s.1 (es.filterMap Sum.getLeft?) = some t.1 := by
  induction es generalizing s with
  | nil =>
      simp only [run_nil, Option.some.injEq] at hrun
      simp [hrun]
  | cons e es ih =>
      obtain ⟨s₁, hstep, htail⟩ := run_cons_some hrun
      cases step_cases hstep with
      | @inl e a ha hgot =>
          show run A.step s.1 (e :: es.filterMap Sum.getLeft?) = _
          rw [run_cons_of_step ha]
          exact ih htail
      | @inr e b hb hgot => exact ih (s := (s.1, b)) htail

theorem run_right
    (hrun : run (step A B) s es = some t) :
    run B.step s.2 (es.filterMap Sum.getRight?) = some t.2 := by
  induction es generalizing s with
  | nil =>
      simp only [run_nil, Option.some.injEq] at hrun
      simp [hrun]
  | cons e es ih =>
      obtain ⟨s₁, hstep, htail⟩ := run_cons_some hrun
      cases step_cases hstep with
      | @inl e a ha hgot => exact ih (s := (a, s.2)) htail
      | @inr e b hb hgot =>
          show run B.step s.2 (e :: es.filterMap Sum.getRight?) = _
          rw [run_cons_of_step hb]
          exact ih htail

/-- A condition on the steps of the first party, in a run of both. -/
def OnLeft (C : σ → ε → Prop) (s : σ × τ) (e : ε ⊕ δ) : Prop :=
  ∀ e', e = .inl e' → C s.1 e'

/-- A condition on the steps of the second party, in a run of both. -/
def OnRight (C : τ → δ → Prop) (s : σ × τ) (e : ε ⊕ δ) : Prop :=
  ∀ e', e = .inr e' → C s.2 e'

theorem meets_left
    {C : σ → ε → Prop}
    (hmeets : Meets (step A B) (OnLeft C) s es)
    (hrun : run (step A B) s es = some t) :
    Meets A.step C s.1 (es.filterMap Sum.getLeft?) := by
  induction es generalizing s with
  | nil =>
      trivial
  | cons e es ih =>
      obtain ⟨s₁, hstep, htail⟩ := run_cons_some hrun
      have hrest := hmeets.tail hstep
      cases step_cases hstep with
      | @inl e a ha hgot =>
          show Meets A.step C s.1 (e :: es.filterMap Sum.getLeft?)
          refine meets_cons (hmeets.head e rfl) fun a' ha' => ?_
          obtain rfl := Option.some.inj (ha.symm.trans ha')
          exact ih hrest htail
      | @inr e b hb hgot => exact ih (s := (s.1, b)) hrest htail

theorem meets_right
    {C : τ → δ → Prop}
    (hmeets : Meets (step A B) (OnRight C) s es)
    (hrun : run (step A B) s es = some t) :
    Meets B.step C s.2 (es.filterMap Sum.getRight?) := by
  induction es generalizing s with
  | nil =>
      trivial
  | cons e es ih =>
      obtain ⟨s₁, hstep, htail⟩ := run_cons_some hrun
      have hrest := hmeets.tail hstep
      cases step_cases hstep with
      | @inl e a ha hgot => exact ih (s := (a, s.2)) hrest htail
      | @inr e b hb hgot =>
          show Meets B.step C s.2 (e :: es.filterMap Sum.getRight?)
          refine meets_cons (hmeets.head e rfl) fun b' hb' => ?_
          obtain rfl := Option.some.inj (hb.symm.trans hb')
          exact ih hrest htail

/-- Conditions on the steps of one party, in a run of this party alone. -/
theorem meets_inl
    {C : σ → ε → Prop} {a : σ} {b : τ} {es : List ε}
    (h : Meets A.step C a es) :
    Meets (step A B) (OnLeft C) (a, b) (es.map .inl) := by
  induction es generalizing a with
  | nil =>
      trivial
  | cons e es ih =>
      refine meets_cons ?_ fun s' hstep => ?_
      · rintro _ ⟨⟩
        exact h.head
      · cases step_cases hstep with
        | inl ha => exact ih (h.tail ha)

theorem meets_inr
    {C : τ → δ → Prop} {a : σ} {b : τ} {es : List δ}
    (h : Meets B.step C b es) :
    Meets (step A B) (OnRight C) (a, b) (es.map .inr) := by
  induction es generalizing b with
  | nil =>
      trivial
  | cons e es ih =>
      refine meets_cons ?_ fun s' hstep => ?_
      · rintro _ ⟨⟩
        exact h.head
      · cases step_cases hstep with
        | inr hb => exact ih (h.tail hb)

/-- The other party does nothing. -/
theorem meets_inl_right
    (C : τ → δ → Prop) (es : List ε) (s : σ × τ) :
    Meets (step A B) (OnRight C) s (es.map .inl) := by
  refine meets_of_forall ?_ s
  rintro s e he e' rfl
  simp at he

theorem meets_inr_left
    (C : σ → ε → Prop) (es : List δ) (s : σ × τ) :
    Meets (step A B) (OnLeft C) s (es.map .inr) := by
  refine meets_of_forall ?_ s
  rintro s e he e' rfl
  simp at he

/-- One party goes on alone with what has been sent to it. -/
theorem run_inl
    {a a' : σ} {b : τ} {es : List ε}
    (hrun : run A.step a es = some a')
    (hgot : A.got a' <+: B.sent b) :
    run (step A B) (a, b) (es.map .inl) = some (a', b) := by
  induction es generalizing a with
  | nil =>
      simp only [run_nil, Option.some.injEq] at hrun
      simp [hrun]
  | cons e es ih =>
      obtain ⟨a₁, hstep, htail⟩ := run_cons_some hrun
      have hgot₁ : A.got a₁ <+: B.sent b := (A.run_got htail).trans hgot
      rw [List.map_cons, run_cons_of_step (step_inl hstep hgot₁)]
      exact ih htail

theorem run_inr
    {a : σ} {b b' : τ} {es : List δ}
    (hrun : run B.step b es = some b')
    (hgot : B.got b' <+: A.sent a) :
    run (step A B) (a, b) (es.map .inr) = some (a, b') := by
  induction es generalizing b with
  | nil =>
      simp only [run_nil, Option.some.injEq] at hrun
      simp [hrun]
  | cons e es ih =>
      obtain ⟨b₁, hstep, htail⟩ := run_cons_some hrun
      have hgot₁ : B.got b₁ <+: A.sent a := (B.run_got htail).trans hgot
      rw [List.map_cons, run_cons_of_step (step_inr hstep hgot₁)]
      exact ih htail

variable {C : σ → ε → Prop} {D : τ → δ → Prop}

/-- Where one party gets alone, both get. -/
theorem reachableBy_inl
    {a a' : σ} {b : τ}
    (h : ReachableBy A.step C a a')
    (hgot : A.got a' <+: B.sent b) :
    ReachableBy (step A B) (fun s e => OnLeft C s e ∧ OnRight D s e) (a, b)
      (a', b) := by
  obtain ⟨es, hmeets, hrun⟩ := h
  exact ⟨es.map .inl,
    meets_and_iff.mpr ⟨meets_inl hmeets, meets_inl_right D es _⟩,
    run_inl hrun hgot⟩

theorem reachableBy_inr
    {a : σ} {b b' : τ}
    (h : ReachableBy B.step D b b')
    (hgot : B.got b' <+: A.sent a) :
    ReachableBy (step A B) (fun s e => OnLeft C s e ∧ OnRight D s e) (a, b)
      (a, b') := by
  obtain ⟨es, hmeets, hrun⟩ := h
  exact ⟨es.map .inr,
    meets_and_iff.mpr ⟨meets_inr_left C es _, meets_inr hmeets⟩,
    run_inr hrun hgot⟩

end Joined

section Simulation

variable {σ σ' τ : Type u} {ε ε' δ : Type v} {β : Type w} [DecidableEq β]
variable {A : Party σ ε β} {P : Party σ' ε' β} {B : Party τ δ β}
variable {C : σ → ε → Prop} {C' : σ' → ε' → Prop} {D : τ → δ → Prop}
  {R : σ → σ' → Prop}

/-- The events of the joined system, if the first party acts for another one. -/
def onBehalf (f : ε → List ε') : ε ⊕ δ → List (ε' ⊕ δ)
  | .inl e => (f e).map .inl
  | .inr e => [.inr e]

variable (f : ε → List ε')
  (hlogs : ∀ a a', R a a' → A.sent a = P.sent a' ∧ A.got a = P.got a')
  (hsim :
    ∀ a e a₁ a', R a a' → C a e → A.step a e = some a₁ →
      ∃ a₁', run P.step a' (f e) = some a₁' ∧ Meets P.step C' a' (f e) ∧
        R a₁ a₁')

include hlogs hsim

/-- A step of a party that acts for another one with the same logs. -/
theorem step_onBehalf
    (s : σ × τ) (e : ε ⊕ δ) (t : σ × τ) (s' : σ' × τ)
    (h : s'.2 = s.2 ∧ R s.1 s'.1)
    (hmeets : OnLeft C s e ∧ OnRight D s e)
    (hstep : step A B s e = some t) :
    ∃ t', run (step P B) s' (onBehalf f e) = some t' ∧
      Meets (step P B) (fun s e => OnLeft C' s e ∧ OnRight D s e) s'
        (onBehalf f e) ∧
      (t'.2 = t.2 ∧ R t.1 t'.1) := by
  obtain ⟨a', b⟩ := s'
  obtain ⟨rfl, hR⟩ := h
  obtain ⟨hleft, hright⟩ := hmeets
  cases step_cases hstep with
  | @inl e a₁ hfirst hgot =>
      obtain ⟨a₁', hrun, hmeets', hR'⟩ :=
        hsim s.1 e a₁ a' hR (hleft e rfl) hfirst
      rw [(hlogs a₁ a₁' hR').2] at hgot
      refine ⟨(a₁', s.2), run_inl hrun hgot, ?_, rfl, hR'⟩
      exact meets_and_iff.mpr ⟨meets_inl hmeets', meets_inl_right D _ _⟩
  | @inr e b₁ hsecond hgot =>
      rw [(hlogs s.1 a' hR).1] at hgot
      have hstep' : step P B (a', s.2) (.inr e) = some (a', b₁) :=
        step_inr hsecond hgot
      refine ⟨(a', b₁), (run_singleton _ _).trans hstep', ?_, rfl, hR⟩
      refine meets_cons ⟨fun e' he => (by cases he), ?_⟩ fun _ _ => trivial
      rintro _ ⟨⟩
      exact hright e rfl

/-- If the steps of the first party are runs of another one with the same logs, then
so are the runs of the joined system. -/
theorem exists_run_of_party
    {s t : σ × τ} {a' : σ'} {es : List (ε ⊕ δ)}
    (h₀ : R s.1 a')
    (hmeets :
      Meets (step A B) (fun s e => OnLeft C s e ∧ OnRight D s e) s es)
    (hrun : run (step A B) s es = some t) :
    ∃ a₁', run (step P B) (a', s.2) (es.flatMap (onBehalf f)) =
        some (a₁', t.2) ∧
      Meets (step P B) (fun s e => OnLeft C' s e ∧ OnRight D s e) (a', s.2)
        (es.flatMap (onBehalf f)) ∧
      R t.1 a₁' := by
  have h₀' : (a', s.2).2 = s.2 ∧ R s.1 (a', s.2).1 := ⟨rfl, h₀⟩
  obtain ⟨⟨a₁', b⟩, hrun', hmeets', rfl, hR⟩ :=
    exists_run_of_simulation (onBehalf f)
      (step_onBehalf (B := B) (D := D) f hlogs hsim) h₀' hmeets hrun
  exact ⟨a₁', hrun', hmeets', hR⟩

end Simulation

end Duplex
