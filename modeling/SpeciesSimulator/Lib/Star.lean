import Mathlib.Data.Fintype.Basic
import Mathlib.Logic.Function.Basic
import SpeciesSimulator.Lib.Duplex

/-!
# One party joined with several others

A hub keeps a log of what it has sent and a log of what it has got for each of its
spokes.  Every spoke is joined with the hub by two reliable streams of its own, as
in `Duplex`; the spokes do not know of each other.

Main facts:
* `exists_run_hub`: a run of the star is a run of the hub;
* `exists_run_project`: a run of the star is, for each of the spokes, a run of the
  hub joined with this spoke alone, with the conditions on the steps of both;
* `reachableBy_hub`: a run of the hub is a run of the star if what it gets has been
  sent.
-/

namespace Star

open Transition

universe u v w x

/-- A system with two logs for each of several others. -/
structure Hub (ι : Type x) (σ : Type u) (ε : Type v) (β : Type w) where
  step : σ → ε → Option σ
  sent : ι → σ → List β
  got : ι → σ → List β
  sent_grows : ∀ i s e s', step s e = some s' → sent i s <+: sent i s'
  got_grows : ∀ i s e s', step s e = some s' → got i s <+: got i s'

namespace Hub

variable {ι : Type x} {σ : Type u} {ε : Type v} {β : Type w}

/-- A hub, as one of its spokes sees it. -/
def party (H : Hub ι σ ε β) (i : ι) : Duplex.Party σ ε β where
  step := H.step
  sent := H.sent i
  got := H.got i
  sent_grows := H.sent_grows i
  got_grows := H.got_grows i

end Hub

section Joined

variable {ι : Type} [Fintype ι] [DecidableEq ι]
variable {σ τ : Type u} {ε δ : Type v} {β : Type w} [DecidableEq β]
variable (H : Hub ι σ ε β) (B : Duplex.Party τ δ β)

/-- A step of the hub or of a spoke that gets nothing that was not sent to it. -/
def step (s : σ × (ι → τ)) : ε ⊕ ι × δ → Option (σ × (ι → τ))
  | .inl e =>
      match H.step s.1 e with
      | some a =>
          if ∀ i, H.got i a <+: B.sent (s.2 i) then some (a, s.2) else none
      | none => none
  | .inr (i, e) =>
      match B.step (s.2 i) e with
      | some b =>
          if B.got b <+: H.sent i s.1 then
            some (s.1, Function.update s.2 i b)
          else none
      | none => none

/-- What a step of the star does. -/
inductive Step (s : σ × (ι → τ)) : ε ⊕ ι × δ → σ × (ι → τ) → Prop
  | inl {e : ε} {a : σ}
      (hstep : H.step s.1 e = some a)
      (hgot : ∀ i, H.got i a <+: B.sent (s.2 i)) :
      Step s (.inl e) (a, s.2)
  | inr {i : ι} {e : δ} {b : τ}
      (hstep : B.step (s.2 i) e = some b)
      (hgot : B.got b <+: H.sent i s.1) :
      Step s (.inr (i, e)) (s.1, Function.update s.2 i b)

variable {H B} {s t : σ × (ι → τ)} {es : List (ε ⊕ ι × δ)}

theorem step_cases
    {e : ε ⊕ ι × δ}
    (hstep : step H B s e = some t) :
    Step H B s e t := by
  cases e with
  | inl e =>
      simp only [step] at hstep
      split at hstep
      · next a ha =>
        split at hstep
        · next hgot =>
          cases hstep
          exact .inl ha hgot
        · cases hstep
      · cases hstep
  | inr e =>
      obtain ⟨i, e⟩ := e
      simp only [step] at hstep
      split at hstep
      · next b hb =>
        split at hstep
        · next hgot =>
          cases hstep
          exact .inr hb hgot
        · cases hstep
      · cases hstep

theorem step_inl
    {e : ε} {a : σ}
    (hstep : H.step s.1 e = some a)
    (hgot : ∀ i, H.got i a <+: B.sent (s.2 i)) :
    step H B s (.inl e) = some (a, s.2) := by
  simp only [step, hstep]
  exact if_pos hgot

theorem step_inr
    {i : ι} {e : δ} {b : τ}
    (hstep : B.step (s.2 i) e = some b)
    (hgot : B.got b <+: H.sent i s.1) :
    step H B s (.inr (i, e)) = some (s.1, Function.update s.2 i b) := by
  simp only [step, hstep]
  exact if_pos hgot

/-- A condition on the steps of the hub. -/
def OnHub (C : σ → ε → Prop) (s : σ × (ι → τ)) (e : ε ⊕ ι × δ) : Prop :=
  ∀ e', e = .inl e' → C s.1 e'

/-- A condition on the steps of each spoke. -/
def OnSpokes
    (D : ι → τ → δ → Prop) (s : σ × (ι → τ)) (e : ε ⊕ ι × δ) : Prop :=
  ∀ i e', e = .inr (i, e') → D i (s.2 i) e'

/-- The events that the hub and one spoke take part in. -/
def project (i : ι) : ε ⊕ ι × δ → List (ε ⊕ δ)
  | .inl e => [.inl e]
  | .inr (j, e) => if j = i then [.inr e] else []

variable {C : σ → ε → Prop} {D : ι → τ → δ → Prop}

/-- The other spokes do not concern the hub and this one. -/
theorem step_project
    (i : ι) (s : σ × (ι → τ)) (e : ε ⊕ ι × δ) (t : σ × (ι → τ)) (s' : σ × τ)
    (h : s' = (s.1, s.2 i))
    (hmeets : OnHub C s e ∧ OnSpokes D s e)
    (hstep : step H B s e = some t) :
    ∃ t', run (Duplex.step (H.party i) B) s' (project i e) = some t' ∧
      Meets (Duplex.step (H.party i) B)
        (fun s e => Duplex.OnLeft C s e ∧ Duplex.OnRight (D i) s e) s'
        (project i e) ∧
      t' = (t.1, t.2 i) := by
  subst h
  obtain ⟨hhub, hspokes⟩ := hmeets
  cases step_cases hstep with
  | @inl e a hfirst hgot =>
      have hstep' :
          Duplex.step (H.party i) B (s.1, s.2 i) (.inl e) = some (a, s.2 i) :=
        Duplex.step_inl hfirst (hgot i)
      refine ⟨_, (run_singleton _ _).trans hstep', ?_, rfl⟩
      refine meets_cons ⟨?_, fun e' he => (by cases he)⟩ fun _ _ => trivial
      rintro _ ⟨⟩
      exact hhub e rfl
  | @inr j e b hsecond hgot =>
      by_cases hji : j = i
      · subst hji
        have hproject : project j (.inr (j, e) : ε ⊕ ι × δ) = [.inr e] :=
          if_pos rfl
        have hstep' :
            Duplex.step (H.party j) B (s.1, s.2 j) (.inr e) = some (s.1, b) :=
          Duplex.step_inr hsecond hgot
        rw [hproject]
        refine ⟨(s.1, b), (run_singleton _ _).trans hstep', ?_, ?_⟩
        · refine meets_cons ⟨fun e' he => (by cases he), ?_⟩ fun _ _ => trivial
          rintro _ ⟨⟩
          exact hspokes j e rfl
        · simp only [Function.update_self]
      · have hproject : project i (.inr (j, e) : ε ⊕ ι × δ) = [] :=
          if_neg hji
        rw [hproject]
        refine ⟨_, rfl, trivial, ?_⟩
        simp only [Function.update_of_ne (Ne.symm hji)]

/-- A run of the star is a run of the hub joined with one of its spokes. -/
theorem exists_run_project
    (i : ι)
    (hmeets :
      Meets (step H B) (fun s e => OnHub C s e ∧ OnSpokes D s e) s es)
    (hrun : run (step H B) s es = some t) :
    run (Duplex.step (H.party i) B) (s.1, s.2 i) (es.flatMap (project i)) =
        some (t.1, t.2 i) ∧
      Meets (Duplex.step (H.party i) B)
        (fun s e => Duplex.OnLeft C s e ∧ Duplex.OnRight (D i) s e)
        (s.1, s.2 i) (es.flatMap (project i)) := by
  obtain ⟨t', hrun', hmeets', rfl⟩ :=
    exists_run_of_simulation (project i) (step_project i) rfl hmeets hrun
  exact ⟨hrun', hmeets'⟩

/-- The hub goes on alone with what has been sent to it. -/
theorem reachableBy_hub
    {a a' : σ} {b : ι → τ}
    (h : ReachableBy H.step C a a')
    (hgot : ∀ i, H.got i a' <+: B.sent (b i)) :
    ReachableBy (step H B) (fun s e => OnHub C s e ∧ OnSpokes D s e) (a, b)
      (a', b) := by
  obtain ⟨es, hmeets, hrun⟩ := h
  induction es generalizing a with
  | nil =>
      simp only [run_nil, Option.some.injEq] at hrun
      subst hrun
      exact reachableBy_refl _ _
  | cons e es ih =>
      obtain ⟨a₁, hfirst, htail⟩ := run_cons_some hrun
      have hgot₁ : ∀ i, H.got i a₁ <+: B.sent (b i) := fun i =>
        ((H.party i).run_got htail).trans (hgot i)
      have hstep : step H B (a, b) (.inl e) = some (a₁, b) :=
        step_inl hfirst hgot₁
      refine ReachableBy.trans ?_ (ih (hmeets.tail hfirst) htail)
      refine (reachableBy_refl _ _).snoc ⟨?_, fun i e' he => (by cases he)⟩ hstep
      rintro _ ⟨⟩
      exact hmeets.head

end Joined

end Star
