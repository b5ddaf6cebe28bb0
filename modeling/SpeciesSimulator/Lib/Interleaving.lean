import Mathlib.Data.List.Pairwise
import SpeciesSimulator.Lib.Transition

/-!
# Interleaving of independent threads

Several threads work on a shared state, each through its own list of operations.
`Pool.step` lets one of them go on, so that a list of thread numbers is one
interleaving.

Main fact: `run_shared_eq`, if operations of different threads commute, then all
interleavings that finish the lists end in the state that the threads reach
one after the other.
-/

namespace Interleaving

open Transition

universe u v

/-- A shared state, and what each thread has still to do. -/
structure Pool (σ : Type u) (ω : Type v) where
  shared : σ
  rest : List (List ω)

variable {σ : Type u} {ω : Type v}
variable (op : σ → ω → Option σ)

/-- One thread does its next operation. -/
def Pool.step (p : Pool σ ω) (i : Nat) : Option (Pool σ ω) :=
  match p.rest[i]? with
  | some (a :: as) =>
      match op p.shared a with
      | some s => some ⟨s, p.rest.set i as⟩
      | none => none
  | _ => none

/-- Nothing is left to do. -/
def Pool.Done (p : Pool σ ω) : Prop :=
  ∀ as ∈ p.rest, as = []

/-- The order of two operations does not matter. -/
def Commute (a b : ω) : Prop :=
  ∀ s, run op s [a, b] = run op s [b, a]

/-- Operations of different threads commute. -/
def Independent (threads : List (List ω)) : Prop :=
  threads.Pairwise fun as bs => ∀ a ∈ as, ∀ b ∈ bs, Commute op a b

variable {op}

theorem run_append_eq_bind (s : σ) (as bs : List ω) :
    run op s (as ++ bs) = (run op s as).bind fun t => run op t bs := by
  induction as generalizing s with
  | nil => rfl
  | cons a as ih =>
      cases hstep : op s a with
      | none => simp [run, hstep]
      | some s' =>
          rw [List.cons_append, run_cons_of_step hstep, run_cons_of_step hstep,
            ih]

/-- An operation can be done before others that it commutes with. -/
theorem run_move_front
    {as bs : List ω} {b : ω}
    (h : ∀ a ∈ as, Commute op a b)
    (s : σ) :
    run op s (as ++ b :: bs) = run op s (b :: (as ++ bs)) := by
  induction as generalizing s with
  | nil => rfl
  | cons a as ih =>
      have htail := ih fun a' ha' => h a' (List.mem_cons_of_mem a ha')
      calc
        run op s (a :: (as ++ b :: bs)) =
            (run op s [a]).bind fun t => run op t (as ++ b :: bs) :=
          run_append_eq_bind s [a] _
        _ = (run op s [a]).bind fun t => run op t (b :: (as ++ bs)) := by
          simp only [htail]
        _ = run op s ([a] ++ b :: (as ++ bs)) :=
          (run_append_eq_bind s [a] _).symm
        _ = (run op s [a, b]).bind fun t => run op t (as ++ bs) :=
          run_append_eq_bind s [a, b] _
        _ = (run op s [b, a]).bind fun t => run op t (as ++ bs) := by
          rw [h a (by simp) s]
        _ = run op s (b :: a :: (as ++ bs)) :=
          (run_append_eq_bind s [b, a] _).symm

/-- What a step does. -/
theorem Pool.step_cases
    {p q : Pool σ ω} {i : Nat}
    (h : p.step op i = some q) :
    ∃ before a as after,
      p.rest = before ++ (a :: as) :: after ∧
        op p.shared a = some q.shared ∧ q.rest = before ++ as :: after := by
  unfold Pool.step at h
  split at h
  · next a as hrest =>
    split at h
    · next s hop =>
      cases h
      obtain ⟨hlt, hget⟩ := List.getElem?_eq_some_iff.mp hrest
      obtain ⟨before, after, hsplit, -, hset⟩ :=
        List.exists_of_set hlt
      rw [hget] at hsplit
      exact ⟨before, a, as, after, hsplit, hop, hset⟩
    · cases h
  · cases h

/-- The threads stay independent. -/
theorem Independent.of_cons
    {before after : List (List ω)} {a : ω} {as : List ω}
    (h : Independent op (before ++ (a :: as) :: after)) :
    Independent op (before ++ as :: after) ∧
      ∀ b ∈ before.flatten, Commute op b a := by
  unfold Independent at h ⊢
  rw [List.pairwise_append, List.pairwise_cons] at h ⊢
  obtain ⟨hbefore, ⟨hhead, hafter⟩, hcross⟩ := h
  refine ⟨⟨hbefore, ⟨?_, hafter⟩, ?_⟩, ?_⟩
  · exact fun bs hbs a' ha' => hhead bs hbs a' (List.mem_cons_of_mem a ha')
  · intro bs hbs cs hcs
    rcases List.mem_cons.mp hcs with rfl | hcs
    · exact fun b hb c hc =>
        hcross bs hbs _ (by simp) b hb c (List.mem_cons_of_mem a hc)
    · exact hcross bs hbs cs (List.mem_cons_of_mem _ hcs)
  · intro b hb
    obtain ⟨bs, hbs, hb⟩ := List.mem_flatten.mp hb
    exact hcross bs hbs (a :: as) (by simp) b hb a (by simp)

/-- An interleaving of independent threads that is complete ends in the state
that the threads reach one after the other. -/
theorem run_shared_eq
    {p q : Pool σ ω} {is : List Nat}
    (hindep : Independent op p.rest)
    (hrun : run (Pool.step op) p is = some q)
    (hdone : q.Done) :
    run op p.shared p.rest.flatten = some q.shared := by
  induction is generalizing p with
  | nil =>
      simp only [run_nil, Option.some.injEq] at hrun
      subst q
      rw [List.flatten_eq_nil_iff.mpr hdone]
      rfl
  | cons i is ih =>
      obtain ⟨p', hstep, htail⟩ := run_cons_some hrun
      obtain ⟨before, a, as, after, hrest, hop, hrest'⟩ :=
        Pool.step_cases hstep
      rw [hrest] at hindep
      obtain ⟨hindep', hcommute⟩ := hindep.of_cons
      have hlater := ih (by rw [hrest']; exact hindep') htail
      calc
        run op p.shared p.rest.flatten =
            run op p.shared
              (before.flatten ++ a :: (as ++ after.flatten)) := by
          rw [hrest]
          simp
        _ = run op p.shared
              (a :: (before.flatten ++ (as ++ after.flatten))) :=
          run_move_front hcommute p.shared
        _ = run op p'.shared p'.rest.flatten := by
          rw [run_cons_of_step hop, hrest']
          simp
        _ = some q.shared := hlater

end Interleaving
