import Mathlib.Data.List.Pairwise
import Mathlib.Logic.Function.Basic
import Mathlib.Tactic.Common

/-!
# Moving values between points

A partial map from points to values is changed by a list of moves: each clears
the point its value leaves and writes the point it enters.  A later move may
clear a point that an earlier one has written.

Main facts:
* `applyAll_of_untouched`, `applyAll_of_left`: points that no move enters;
* `applyAll_eq_none_iff`, `applyAll_eq_some_iff`: which points are without a
  value in the end, and which values the others have;
* `present_iff`: every value is where it went, if and only if no move leaves
  from a point that an earlier one entered;
* `undisturbed_perm_iff`: this holds for every order of the moves, if and only
  if no move leaves from a point that another one enters.
-/

namespace PointMoves

universe u v

/-- A value that leaves one point and enters another. -/
structure Move (κ : Type u) (ν : Type v) where
  src : κ
  dst : κ
  val : ν

variable {κ : Type u} {ν : Type v}

/-- No move leaves from a point that an earlier one entered. -/
def Undisturbed (ms : List (Move κ ν)) : Prop :=
  ms.Pairwise fun earlier later => later.src ≠ earlier.dst

/-- Different moves enter different points. -/
def Separate (ms : List (Move κ ν)) : Prop :=
  ms.Pairwise fun earlier later => later.dst ≠ earlier.dst

/-- A move leaves the point, and neither it nor a later one enters it. -/
def Vacates : List (Move κ ν) → κ → Prop
  | [], _ => False
  | m :: ms, k => (m.src = k ∧ ∀ m' ∈ m :: ms, m'.dst ≠ k) ∨ Vacates ms k

/-- A move brings the value to the point, and no later one leaves it or enters
it. -/
def Brings : List (Move κ ν) → κ → ν → Prop
  | [], _, _ => False
  | m :: ms, k, v =>
      (m.dst = k ∧ m.val = v ∧ ∀ m' ∈ ms, m'.src ≠ k ∧ m'.dst ≠ k) ∨
        Brings ms k v

/-- Values that stay where they are vacate nothing. -/
theorem not_vacates_of_still
    {ms : List (Move κ ν)} {k : κ}
    (h : ∀ m ∈ ms, m.src = m.dst) :
    ¬ Vacates ms k := by
  induction ms with
  | nil =>
      exact id
  | cons m ms ih =>
      rintro (⟨hsrc, hdst⟩ | hlater)
      · exact hdst m (by simp) ((h m (by simp)).symm.trans hsrc)
      · exact ih (fun m' hm' => h m' (List.mem_cons_of_mem m hm')) hlater

theorem Brings.exists_move
    {ms : List (Move κ ν)} {k : κ} {v : ν}
    (h : Brings ms k v) :
    ∃ m ∈ ms, m.dst = k ∧ m.val = v := by
  induction ms with
  | nil =>
      exact h.elim
  | cons m ms ih =>
      rcases h with ⟨hdst, hval, _⟩ | hlater
      · exact ⟨m, by simp, hdst, hval⟩
      · obtain ⟨m', hm', hmove⟩ := ih hlater
        exact ⟨m', List.mem_cons_of_mem _ hm', hmove⟩

section Apply

variable [DecidableEq κ]

/-- Clear the source, then write the destination. -/
def Move.apply (m : Move κ ν) (g : κ → Option ν) : κ → Option ν :=
  Function.update (Function.update g m.src none) m.dst (some m.val)

/-- Apply a list of moves in order. -/
def applyAll (g : κ → Option ν) (ms : List (Move κ ν)) : κ → Option ν :=
  ms.foldl (fun g m => m.apply g) g

@[simp] theorem applyAll_nil (g : κ → Option ν) :
    applyAll g [] = g := by
  rfl

@[simp] theorem applyAll_cons
    (g : κ → Option ν) (m : Move κ ν) (ms : List (Move κ ν)) :
    applyAll g (m :: ms) = applyAll (m.apply g) ms := by
  rfl

@[simp] theorem apply_dst (m : Move κ ν) (g : κ → Option ν) :
    m.apply g m.dst = some m.val := by
  simp [Move.apply]

theorem apply_src
    (m : Move κ ν) (g : κ → Option ν)
    (h : m.src ≠ m.dst) :
    m.apply g m.src = none := by
  simp [Move.apply, Function.update_of_ne h]

theorem apply_of_ne
    (m : Move κ ν) (g : κ → Option ν) {k : κ}
    (hsrc : k ≠ m.src)
    (hdst : k ≠ m.dst) :
    m.apply g k = g k := by
  simp [Move.apply, Function.update_of_ne hdst, Function.update_of_ne hsrc]

/-- A point that no move leaves or enters keeps its value. -/
theorem applyAll_of_untouched
    {g : κ → Option ν} {ms : List (Move κ ν)} {k : κ}
    (h : ∀ m ∈ ms, k ≠ m.src ∧ k ≠ m.dst) :
    applyAll g ms k = g k := by
  induction ms generalizing g with
  | nil =>
      rfl
  | cons m ms ih =>
      have hm := h m (by simp)
      have hms : ∀ m' ∈ ms, k ≠ m'.src ∧ k ≠ m'.dst :=
        fun m' hm' => h m' (List.mem_cons_of_mem _ hm')
      rw [applyAll_cons, ih hms, apply_of_ne m g hm.1 hm.2]

/-- What a move does to a point that it leaves or enters does not depend on the
map. -/
theorem apply_of_touched
    (m : Move κ ν) (g g' : κ → Option ν) {k : κ}
    (h : k = m.src ∨ k = m.dst) :
    m.apply g k = m.apply g' k := by
  by_cases hdst : k = m.dst
  · rw [hdst, apply_dst, apply_dst]
  · obtain rfl := h.resolve_right hdst
    rw [apply_src m g hdst, apply_src m g' hdst]

/-- Neither does what a list of moves does to a point that one of them leaves or
enters. -/
theorem applyAll_of_touched
    {g g' : κ → Option ν} {ms : List (Move κ ν)} {k : κ}
    (h : ∃ m ∈ ms, k = m.src ∨ k = m.dst) :
    applyAll g ms k = applyAll g' ms k := by
  induction ms generalizing g g' with
  | nil =>
      obtain ⟨m, hm, _⟩ := h
      cases hm
  | cons m ms ih =>
      rw [applyAll_cons, applyAll_cons]
      by_cases hlater : ∃ m' ∈ ms, k = m'.src ∨ k = m'.dst
      · exact ih hlater
      · have huntouched : ∀ m' ∈ ms, k ≠ m'.src ∧ k ≠ m'.dst :=
          fun m' hm' =>
            ⟨fun hk => hlater ⟨m', hm', Or.inl hk⟩,
              fun hk => hlater ⟨m', hm', Or.inr hk⟩⟩
        rw [applyAll_of_untouched huntouched, applyAll_of_untouched huntouched]
        obtain ⟨m', hm', htouched⟩ := h
        rcases List.mem_cons.mp hm' with rfl | hm'
        · exact apply_of_touched m' g g' htouched
        · exact absurd ⟨m', hm', htouched⟩ hlater

/-- Applying the moves a second time changes nothing. -/
theorem applyAll_applyAll
    (g : κ → Option ν) (ms : List (Move κ ν)) :
    applyAll (applyAll g ms) ms = applyAll g ms := by
  funext k
  by_cases h : ∃ m ∈ ms, k = m.src ∨ k = m.dst
  · exact applyAll_of_touched h
  · exact applyAll_of_untouched fun m hm =>
      ⟨fun hk => h ⟨m, hm, Or.inl hk⟩, fun hk => h ⟨m, hm, Or.inr hk⟩⟩

/-- A point without a value that no move enters stays without one. -/
theorem applyAll_of_empty
    {g : κ → Option ν} {ms : List (Move κ ν)} {k : κ}
    (hg : g k = none)
    (h : ∀ m ∈ ms, k ≠ m.dst) :
    applyAll g ms k = none := by
  induction ms generalizing g with
  | nil =>
      exact hg
  | cons m ms ih =>
      have hms : ∀ m' ∈ ms, k ≠ m'.dst :=
        fun m' hm' => h m' (List.mem_cons_of_mem _ hm')
      rw [applyAll_cons]
      refine ih ?_ hms
      by_cases hsrc : k = m.src
      · subst hsrc
        exact apply_src m g (h m (by simp))
      · rw [apply_of_ne m g hsrc (h m (by simp)), hg]

/-- A point that a move leaves and none enters ends up without a value. -/
theorem applyAll_of_left
    {g : κ → Option ν} {ms : List (Move κ ν)} {m : Move κ ν}
    (hm : m ∈ ms)
    (h : ∀ m' ∈ ms, m.src ≠ m'.dst) :
    applyAll g ms m.src = none := by
  induction ms generalizing g with
  | nil =>
      cases hm
  | cons m' ms ih =>
      have hms : ∀ m'' ∈ ms, m.src ≠ m''.dst :=
        fun m'' hm'' => h m'' (List.mem_cons_of_mem _ hm'')
      rw [applyAll_cons]
      rcases List.mem_cons.mp hm with rfl | hm
      · exact applyAll_of_empty (apply_src m g (h m (by simp))) hms
      · exact ih hm hms

theorem apply_eq_none_iff
    (m : Move κ ν) (g : κ → Option ν) (k : κ) :
    m.apply g k = none ↔ m.dst ≠ k ∧ (m.src = k ∨ g k = none) := by
  by_cases hdst : m.dst = k
  · subst hdst
    simp
  · by_cases hsrc : m.src = k
    · subst hsrc
      simp [apply_src m g (Ne.symm hdst), hdst]
    · rw [apply_of_ne m g (Ne.symm hsrc) (Ne.symm hdst)]
      simp [hdst, hsrc]

/-- A point is without a value after the moves, if and only if it was vacated by
them, or had none before and none entered it. -/
theorem applyAll_eq_none_iff
    {g : κ → Option ν} {ms : List (Move κ ν)} {k : κ} :
    applyAll g ms k = none ↔
      Vacates ms k ∨ g k = none ∧ ∀ m ∈ ms, m.dst ≠ k := by
  induction ms generalizing g with
  | nil =>
      simp [Vacates]
  | cons m ms ih =>
      rw [applyAll_cons, ih, apply_eq_none_iff]
      simp only [Vacates, List.forall_mem_cons]
      tauto

theorem apply_eq_some_iff
    (m : Move κ ν) (g : κ → Option ν) (k : κ) (v : ν) :
    m.apply g k = some v ↔
      m.dst = k ∧ m.val = v ∨ g k = some v ∧ m.src ≠ k ∧ m.dst ≠ k := by
  by_cases hdst : m.dst = k
  · subst hdst
    simp
  · by_cases hsrc : m.src = k
    · subst hsrc
      simp [apply_src m g (Ne.symm hdst), hdst]
    · rw [apply_of_ne m g (Ne.symm hsrc) (Ne.symm hdst)]
      simp [hdst, hsrc]

/-- A point has a value after the moves, if and only if the last move that touched
it brought the value, or it had the value before and no move touched it. -/
theorem applyAll_eq_some_iff
    {g : κ → Option ν} {ms : List (Move κ ν)} {k : κ} {v : ν} :
    applyAll g ms k = some v ↔
      Brings ms k v ∨ g k = some v ∧ ∀ m ∈ ms, m.src ≠ k ∧ m.dst ≠ k := by
  induction ms generalizing g with
  | nil =>
      simp [Brings]
  | cons m ms ih =>
      rw [applyAll_cons, ih, apply_eq_some_iff]
      simp only [Brings, List.forall_mem_cons]
      tauto

/-- Every value that is left behind is one of the old ones or one that a move
brought. -/
theorem applyAll_mem
    {g : κ → Option ν} {ms : List (Move κ ν)} {k : κ} {v : ν}
    (h : applyAll g ms k = some v) :
    g k = some v ∨ ∃ m ∈ ms, m.dst = k ∧ m.val = v := by
  rcases applyAll_eq_some_iff.mp h with hbrought | ⟨hold, _⟩
  · exact Or.inr hbrought.exists_move
  · exact Or.inl hold

/-- Every value is where it went, if and only if no move leaves from a point
that an earlier one entered. -/
theorem present_iff
    (g : κ → Option ν) {ms : List (Move κ ν)}
    (hsep : Separate ms) :
    (∀ m ∈ ms, applyAll g ms m.dst = some m.val) ↔ Undisturbed ms := by
  induction ms generalizing g with
  | nil =>
      simp [Undisturbed]
  | cons m ms ih =>
      unfold Separate at hsep ih
      rw [List.pairwise_cons] at hsep
      obtain ⟨hhead, htail⟩ := hsep
      unfold Undisturbed at ih ⊢
      rw [List.pairwise_cons, ← ih (m.apply g) htail]
      simp only [applyAll_cons, List.forall_mem_cons]
      refine and_congr_left fun _ => ?_
      constructor
      · intro hpresent m' hm' hsrc
        have hgone : applyAll (m.apply g) ms m'.src = none := by
          refine applyAll_of_left hm' fun m'' hm'' => ?_
          rw [hsrc]
          exact (hhead m'' hm'').symm
        rw [hsrc, hpresent] at hgone
        cases hgone
      · intro hsrc
        rw [applyAll_of_untouched
          fun m' hm' => ⟨(hsrc m' hm').symm, (hhead m' hm').symm⟩]
        exact apply_dst m g

end Apply

section Orders

variable {α : Type*}

/-- Every order of the moves is undisturbed, if and only if no move leaves
from a point that another one enters. -/
theorem undisturbed_perm_iff (f : α → Move κ ν) (as : List α) :
    (∀ as', List.Perm as' as → Undisturbed (as'.map f)) ↔
      as.Pairwise fun a a' =>
        (f a').src ≠ (f a).dst ∧ (f a).src ≠ (f a').dst := by
  unfold Undisturbed
  simp only [List.pairwise_map]
  constructor
  · intro h
    have hback := h _ as.reverse_perm
    rw [List.pairwise_reverse] at hback
    exact (h as (List.Perm.refl as)).and hback
  · intro h as' hperm
    have hsymm := h.perm hperm.symm fun hne => ⟨hne.2, hne.1⟩
    exact hsymm.imp fun hne => hne.1

end Orders

end PointMoves
