import SpeciesSimulator.ServerServes

/-!
# Looking up the map of a validated client

`on_client_validated` looks up a map and an entity vector by the number of
approved connections.  There is an entity vector for it from the start; whether
there is a map depends on how far the environment's thread has come.

Main fact: `indexes_existing_iff`, every look-up of a run finds an element, if
and only if no handler looks up its map before the environment's thread has
made as many maps as there are approved connections.
-/

namespace SpeciesSimulator

open ByteLayout Transition

namespace Server

section Lookups

variable {s s' : Server}

/-- Every look-up by the number of connections has found an element. -/
def IndexesExisting (s : Server) : Prop :=
  ∀ a ∈ s.accesses, 1 ≤ a.connections ∧ a.connections - 1 < a.size

/-- A handler does not look up its map before the environment's thread has
made as many maps as there are approved connections. -/
def MapsReady (s : Server) (e : ServerEvent) : Prop :=
  s.crash = none → e = .handler .sendLayout →
    ∀ h, s.handler = some h → h.stage = .layout →
      s.deqConnections.length ≤ s.environment.rounds

/-- What a step of `on_client_validated` looks up. -/
theorem HandlerStep.accesses
    {h : Handler} {e : HandlerEvent}
    (hstep : HandlerStep s h e s') :
    ∃ as, s'.accesses = s.accesses ++ as ∧
      ∀ a ∈ as,
        a.connections = s.deqConnections.length ∧
          (a.size = s.environment.maps.length ∧
              (h.stage = .layout → e = .sendLayout) ∨
            a.size = s.incommingEntities.length) := by
  have hmaps (hstage : h.stage = .layout → e = .sendLayout) :
      ∀ a ∈ [(⟨s.deqConnections.length, s.environment.maps.length⟩ : Access)],
        a.connections = s.deqConnections.length ∧
          (a.size = s.environment.maps.length ∧
              (h.stage = .layout → e = .sendLayout) ∨
            a.size = s.incommingEntities.length) := by
    intro a ha
    obtain rfl := List.mem_singleton.mp ha
    exact ⟨rfl, Or.inl ⟨rfl, hstage⟩⟩
  have hvectors :
      ∀ a ∈ [(⟨s.deqConnections.length, s.incommingEntities.length⟩ : Access)],
        a.connections = s.deqConnections.length ∧
          (a.size = s.environment.maps.length ∧
              (h.stage = .layout → e = .sendLayout) ∨
            a.size = s.incommingEntities.length) := by
    intro a ha
    obtain rfl := List.mem_singleton.mp ha
    exact ⟨rfl, Or.inr rfl⟩
  cases hstep with
  | noMap hstage => exact ⟨_, rfl, hmaps hstage⟩
  | noVector => exact ⟨_, rfl, hvectors⟩
  | sendLayout => exact ⟨_, rfl, hmaps fun _ => rfl⟩
  | sendConfig hstage =>
      exact ⟨_, rfl, hmaps fun hlayout => by rw [hstage] at hlayout; cases hlayout⟩
  | noSize hstage =>
      exact ⟨_, rfl, hmaps fun hlayout => by rw [hstage] at hlayout; cases hlayout⟩
  | sendEntitiesSize hstage =>
      exact ⟨_, rfl, hmaps fun hlayout => by rw [hstage] at hlayout; cases hlayout⟩
  | getVector => exact ⟨_, rfl, hvectors⟩
  | getSize => exact ⟨_, rfl, hvectors⟩
  | noEntities => exact ⟨[], (List.append_nil _).symm, by simp⟩
  | sendEntities => exact ⟨[], (List.append_nil _).symm, by simp⟩

/-- Once a handler has found its map, there is one at its index. -/
structure LookupInv (s : Server) : Prop where
  serving : ServingInv s
  ready : ∀ h, s.handler = some h → h.stage ≠ .layout →
    s.deqConnections.length ≤ s.environment.rounds
  existing : IndexesExisting s

/-- A handler that is about to look up its map does that next. -/
theorem HandlerStep.of_layout
    {h : Handler} {e : HandlerEvent}
    (hstep : HandlerStep s h e s')
    (hh : s.handler = some h)
    (hstage : h.stage = .layout) :
    e = .sendLayout ∨ s'.handler = some h := by
  cases hstep with
  | noMap => exact Or.inr hh
  | noVector => exact Or.inr hh
  | sendLayout => exact Or.inl rfl
  | sendConfig hstage' => rw [hstage] at hstage'; cases hstage'
  | noSize => exact Or.inr hh
  | sendEntitiesSize hstage' => rw [hstage] at hstage'; cases hstage'
  | getVector hstage' => rw [hstage] at hstage'; cases hstage'
  | getSize hstage' => rw [hstage] at hstage'; cases hstage'
  | noEntities => exact Or.inr hh
  | sendEntities hstage' => rw [hstage] at hstage'; cases hstage'

theorem crash_of_step
    {e : ServerEvent}
    (hstep : s.step e = some s') :
    s.crash = none := by
  by_contra hcrash
  have hsome : s.crash.isSome = true := by
    simpa [Option.isSome_iff_ne_none] using hcrash
  simp [step, hsome] at hstep

/-- The maps are there for a handler that is at work. -/
theorem LookupInv.maps_ready
    {hd : Handler} {e : HandlerEvent}
    (h : LookupInv s)
    (hcrash : s.crash = none)
    (hready : MapsReady s (.handler e))
    (hh : s.handler = some hd)
    (hlayout : hd.stage = .layout → e = .sendLayout) :
    s.deqConnections.length ≤ s.environment.maps.length := by
  rw [h.serving.startup.maps_length]
  by_cases hstage : hd.stage = .layout
  · exact hready hcrash (by rw [hlayout hstage]) hd hh hstage
  · exact h.ready hd hh hstage

/-- Every look-up of a step of `on_client_validated` finds an element. -/
theorem handlerStep_lookupInv
    {hd : Handler} {e : HandlerEvent}
    (h : LookupInv s)
    (hserving : ServingInv s')
    (hcrash : s.crash = none)
    (hready : MapsReady s (.handler e))
    (hh : s.handler = some hd)
    (hstep : HandlerStep s hd e s') :
    LookupInv s' := by
  have hworld := hstep.sameWorld
  have hpos := h.serving.connections_pos hh
  refine ⟨hserving, ?_, ?_⟩
  · intro h' hh' hstage'
    rw [hworld.deqConnections, hworld.environment]
    by_cases hstage : hd.stage = .layout
    · rcases hstep.of_layout hh hstage with rfl | hsame
      · exact hready hcrash rfl hd hh hstage
      · rw [hsame] at hh'
        cases hh'
        exact absurd hstage hstage'
    · exact h.ready hd hh hstage
  · obtain ⟨as, haccesses, has⟩ := hstep.accesses
    intro a ha
    rw [haccesses] at ha
    rcases List.mem_append.mp ha with ha | ha
    · exact h.existing a ha
    · obtain ⟨hconn, ⟨hsize, hlayout⟩ | hsize⟩ := has a ha
      · have hmaps := h.maps_ready hcrash hready hh hlayout
        rw [hconn, hsize]
        omega
      · have hvectors := h.serving.startup.vectors_length
        have hroom := h.serving.room
        rw [hconn, hsize]
        omega

/-- Steps before which the maps are ready look up existing elements. -/
theorem step_lookupInv
    (s : Server) (e : ServerEvent) (s' : Server)
    (h : LookupInv s)
    (hready : MapsReady s e)
    (hstep : s.step e = some s') :
    LookupInv s' := by
  have hserving := step_servingInv s e s' h.serving hstep
  have hcrash := crash_of_step hstep
  cases step_cases hstep with
  | startServer => exact ⟨hserving, h.ready, h.existing⟩
  | startEnvironment hpc =>
      refine ⟨hserving, ?_, h.existing⟩
      intro hd hh hstage
      have hle := h.ready hd hh hstage
      simp only [Environment.rounds, hpc] at hle
      exact hle
  | environment henv =>
      refine ⟨hserving, ?_, h.existing⟩
      intro hd hh hstage
      exact (h.ready hd hh hstage).trans
        ((Environment.step_cases henv).rounds_le h.serving.startup)
  | fault => exact ⟨hserving, h.ready, h.existing⟩
  | approve hidle =>
      refine ⟨hserving, ?_, h.existing⟩
      intro hd hh _
      rw [hidle] at hh
      cases hh
  | refuse => exact ⟨hserving, h.ready, h.existing⟩
  | acceptFailed => exact h
  | @io c e conn conn' u hidle hconn hio =>
      cases u with
      | none => exact ⟨hserving, h.ready, h.existing⟩
      | incoming msg => exact ⟨hserving, h.ready, h.existing⟩
      | validated =>
          refine ⟨hserving, ?_, h.existing⟩
          intro hd hh hstage
          cases hh
          exact absurd rfl hstage
  | handler hh hhandler =>
      exact handlerStep_lookupInv h hserving hcrash hready hh hhandler
  | update => exact ⟨hserving, h.ready, h.existing⟩

/-- A look-up that comes too early finds nothing. -/
theorem not_existing_of_not_ready
    (s : Server) (e : ServerEvent)
    (h : LookupInv s)
    (hready : ¬ MapsReady s e) :
    ∃ s', s.step e = some s' ∧ ¬ IndexesExisting s' := by
  unfold MapsReady at hready
  push Not at hready
  obtain ⟨hcrash, rfl, hd, hh, hstage, hlate⟩ := hready
  have hpos := h.serving.connections_pos hh
  have hslot := h.serving.slot_succ hh
  have hlength := h.serving.startup.maps_length
  have hnone : s.environment.maps[s.slot]? = none := by
    rw [List.getElem?_eq_none_iff]
    omega
  refine
    ⟨(s.noteAccess s.environment.maps.length).fail .outOfRange, ?_, ?_⟩
  · simp only [step, hcrash, hh, handlerStep, hstage, sendLayout, withMap]
    have hnone' :
        (s.noteAccess s.environment.maps.length).environment.maps[
          (s.noteAccess s.environment.maps.length).slot]? = none := hnone
    rw [hnone']
    rfl
  · intro hexisting
    have hlast :
        (⟨s.deqConnections.length, s.environment.maps.length⟩ : Access) ∈
          s.accesses ++
            [⟨s.deqConnections.length, s.environment.maps.length⟩] := by
      simp
    obtain ⟨_, hlt⟩ := hexisting _ hlast
    simp only at hlt
    omega

/-- In a run of a new server, every look-up of `on_client_validated` finds an
element of its container and never uses an index below zero, if and only if no
handler looks up its map before the environment's thread has made as many maps
as there are approved connections. -/
theorem indexes_existing_iff
    {nmapSize : UInt64} {s₀ : Server}
    (hmake : make nmapSize = .ok s₀)
    (es : List ServerEvent) :
    Always step IndexesExisting s₀ es ↔ Meets step MapsReady s₀ es := by
  have h₀ : LookupInv s₀ := by
    have hserving := servingInv_of_make hmake
    obtain ⟨environment, _, rfl⟩ := exists_of_make hmake
    refine ⟨hserving, ?_, ?_⟩
    · exact fun _ hh => by cases hh
    · exact fun _ ha => by cases ha
  constructor
  · exact meets_of_always step_lookupInv not_existing_of_not_ready h₀
  · exact always_of_invariant step_lookupInv (fun s h => h.existing) h₀

/-- The environment has started up when the only client is approved and
validated. -/
theorem indexes_existing_one_client :
    ∃ s₀ s es, make 1 = .ok s₀ ∧ run step s₀ es = some s ∧
      s.served = List.replicate 4 (0, 0) ∧
      Always step IndexesExisting s₀ es := by
  obtain ⟨s₀, hmake⟩ : ∃ s₀, make 1 = .ok s₀ := ⟨_, rfl⟩
  obtain ⟨rs, environment, vectors, hstartup, hinv, hpc, hlength⟩ :=
    exists_startup hmake (by decide) (by decide)
  obtain ⟨s₂, hrun₂, hjoins, hslot, hserving₂⟩ :=
    exists_run_first_client hmake (by decide) hstartup
  have hdeq : s₂.deqConnections = [0] := hjoins.deqConnections
  have hmaps : s₂.deqConnections.length ≤ s₂.environment.maps.length := by
    rw [hdeq, hjoins.environment]
    exact hlength.ge
  have hready : s₂.deqConnections.length ≤ s₂.environment.rounds := by
    rw [← hserving₂.startup.maps_length]
    exact hmaps
  obtain ⟨s₃, msgs, hserves, hmsgs, hrun₃⟩ :=
    exists_run_onClientValidated hserving₂ hjoins.crash hjoins.handler hmaps
  have hother (s : Server) (e : ServerEvent)
      (he : e ≠ .handler .sendLayout) : MapsReady s e :=
    fun _ heq => absurd heq he
  have hbefore :
      Meets step MapsReady s₀
        ((startup rs ++ newClient 0 1) ++ [.io 0 (.readDone 0)]) := by
    refine meets_of_forall ?_ _
    intro s e he
    refine hother s e ?_
    rintro rfl
    simp [startup, newClient] at he
  have hserving : Meets step MapsReady s₂ onClientValidated := by
    refine meets_cons (fun _ _ _ _ _ => hready) fun s' _ => ?_
    refine meets_of_forall ?_ s'
    intro s e he
    refine hother s e ?_
    rintro rfl
    simp [readEntities] at he
  refine ⟨s₀, s₃.finish 0, _, hmake, (run_append hrun₂ _).trans hrun₃, ?_, ?_⟩
  · show s₃.served = _
    rw [hserves.served, hjoins.served, hmsgs, hslot]
    rfl
  · exact (indexes_existing_iff hmake _).mpr
      (meets_append hbefore hrun₂ hserving)

/-- A client is approved and validated before the environment's thread has
started: its map is looked up in an empty container, which ends the server. -/
theorem indexes_existing_fails_at_start :
    ∃ s₀ s, make 1 = .ok s₀ ∧
      run step s₀
          [.startServer, .accept 1,
            .io 0 (.recv 0 (toBytes (mfScramble 1))), .io 0 (.readDone 0),
            .handler .sendLayout] = some s ∧
      s.crash = some .outOfRange ∧ ¬ IndexesExisting s := by
  refine ⟨_, _, rfl, rfl, rfl, ?_⟩
  intro hexisting
  have hlookup := hexisting ⟨1, 0⟩ (List.mem_singleton.mpr rfl)
  exact absurd hlookup.2 (by decide)

end Lookups

end Server

end SpeciesSimulator
