import SpeciesSimulator.ServerServes

/-!
# Which map a validated client is served

`on_client_validated` serves the map whose index is the number of approved
connections less one.  Whether it is the map of another client too depends on
who was approved between the validations of the two.

Main fact: `distinct_maps_iff`, different clients are served different maps, if
and only if some connection is approved between any two validations.
-/

namespace SpeciesSimulator

open ByteLayout Transition

namespace Server

section Slots

variable {s s' : Server}

/-- No two clients are sent data of the map with one index. -/
def DistinctMaps (s : Server) : Prop :=
  ∀ p ∈ s.served, ∀ q ∈ s.served, p.2 = q.2 → p.1 = q.1

/-- The event is a handler that finds a client's reply to be right. -/
def Validates (s : Server) : ServerEvent → Prop
  | .io c (.readDone i) =>
      ∃ conn r, s.connections[c]? = some conn ∧ conn.reads[i]? = some r ∧
        r.payload = .validation ∧ ofBytes r.got = conn.nHandshakeCheck
  | _ => False

/-- Since the last client was validated, some connection has been approved. -/
def ApprovedSince (s : Server) (e : ServerEvent) : Prop :=
  s.Validates e → s.connectionsAtValidation < s.deqConnections.length

/-- Only a right reply validates. -/
theorem validates_of_ioStep
    {c : ConnId} {e : IoEvent} {conn conn' : Connection MessageType}
    (hconn : s.connections[c]? = some conn)
    (hio : Connection.IoStep conn e conn' .validated) :
    s.Validates (.io c e) := by
  cases hio with
  | @readDone i r c' u hr hfull hon =>
      cases Connection.onRead_cases hon with
      | validated hp _ hreply => exact ⟨conn, r, hconn, hr, hp, hreply⟩

/-- What a step of `on_client_validated` sends is data of the current map. -/
theorem HandlerStep.served
    {h : Handler} {e : HandlerEvent}
    (hstep : HandlerStep s h e s') :
    s'.served = s.served ∨ s'.served = s.served ++ [(h.client, s.slot)] := by
  cases hstep with
  | noMap => exact Or.inl rfl
  | noVector => exact Or.inl rfl
  | noSize => exact Or.inl rfl
  | getVector => exact Or.inl rfl
  | getSize => exact Or.inl rfl
  | noEntities => exact Or.inl rfl
  | sendLayout => exact Or.inr rfl
  | sendConfig => exact Or.inr rfl
  | sendEntitiesSize => exact Or.inr rfl
  | sendEntities => exact Or.inr rfl

/-- Every index that was served is below the number of connections at the last
validation, and the last one is the index of the client validated then. -/
structure SlotsInv (s : Server) : Prop where
  serving : ServingInv s
  below : ∀ p ∈ s.served, p.2 < s.connectionsAtValidation
  le : s.connectionsAtValidation ≤ s.deqConnections.length
  current : ∀ h, s.handler = some h →
    s.connectionsAtValidation = s.deqConnections.length ∧
      ∀ p ∈ s.served, p.2 = s.slot → p.1 = h.client
  distinct : DistinctMaps s

/-- A step of `on_client_validated` serves its own client. -/
theorem handlerStep_slotsInv
    {hd : Handler} {e : HandlerEvent}
    (h : SlotsInv s)
    (hserving : ServingInv s')
    (hh : s.handler = some hd)
    (hstep : HandlerStep s hd e s') :
    SlotsInv s' := by
  have hworld := hstep.sameWorld
  have hslot := h.serving.slot_succ hh
  obtain ⟨hconn, howner⟩ := h.current hd hh
  have hnew :
      ∀ p ∈ s'.served, p ∈ s.served ∨ p = (hd.client, s.slot) := by
    intro p hp
    rcases hstep.served with hsame | hsent
    · rw [hsame] at hp
      exact Or.inl hp
    · rw [hsent] at hp
      rcases List.mem_append.mp hp with hp | hp
      · exact Or.inl hp
      · exact Or.inr (List.mem_singleton.mp hp)
  have hcurrent : ∀ p ∈ s'.served, p.2 = s.slot → p.1 = hd.client := by
    intro p hp hps
    rcases hnew p hp with hold | rfl
    · exact howner p hold hps
    · rfl
  refine ⟨hserving, ?_, ?_, ?_, ?_⟩
  · intro p hp
    rw [hworld.connectionsAtValidation]
    rcases hnew p hp with hold | rfl
    · exact h.below p hold
    · show s.slot < s.connectionsAtValidation
      omega
  · rw [hworld.connectionsAtValidation, hworld.deqConnections]
    exact h.le
  · intro h' hh'
    rw [hworld.connectionsAtValidation, hworld.deqConnections, hworld.slot,
      hstep.handler hh h' hh']
    exact ⟨hconn, hcurrent⟩
  · intro p hp q hq hpq
    rcases hnew p hp with hp' | rfl
    · rcases hnew q hq with hq' | rfl
      · exact h.distinct p hp' q hq' hpq
      · exact hcurrent p hp hpq
    · exact (hcurrent q hq hpq.symm).symm

/-- Validating a client after an approval makes the index fresh. -/
theorem validated_slotsInv
    {c : ConnId} {conn' : Connection MessageType}
    (h : SlotsInv s)
    (hserving : ServingInv (s.afterIo c conn' .validated))
    (hlt : s.connectionsAtValidation < s.deqConnections.length) :
    SlotsInv (s.afterIo c conn' .validated) := by
  have hslot : s.slot + 1 = s.deqConnections.length :=
    hserving.slot_succ rfl
  refine ⟨hserving, ?_, Nat.le_refl _, ?_, h.distinct⟩
  · intro p hp
    exact (h.below p hp).trans hlt
  · intro h' hh'
    refine ⟨rfl, ?_⟩
    intro p hp hps
    have hbelow := h.below p hp
    have hps' : p.2 = s.slot := hps
    omega

/-- Steps that validate only after an approval keep the maps distinct. -/
theorem step_slotsInv
    (s : Server) (e : ServerEvent) (s' : Server)
    (h : SlotsInv s)
    (hsince : ApprovedSince s e)
    (hstep : s.step e = some s') :
    SlotsInv s' := by
  have hserving := step_servingInv s e s' h.serving hstep
  cases step_cases hstep with
  | startServer => exact ⟨hserving, h.below, h.le, h.current, h.distinct⟩
  | startEnvironment =>
      exact ⟨hserving, h.below, h.le, h.current, h.distinct⟩
  | environment => exact ⟨hserving, h.below, h.le, h.current, h.distinct⟩
  | fault =>
      exact ⟨hserving, h.below, h.le, h.current, h.distinct⟩
  | approve hidle =>
      refine ⟨hserving, h.below, ?_, ?_, h.distinct⟩
      · rw [List.length_append]
        exact h.le.trans (Nat.le_add_right _ _)
      · intro hd hh
        rw [hidle] at hh
        cases hh
  | refuse => exact ⟨hserving, h.below, h.le, h.current, h.distinct⟩
  | acceptFailed => exact h
  | @io c e conn conn' u hidle hconn hio =>
      cases u with
      | none => exact ⟨hserving, h.below, h.le, h.current, h.distinct⟩
      | incoming msg =>
          exact ⟨hserving, h.below, h.le, h.current, h.distinct⟩
      | validated =>
          exact validated_slotsInv h hserving
            (hsince (validates_of_ioStep hconn hio))
  | handler hh hhandler =>
      exact handlerStep_slotsInv h hserving hh hhandler
  | update => exact ⟨hserving, h.below, h.le, h.current, h.distinct⟩

/-- A right reply is found to be right. -/
theorem upcall_of_validates
    {c : ConnId} {e : IoEvent} {conn conn' : Connection MessageType}
    {u : Upcall MessageType}
    (hside : Connection.ServerSide conn)
    (hconn : s.connections[c]? = some conn)
    (hvalidates : s.Validates (.io c e))
    (hio : Connection.IoStep conn e conn' u) :
    u = .validated := by
  cases hio with
  | @readDone i r c' u hr hfull hon =>
      obtain ⟨conn₁, r₁, hconn₁, hr₁, hp, hgot⟩ := hvalidates
      obtain rfl := Option.some.inj (hconn.symm.trans hconn₁)
      obtain rfl := Option.some.inj (hr.symm.trans hr₁)
      have howner : (conn.dropRead i).nowner = .server := hside.owner
      simp only [Connection.onRead, hp] at hon
      rw [Connection.onReadValidation_of_server howner,
        if_pos (show _ = (conn.dropRead i).nHandshakeCheck from hgot)] at hon
      cases hon
      rfl
  | _ => exact hvalidates.elim

/-- The client that was validated last is served, or its handler is at work. -/
structure LastInv (s : Server) : Prop where
  serving : ServingInv s
  le : s.connectionsAtValidation ≤ s.deqConnections.length
  running : ∀ h, s.handler = some h →
    s.connectionsAtValidation = s.deqConnections.length ∧
      (h.stage ≠ .layout → (h.client, s.slot) ∈ s.served)
  idle : s.handler = none → s.connectionsAtValidation ≠ 0 →
    ∃ c ∈ s.validated, (c, s.connectionsAtValidation - 1) ∈ s.served

/-- A handler is at work whose client is served. -/
theorem lastInv_of_running
    {hd : Handler}
    (hserving : ServingInv s')
    (hhandler : s'.handler = some hd)
    (hlast : s'.connectionsAtValidation = s'.deqConnections.length)
    (hserved : (hd.client, s'.slot) ∈ s'.served) :
    LastInv s' where
  serving := hserving
  le := hlast.le
  running := by
    intro hd' hh
    rw [hhandler] at hh
    cases hh
    exact ⟨hlast, fun _ => hserved⟩
  idle := by
    intro hidle
    rw [hhandler] at hidle
    cases hidle

/-- Once a handler has looked up its map, its client is served. -/
theorem handlerStep_lastInv
    {hd : Handler} {e : HandlerEvent}
    (h : LastInv s)
    (hserving : ServingInv s')
    (hh : s.handler = some hd)
    (hstep : HandlerStep s hd e s') :
    LastInv s' := by
  obtain ⟨hconn, hstage⟩ := h.running hd hh
  have hslot := h.serving.slot_succ hh
  have hsent : (hd.client, s.slot) ∈ s.served ++ [(hd.client, s.slot)] := by
    simp
  cases hstep with
  | noMap => exact ⟨hserving, h.le, h.running, h.idle⟩
  | noVector => exact ⟨hserving, h.le, h.running, h.idle⟩
  | noSize => exact ⟨hserving, h.le, h.running, h.idle⟩
  | noEntities => exact ⟨hserving, h.le, h.running, h.idle⟩
  | sendLayout => exact lastInv_of_running hserving rfl hconn hsent
  | sendConfig => exact lastInv_of_running hserving rfl hconn hsent
  | sendEntitiesSize => exact lastInv_of_running hserving rfl hconn hsent
  | getVector hstage' =>
      have hserved := hstage (by rw [hstage']; simp)
      exact lastInv_of_running hserving rfl hconn hserved
  | getSize hstage' =>
      have hserved := hstage (by rw [hstage']; simp)
      exact lastInv_of_running hserving rfl hconn hserved
  | sendEntities =>
      refine ⟨hserving, h.le, (fun _ hh' => by cases hh'), fun _ _ => ?_⟩
      refine ⟨hd.client, h.serving.gate.served hd hh, ?_⟩
      have hlast : s.connectionsAtValidation - 1 = s.slot := by omega
      show (hd.client, s.connectionsAtValidation - 1) ∈
        s.served ++ [(hd.client, s.slot)]
      rw [hlast]
      exact hsent

/-- Every step leaves the client that was validated last served or at work. -/
theorem step_lastInv
    (s : Server) (e : ServerEvent) (s' : Server)
    (h : LastInv s)
    (hstep : s.step e = some s') :
    LastInv s' := by
  have hserving := step_servingInv s e s' h.serving hstep
  cases step_cases hstep with
  | startServer => exact ⟨hserving, h.le, h.running, h.idle⟩
  | startEnvironment => exact ⟨hserving, h.le, h.running, h.idle⟩
  | environment => exact ⟨hserving, h.le, h.running, h.idle⟩
  | fault => exact ⟨hserving, h.le, h.running, h.idle⟩
  | approve hidle =>
      refine ⟨hserving, ?_, ?_, h.idle⟩
      · rw [List.length_append]
        exact h.le.trans (Nat.le_add_right _ _)
      · intro hd hh
        rw [hidle] at hh
        cases hh
  | refuse => exact ⟨hserving, h.le, h.running, h.idle⟩
  | acceptFailed => exact h
  | @io c e conn conn' u hidle hconn hio =>
      cases u with
      | none => exact ⟨hserving, h.le, h.running, h.idle⟩
      | incoming msg => exact ⟨hserving, h.le, h.running, h.idle⟩
      | validated =>
          refine
            ⟨hserving, Nat.le_refl _, ?_, fun hidle' => by cases hidle'⟩
          intro hd hh
          cases hh
          exact ⟨rfl, fun hstage => absurd rfl hstage⟩
  | handler hh hhandler => exact handlerStep_lastInv h hserving hh hhandler
  | update => exact ⟨hserving, h.le, h.running, h.idle⟩

/-- A client is about to be served the map of another one, or has been. -/
def Colliding (s : Server) : Prop :=
  (∃ h c, s.handler = some h ∧ c ≠ h.client ∧ (c, s.slot) ∈ s.served) ∨
    ¬ DistinctMaps s

theorem not_distinctMaps_of_subset
    (h : ¬ DistinctMaps s)
    (hsub : s.served ⊆ s'.served) :
    ¬ DistinctMaps s' := by
  intro hdistinct
  exact h fun p hp q hq => hdistinct p (hsub hp) q (hsub hq)

/-- A handler goes on towards the collision, or it brings it about. -/
theorem handlerStep_colliding
    {hd : Handler} {e : HandlerEvent}
    (h : Colliding s)
    (hh : s.handler = some hd)
    (hstep : HandlerStep s hd e s') :
    Colliding s' := by
  have hsub : s.served ⊆ s'.served := by
    rcases hstep.served with hsame | hsent
    · rw [hsame]
      exact List.Subset.refl _
    · rw [hsent]
      exact List.subset_append_left _ _
  rcases h with ⟨hd', c, hh', hne, hserved⟩ | hcollided
  · obtain rfl := Option.some.inj (hh'.symm.trans hh)
    have hgoes (stage : Stage)
        (hh₁ : s'.handler = some ⟨hd'.client, stage⟩) : Colliding s' := by
      refine Or.inl ⟨_, c, hh₁, hne, ?_⟩
      rw [hstep.sameWorld.slot]
      exact hsub hserved
    cases hstep with
    | noMap => exact hgoes hd'.stage hh
    | noVector => exact hgoes hd'.stage hh
    | noSize => exact hgoes hd'.stage hh
    | noEntities => exact hgoes hd'.stage hh
    | sendLayout => exact hgoes _ rfl
    | sendConfig => exact hgoes _ rfl
    | sendEntitiesSize => exact hgoes _ rfl
    | getVector => exact hgoes _ rfl
    | getSize => exact hgoes _ rfl
    | sendEntities =>
        refine Or.inr fun hdistinct => hne ?_
        exact hdistinct _ (hsub hserved) (hd'.client, s.slot)
          (List.mem_append_right _ (List.mem_singleton.mpr rfl)) rfl
  · exact Or.inr (not_distinctMaps_of_subset hcollided hsub)

/-- No step resolves a collision. -/
theorem step_colliding
    (s : Server) (e : ServerEvent) (s' : Server)
    (h : Colliding s)
    (hstep : s.step e = some s') :
    Colliding s' := by
  cases step_cases hstep with
  | startServer => exact h
  | startEnvironment => exact h
  | environment => exact h
  | fault => exact h
  | approve hidle =>
      rcases h with ⟨_, _, hh, _⟩ | hcollided
      · rw [hidle] at hh
        cases hh
      · exact Or.inr hcollided
  | refuse => exact h
  | acceptFailed => exact h
  | @io c e conn conn' u hidle hconn hio =>
      cases u with
      | none => exact h
      | incoming msg => exact h
      | validated =>
          rcases h with ⟨hd, _, hh, _⟩ | hcollided
          · rcases hidle with hmoves | hnone
            · cases upcall_of_movesBytes hio hmoves
            · rw [hnone] at hh
              cases hh
          · exact Or.inr hcollided
  | handler hh hhandler => exact handlerStep_colliding h hh hhandler
  | update => exact h

/-- Validating a client without a new approval leads to a collision. -/
theorem colliding_of_validation
    (s : Server) (e : ServerEvent) (s' : Server)
    (h : LastInv s)
    (hlate : ¬ ApprovedSince s e)
    (hstep : s.step e = some s') :
    Colliding s' := by
  unfold ApprovedSince at hlate
  push Not at hlate
  obtain ⟨hvalidates, hle⟩ := hlate
  have hserving := step_servingInv s e s' h.serving hstep
  have honce := step_gateInv s e s' h.serving.gate hstep
  cases step_cases hstep with
  | @io c e conn conn' u hidle hconn hio =>
      have hside := (h.serving.gate.gates c conn hconn).1
      obtain rfl := upcall_of_validates hside hconn hvalidates hio
      have hslot : s.slot + 1 = s.deqConnections.length :=
        hserving.slot_succ rfl
      have hnone : s.handler = none := by
        rcases hidle with hmoves | hnone
        · cases upcall_of_movesBytes hio hmoves
        · exact hnone
      obtain ⟨c', hval, hserved⟩ := h.idle hnone (by omega)
      have hlast : s.connectionsAtValidation - 1 = s.slot := by
        have hle' := h.le
        omega
      rw [hlast] at hserved
      refine Or.inl ⟨⟨c, .layout⟩, c', rfl, ?_, hserved⟩
      rintro rfl
      have hnodup : (s.validated ++ [c']).Nodup := honce.once
      exact (List.nodup_append.mp hnodup).2.2 c' hval c'
        (List.mem_singleton.mpr rfl) rfl
  | fault hcause =>
      cases hcause with
      | environment => exact hvalidates.elim
      | acceptReset => exact hvalidates.elim
      | freed => exact hvalidates.elim
  | _ => exact hvalidates.elim

/-- In a run of a new server in which some connection is approved between any
two validations, no two clients are ever sent data of one map; and when no
handler is at work, that is so only after such a run. -/
theorem distinct_maps_iff
    {nmapSize : UInt64} {s₀ : Server}
    (hmake : make nmapSize = .ok s₀)
    (es : List ServerEvent) :
    (Meets step ApprovedSince s₀ es → Always step DistinctMaps s₀ es) ∧
      ∀ s, run step s₀ es = some s → s.handler = none →
        (DistinctMaps s ↔ Meets step ApprovedSince s₀ es) := by
  have hserving := servingInv_of_make hmake
  obtain ⟨environment, _, rfl⟩ := exists_of_make hmake
  have hslots : SlotsInv _ :=
    ⟨hserving, (fun _ hp => by cases hp), Nat.le_refl _,
      (fun _ hh => by cases hh), fun _ hp => by cases hp⟩
  have hlast : LastInv _ :=
    ⟨hserving, Nat.le_refl _, (fun _ hh => by cases hh),
      fun _ hne => absurd rfl hne⟩
  refine ⟨?_, ?_⟩
  · exact always_of_invariant step_slotsInv (fun s h => h.distinct) hslots
  · intro s hrun hidle
    constructor
    · intro hdistinct
      rcases meets_or_of_run step_lastInv colliding_of_validation step_colliding
          hlast hrun with hmeets | ⟨_, _, hh, _⟩ | hcollided
      · exact hmeets
      · rw [hidle] at hh
        cases hh
      · exact absurd hdistinct hcollided
    · intro hmeets
      exact (run_invariant step_slotsInv hslots hmeets hrun).distinct

/-- Where no reply is checked, nobody is validated. -/
theorem meets_without_readDone
    {es : List ServerEvent}
    (h : ∀ c i, ServerEvent.io c (.readDone i) ∉ es)
    (s : Server) :
    Meets step ApprovedSince s es := by
  refine meets_of_forall ?_ s
  intro s e he hvalidates
  cases e with
  | io c e =>
      cases e with
      | readDone i => exact absurd he (h c i)
      | _ => exact hvalidates.elim
  | _ => exact hvalidates.elim

/-- A new client joins and is served. -/
def serveClient (c : ConnId) (now : UInt64) : List ServerEvent :=
  (newClient c now ++ [.io c (.readDone 0)]) ++ onClientValidated

/-- One more client was served. -/
structure ServesClient (s s' : Server) : Prop where
  serving : ServingInv s'
  crash : s'.crash = none
  listening : s'.listening = s.listening
  handler : s'.handler = none
  nMapsCount : s'.nMapsCount = s.nMapsCount
  environment : s'.environment = s.environment
  deqConnections :
    s'.deqConnections.length = s.deqConnections.length + 1
  connections : s'.connections.length = s.connections.length + 1
  connectionsAtValidation :
    s'.connectionsAtValidation = s.deqConnections.length + 1
  served :
    s'.served =
      s.served ++
        List.replicate 4 (s.connections.length, s.deqConnections.length)

/-- While there is a map for it, a new client can be served. -/
theorem exists_run_serveClient
    (now : UInt64)
    (h : ServingInv s)
    (hcrash : s.crash = none)
    (hlistening : s.listening = true)
    (hidle : s.handler = none)
    (hval : s.connectionsAtValidation ≤ s.deqConnections.length)
    (hroom : s.deqConnections.length < s.nMapsCount.toNat)
    (hmaps : s.deqConnections.length < s.environment.maps.length) :
    ∃ s', run step s (serveClient s.connections.length now) = some s' ∧
      ServesClient s s' ∧
      Meets step ApprovedSince s (serveClient s.connections.length now) := by
  obtain ⟨s₁, s₂, hrun₁, hval₁, hdeq₁, hstep, hjoins⟩ :=
    exists_run_new_client now hcrash hlistening hidle hroom rfl
  have hrun₂ :=
    (run_append hrun₁ [.io s.connections.length (.readDone 0)]).trans
      (run_cons_of_step hstep [])
  have hserving₂ : ServingInv s₂ :=
    reachable_invariant step_servingInv h ⟨_, hrun₂⟩
  have hdeq₂ : s₂.deqConnections.length = s.deqConnections.length + 1 := by
    rw [hjoins.deqConnections, List.length_append, List.length_singleton]
  have hslot : s₂.slot = s.deqConnections.length := by
    have hsucc := hserving₂.slot_succ hjoins.handler
    omega
  obtain ⟨s₃, msgs, hserves, hmsgs, hrun₃⟩ :=
    exists_run_onClientValidated hserving₂ hjoins.crash hjoins.handler
      (by rw [hdeq₂, hjoins.environment]; exact hmaps)
  have hrun := (run_append hrun₂ onClientValidated).trans hrun₃
  have happroved :
      Meets step ApprovedSince s₁
        [.io s.connections.length (.readDone 0)] := by
    refine meets_cons (fun _ => ?_) fun _ _ => trivial
    rw [hval₁, hdeq₁, List.length_append, List.length_singleton]
    omega
  refine ⟨s₃.finish s.connections.length, hrun, ?_, ?_⟩
  · exact
      { serving := reachable_invariant step_servingInv h ⟨_, hrun⟩
        crash := hserves.crash
        listening := hserves.world.listening.trans hjoins.listening
        handler := rfl
        nMapsCount := hserves.world.nMapsCount.trans hjoins.nMapsCount
        environment := hserves.world.environment.trans hjoins.environment
        deqConnections := by
          rw [← hdeq₂]
          exact congrArg List.length hserves.world.deqConnections
        connections := by
          rw [← hjoins.connections]
          simp [finish, hserves.connections]
        connectionsAtValidation :=
          hserves.world.connectionsAtValidation.trans
            hjoins.connectionsAtValidation
        served := by
          show s₃.served = _
          rw [hserves.served, hjoins.served, hmsgs, hslot] }
  · refine meets_append (meets_append ?_ hrun₁ happroved) hrun₂ ?_
    · exact meets_without_readDone (by simp [newClient]) s
    · exact meets_without_readDone
        (by simp [onClientValidated, announce, readEntities]) s₂

/-- The second client is approved once the first one is served. -/
theorem distinct_maps_iff_one_after_another :
    ∃ s₀ s es, make 2 = .ok s₀ ∧ run step s₀ es = some s ∧
      s.served = List.replicate 4 (0, 0) ++ List.replicate 4 (1, 1) ∧
      Always step DistinctMaps s₀ es := by
  obtain ⟨s₀, hmake⟩ : ∃ s₀, make 2 = .ok s₀ := ⟨_, rfl⟩
  obtain ⟨rs, environment, vectors, hstartup, hinv, hpc, hlength⟩ :=
    exists_startup hmake (by decide) (by decide)
  have hmaps : environment.maps.length = 2 := hlength
  have hstart : Meets step ApprovedSince s₀ (startup rs) :=
    meets_without_readDone (by simp [startup]) s₀
  -- the first client
  obtain ⟨s₁, hrun₁, hone, hmeets₁⟩ :=
    exists_run_serveClient (s := started 2 environment vectors) 1
      (reachable_servingInv hmake ⟨_, hstartup⟩) rfl rfl rfl (Nat.le_refl _)
      (show 0 < (2 : UInt64).toNat by decide)
      (show 0 < environment.maps.length by omega)
  have hdeq₁ : s₁.deqConnections.length = 1 := hone.deqConnections
  have hconn₁ : s₁.connections.length = 1 := hone.connections
  have hcount₁ : s₁.nMapsCount = 2 := hone.nMapsCount
  have hval₁ : s₁.connectionsAtValidation = 1 :=
    hone.connectionsAtValidation
  have henv₁ : s₁.environment = environment := hone.environment
  -- the second client
  obtain ⟨s₂, hrun₂, htwice, hmeets₂⟩ :=
    exists_run_serveClient 2 hone.serving hone.crash hone.listening
      hone.handler (by rw [hval₁, hdeq₁])
      (by rw [hdeq₁, hcount₁]; decide) (by rw [hdeq₁, henv₁, hmaps]; decide)
  have hreach₁ := (run_append hstartup _).trans hrun₁
  have hmeets :=
    meets_append (meets_append hstart hstartup hmeets₁) hreach₁ hmeets₂
  refine
    ⟨s₀, s₂, _, hmake, (run_append hreach₁ _).trans hrun₂, ?_,
      (distinct_maps_iff hmake _).1 hmeets⟩
  rw [htwice.served, hone.served, hconn₁, hdeq₁]
  rfl

/-- The environment has started up, and two clients are approved before one of
them is validated: both are sent the data of the second map. -/
theorem distinct_maps_iff_fails_together :
    ∃ s₀ s₁ s rs es, make 2 = .ok s₀ ∧ run step s₀ (startup rs) = some s₁ ∧
      s₁.environment.pc = .running ∧ run step s₁ es = some s ∧
      s.validated = [0, 1] ∧
      s.served = List.replicate 4 (0, 1) ++ List.replicate 4 (1, 1) ∧
      ¬ DistinctMaps s := by
  obtain ⟨s₀, hmake⟩ : ∃ s₀, make 2 = .ok s₀ := ⟨_, rfl⟩
  obtain ⟨rs, environment, vectors, hstartup, hinv, hpc, hlength⟩ :=
    exists_startup hmake (by decide) (by decide)
  obtain ⟨s₂, conn, conn', hrun₂, hcrash₂, hh₂, henv₂, hdeq₂, hval₂,
      hserved₂, hconn₂, hio⟩ :
      ∃ s₂ conn conn',
        run step (started 2 environment vectors)
            [.accept 1, .accept 2, .io 0 (.recv 0 (toBytes (mfScramble 1))),
              .io 1 (.recv 0 (toBytes (mfScramble 2))),
              .io 0 (.readDone 0)] = some s₂ ∧
          s₂.crash = none ∧ s₂.handler = some ⟨0, .layout⟩ ∧
          s₂.environment = environment ∧ s₂.deqConnections = [0, 1] ∧
          s₂.validated = [0] ∧ s₂.served = [] ∧
          s₂.connections[1]? = some conn ∧
          conn.ioStep (.readDone 0) = some (conn', .validated) :=
    ⟨_, _, _, rfl, rfl, rfl, rfl, rfl, rfl, rfl, rfl, rfl⟩
  have hslot₂ : s₂.slot = 1 := by
    simp [slot, hdeq₂]
  have hreach₂ := (run_append hstartup _).trans hrun₂
  have hmaps₂ : s₂.deqConnections.length ≤ s₂.environment.maps.length := by
    rw [henv₂, hlength, hdeq₂]
    decide
  obtain ⟨s₃, msgs, hserves₃, hmsgs, hrun₃⟩ :=
    exists_run_onClientValidated (reachable_servingInv hmake ⟨_, hreach₂⟩)
      hcrash₂ hh₂ hmaps₂
  have hreach₃ := (run_append hreach₂ _).trans hrun₃
  have hconn₃ : (s₃.finish 0).connections[1]? = some conn := by
    simp [finish, hserves₃.connections, hconn₂]
  -- the second reply was right too
  let s₄ := (s₃.finish 0).afterIo 1 conn' .validated
  have hstep₄ : (s₃.finish 0).step (.io 1 (.readDone 0)) = some s₄ :=
    step_io hserves₃.crash rfl hconn₃ hio
  have hreach₄ :=
    (run_append hreach₃ [.io 1 (.readDone 0)]).trans
      (run_cons_of_step hstep₄ [])
  have hdeq₄ : s₄.deqConnections = [0, 1] :=
    hserves₃.world.deqConnections.trans hdeq₂
  have hslot₄ : s₄.slot = 1 := by
    simp [slot, hdeq₄]
  have hmaps₄ : s₄.deqConnections.length ≤ s₄.environment.maps.length := by
    have henv₄ : s₄.environment = environment :=
      hserves₃.world.environment.trans henv₂
    rw [henv₄, hlength, hdeq₄]
    decide
  obtain ⟨s₅, msgs', hserves₅, hmsgs', hrun₅⟩ :=
    exists_run_onClientValidated (reachable_servingInv hmake ⟨_, hreach₄⟩)
      hserves₃.crash rfl hmaps₄
  have hserved : s₅.served =
      List.replicate 4 (0, 1) ++ List.replicate 4 (1, 1) := by
    have hserved₄ : s₄.served = List.replicate 4 (0, 1) := by
      show s₃.served = _
      rw [hserves₃.served, hserved₂, hmsgs, hslot₂]
      rfl
    rw [hserves₅.served, hserved₄, hmsgs', hslot₄]
  refine ⟨s₀, _, s₅.finish 1, rs, _, hmake, hstartup, hpc,
    ((run_append hrun₂ _).trans ((run_append hrun₃ _).trans
      ((run_cons_of_step hstep₄ _).trans hrun₅))), ?_, hserved, ?_⟩
  · show s₅.validated = [0, 1]
    have hval₄ : s₄.validated = s₃.validated ++ [1] := rfl
    rw [hserves₅.world.validated, hval₄, hserves₃.world.validated, hval₂]
    rfl
  · intro hdistinct
    have hzero : ((0, 1) : ConnId × Nat) ∈ (s₅.finish 1).served := by
      show _ ∈ s₅.served
      simp [hserved]
    have hone : ((1, 1) : ConnId × Nat) ∈ (s₅.finish 1).served := by
      show _ ∈ s₅.served
      simp [hserved]
    exact absurd (hdistinct _ hzero _ hone rfl) (by decide)

end Slots

end Server

end SpeciesSimulator
