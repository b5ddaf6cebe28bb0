import SpeciesSimulator.MapScreen

/-!
# Entities that move over the grid

An entity carries its position and the way it has come.  The previous position
is computed with `int` from two 16-bit unsigned members, so that a way to the
left or upwards, stored modulo `2^16`, does not lead back to where the entity
was.

Main facts:
* `no_ghosts`: if every occupied cell is one that an entity of the list leaves,
  only entities of the list are shown after the call, each where it is; this
  goes on as long as each list moves all entities of the last one;
* `cleared_cell_iff`: the cell that `update_entities` clears for an entity is the
  one it comes from, if and only if the entity has moved neither to the left nor
  upwards.
-/

namespace SpeciesSimulator

open PointMoves Transition

namespace Map

section Ghosts

variable {m m' : Map} {es : List Entity}

/-- Every occupied cell is one that an entity of the list leaves. -/
def LeftBy (m : Map) (es : List Entity) : Prop :=
  ∀ cell e, m.lookup cell = some e → ∃ e' ∈ es, e'.prevCell = cell

/-- Every cell that is not empty shows an entity of the list that is there. -/
def OnlyShows (m : Map) (es : List Entity) : Prop :=
  ∀ cell e, m.lookup cell = some e → e ∈ es ∧ e.cell = cell

/-- A call that returns has applied the moves of its entities. -/
theorem lookup_of_updateEntities
    {vecptr : VecPtr} {b b' : TSConsoleBuffer}
    (hinside : ∀ e ∈ es, e.Inside m.config)
    (h : m.updateEntities vecptr es b = .ok (m', b')) :
    m'.config = m.config ∧
      m'.lookup = applyAll m.lookup (es.map Entity.move) := by
  obtain ⟨m₁, hplace, hrest⟩ := exists_of_bind_ok h
  obtain ⟨b₁, _, hrest⟩ := exists_of_bind_ok hrest
  cases hrest
  obtain ⟨m₂, hfold, hplace⟩ := exists_of_bind_ok hplace
  split at hplace
  · cases hplace
    obtain ⟨m₃, hfold', hframe, hlookup⟩ :=
      foldlM_placeEntity_refines
        (m := { m with entitiesExternal := some vecptr }) hinside
    obtain rfl := Except.ok.inj (hfold.symm.trans hfold')
    exact ⟨hframe.config, hlookup⟩
  · cases hplace

/-- What an entity of the list leaves is not shown any more. -/
theorem onlyShows_of_leftBy
    {vecptr : VecPtr} {b b' : TSConsoleBuffer}
    (hinside : ∀ e ∈ es, e.Inside m.config)
    (hleft : m.LeftBy es)
    (h : m.updateEntities vecptr es b = .ok (m', b')) :
    m'.OnlyShows es := by
  obtain ⟨_, hlookup⟩ := lookup_of_updateEntities hinside h
  intro cell e he
  rw [hlookup, applyAll_eq_some_iff] at he
  rcases he with hbrought | ⟨hold, huntouched⟩
  · obtain ⟨move, hmove, hdst, hval⟩ := hbrought.exists_move
    obtain ⟨e', he', rfl⟩ := List.mem_map.mp hmove
    obtain rfl : e' = e := hval
    exact ⟨he', hdst⟩
  · obtain ⟨e', he', hprev⟩ := hleft cell e hold
    exact absurd hprev (huntouched e'.move (List.mem_map_of_mem he')).1

/-- An empty map shows no entity. -/
theorem onlyShows_of_make
    {console : WinConsole} {config : MapConfig} {vecptr : Option VecPtr}
    (hmake : make console config vecptr = .ok m) :
    m.OnlyShows [] := by
  intro cell e he
  rw [lookup_of_make hmake] at he
  cases he

end Ghosts

section PreviousCell

variable {m : Map} {e : Entity}

/-- The place in the grid that `update_entities` clears for an entity. -/
def clearedPos (m : Map) (e : Entity) : Except Fault Nat := do
  let prev ← m.config.index e.prevCell
  m.gridAt prev

/-- Clear one place, then write another one. -/
theorem placeEntity_eq (m : Map) (e : Entity) :
    m.placeEntity e =
      (do
        let prevPos ← m.clearedPos e
        let pos ← m.config.index e.cell
        let newPos ← m.gridAt pos
        pure ((m.setCell prevPos none).setCell newPos (some e))) := by
  unfold placeEntity clearedPos
  cases m.config.index e.prevCell with
  | error fault => rfl
  | ok prev => rfl

/-- An index that was computed is the one that was meant. -/
theorem index_eq_of_ok
    {config : MapConfig} {cell : Int × Int} {i : Int}
    (h : config.index cell = .ok i) :
    i = cell.2 * config.width.toNat + cell.1 := by
  obtain ⟨row, hrow, hindex⟩ := exists_of_bind_ok h
  unfold checkInt at hrow hindex
  split at hrow
  · cases hrow
    split at hindex
    · cases hindex
      rfl
    · cases hindex
  · cases hrow

theorem gridAt_eq_of_ok
    {i : Int} {pos : Nat}
    (h : m.gridAt i = .ok pos) :
    i = pos ∧ pos < m.entitiesInternalMap.length := by
  unfold gridAt at h
  split at h
  · next hrange =>
    cases h
    omega
  · cases h

/-- Where a way that is stored modulo `2^16` leads back to. -/
theorem sub_toNat_sub (new old : UInt16) :
    (new.toNat : Int) - (new - old).toNat =
      old.toNat - (if old ≤ new then 0 else 2 ^ 16) := by
  have hsub := UInt16.toNat_sub new old
  have hlt := old.toNat_lt
  have hlt' := new.toNat_lt
  rw [hsub]
  split
  · next hle =>
    rw [UInt16.le_iff_toNat_le] at hle
    omega
  · next hle =>
    rw [UInt16.le_iff_toNat_le] at hle
    omega

/-- The cell that `update_entities` clears for an entity is the one it has come
from, if and only if it has moved neither to the left nor upwards. -/
theorem cleared_cell_iff
    {ox oy : UInt16}
    (hold : m.config.Contains (ox.toNat, oy.toNat))
    (hvelox : e.veloX = e.x - ox)
    (hveloy : e.veloY = e.y - oy) :
    m.clearedPos e = .ok (m.config.position (ox.toNat, oy.toNat)) ↔
      ox ≤ e.x ∧ oy ≤ e.y := by
  have hprev :
      e.prevCell =
        ((ox.toNat : Int) - (if ox ≤ e.x then 0 else 2 ^ 16),
          (oy.toNat : Int) - (if oy ≤ e.y then 0 else 2 ^ 16)) := by
    simp only [Entity.prevCell, hvelox, hveloy, sub_toNat_sub]
  constructor
  · intro hcleared
    obtain ⟨i, hindex, hgrid⟩ := exists_of_bind_ok hcleared
    have hi := index_eq_of_ok hindex
    obtain ⟨hpos, -⟩ := gridAt_eq_of_ok hgrid
    obtain ⟨hx₀, hxw, -, -⟩ := hold
    rw [hprev] at hi
    simp only [MapConfig.position, Int.toNat_natCast] at hi hpos
    -- every axis in which it went back takes the index further down
    have hrow :
        (if oy ≤ e.y then (0 : Int) else 2 ^ 16) * m.config.width.toNat +
            (if ox ≤ e.x then 0 else 2 ^ 16) = 0 := by
      rw [hpos, Nat.cast_add, Nat.cast_mul, sub_mul] at hi
      omega
    refine ⟨?_, ?_⟩
    · by_contra hleft
      rw [if_neg hleft] at hrow
      split at hrow
      · omega
      · omega
    · by_contra hup
      rw [if_neg hup] at hrow
      split at hrow
      · omega
      · omega
  · rintro ⟨hlex, hley⟩
    rw [if_pos hlex, if_pos hley, sub_zero, sub_zero] at hprev
    unfold clearedPos
    rw [hprev, MapConfig.index_of_contains m.area_lt hold, bind_ok,
      gridAt_position hold]

/-- An entity that stepped from cell 1 of a row back to cell 0. -/
def backStep : Entity :=
  { id := 1, x := 0, y := 0, veloX := 65535, veloY := 0,
    char := .player, type := .playerobject }

/-- A step to the right leads back to the cell it started from. -/
theorem cleared_cell_iff_right :
    ∃ m,
      Map.make ⟨{}⟩ { width := 3, height := 1 } (some 0) = .ok m ∧
        m.clearedPos firstStep = .ok (m.config.position (0, 0)) := by
  refine ⟨_, rfl, ?_⟩
  exact
    (@cleared_cell_iff _ firstStep 0 0 (by decide) (by decide)
      (by decide)).mpr ⟨by decide, by decide⟩

/-- The cell that a step to the left started from is not found. -/
theorem cleared_cell_iff_fails_left :
    ∃ m,
      Map.make ⟨{}⟩ { width := 3, height := 1 } (some 0) = .ok m ∧
        m.config.Contains (1, 0) ∧ m.config.Contains backStep.cell ∧
        backStep.veloX = backStep.x - 1 ∧ backStep.veloY = backStep.y - 0 ∧
        m.clearedPos backStep = .error .outOfRange ∧
        m.placeEntity backStep = .error .outOfRange :=
  ⟨_, rfl, by decide, by decide, by decide, by decide, rfl, rfl⟩

end PreviousCell

end Map

/-- A screen, and the list of its last update. -/
structure MovingScreen where
  screen : Screen
  last : List Entity

namespace MovingScreen

variable {config : MapConfig}

def step (s : MovingScreen) (call : Screen.Call config) :
    Option MovingScreen :=
  match s.screen.step call with
  | some screen => some ⟨screen, call.newEntities⟩
  | none => none

/-- The list moves the entities from where the last update put them. -/
def GoesOn (s : MovingScreen) (call : Screen.Call config) : Prop :=
  ∀ e ∈ s.last, ∃ e' ∈ call.newEntities, e'.prevCell = e.cell

/-- The map of a certain size shows the entities of the last list at most. -/
structure MovingInv (config : MapConfig) (s : MovingScreen) : Prop where
  sameConfig : s.screen.map.config = config
  onlyShows : s.screen.map.OnlyShows s.last

theorem step_movingInv
    (s : MovingScreen) (call : Screen.Call config) (s' : MovingScreen)
    (h : MovingInv config s)
    (hgoes : GoesOn s call)
    (hstep : s.step call = some s') :
    MovingInv config s' := by
  have hinside : ∀ e ∈ call.newEntities, e.Inside s.screen.map.config := by
    rw [h.sameConfig]
    exact call.inside
  have hleft : s.screen.map.LeftBy call.newEntities := by
    intro cell e he
    obtain ⟨hlast, hcell⟩ := h.onlyShows cell e he
    rw [← hcell]
    exact hgoes e hlast
  unfold step at hstep
  split at hstep
  · next screen hscreen =>
    cases hstep
    unfold Screen.step at hscreen
    split at hscreen
    · next map buffer hupdate =>
      cases hscreen
      have hsame := (Map.lookup_of_updateEntities hinside hupdate).1
      exact
        ⟨hsame.trans h.sameConfig,
          Map.onlyShows_of_leftBy hinside hleft hupdate⟩
    · cases hscreen
  · cases hstep

/-- The last list is that of the last call. -/
theorem last_of_step
    {s s' : MovingScreen} {call : Screen.Call config}
    (hstep : s.step call = some s') :
    s'.last = call.newEntities := by
  unfold step at hstep
  split at hstep
  · cases hstep
    rfl
  · cases hstep

/-- A call whose list can be counted returns. -/
theorem exists_step
    {s : MovingScreen} {call : Screen.Call config}
    (hconfig : s.screen.map.config = config)
    (hsized : s.screen.buffer.Sized)
    (hlen : call.newEntities.length < 2 ^ 31) :
    ∃ s', s.step call = some s' ∧ s'.screen.map.config = config ∧
      s'.screen.buffer.Sized := by
  have hinside : ∀ e ∈ call.newEntities, e.Inside s.screen.map.config := by
    rw [hconfig]
    exact call.inside
  obtain ⟨m', buffer', hupdate, hsame, hsized', _⟩ :=
    Map.updateEntities_refines call.vecptr hsized hinside hlen
  refine ⟨⟨⟨m', buffer'⟩, call.newEntities⟩, ?_, hsame.trans hconfig, hsized'⟩
  simp only [step, Screen.step, hupdate]

/-- So do all calls of a run. -/
theorem exists_run
    {s : MovingScreen} {calls : List (Screen.Call config)}
    (hconfig : s.screen.map.config = config)
    (hsized : s.screen.buffer.Sized)
    (hlen : ∀ call ∈ calls, call.newEntities.length < 2 ^ 31) :
    ∃ s', run step s calls = some s' := by
  induction calls generalizing s with
  | nil =>
      exact ⟨s, rfl⟩
  | cons call calls ih =>
      obtain ⟨s₁, hstep, hconfig₁, hsized₁⟩ :=
        exists_step hconfig hsized (hlen call List.mem_cons_self)
      obtain ⟨s', hrun⟩ :=
        ih hconfig₁ hsized₁ fun call' hmem =>
          hlen call' (List.mem_cons_of_mem call hmem)
      exact ⟨s', (run_cons_of_step hstep calls).trans hrun⟩

/-- If every occupied cell is left by an entity of the list, `update_entities`
leaves entities of the list only, each in its own cell; so does every call of a
run whose lists move all the entities of the ones before.  With a buffer of the
right size and lists that can be counted the calls return. -/
theorem no_ghosts (m : Map) (buffer : TSConsoleBuffer) :
    (∀ vecptr es, (∀ e ∈ es, e.Inside m.config) → m.LeftBy es →
        (∀ m' buffer', m.updateEntities vecptr es buffer = .ok (m', buffer') →
          m'.OnlyShows es) ∧
        (buffer.Sized → es.length < 2 ^ 31 →
          ∃ m' buffer', m.updateEntities vecptr es buffer = .ok (m', buffer'))) ∧
      ∀ last (calls : List (Screen.Call m.config)), m.OnlyShows last →
        Meets step GoesOn ⟨⟨m, buffer⟩, last⟩ calls →
          Always step (fun s => s.screen.map.OnlyShows s.last)
              ⟨⟨m, buffer⟩, last⟩ calls ∧
            (buffer.Sized →
              (∀ call ∈ calls, call.newEntities.length < 2 ^ 31) →
                ∃ s', run step ⟨⟨m, buffer⟩, last⟩ calls = some s') := by
  constructor
  · intro vecptr es hinside hleft
    refine ⟨fun m' buffer' hupdate => ?_, fun hsized hlen => ?_⟩
    · exact Map.onlyShows_of_leftBy hinside hleft hupdate
    · obtain ⟨m', buffer', hupdate, _⟩ :=
        Map.updateEntities_refines vecptr hsized hinside hlen
      exact ⟨m', buffer', hupdate⟩
  · intro last calls hlast hmeets
    have h₀ : MovingInv m.config ⟨⟨m, buffer⟩, last⟩ := ⟨rfl, hlast⟩
    refine ⟨?_, fun hsized hlen => ?_⟩
    · exact
        always_of_invariant step_movingInv (fun _ h => h.onlyShows) h₀ hmeets
    · exact exists_run rfl hsized hlen

/-- An entity that stands in cell 0 of a row. -/
def atRest : Entity :=
  { Map.firstStep with x := 0, veloX := 0 }

/-- It steps into cell 1, and then the map shows nothing else. -/
theorem no_ghosts_first_step :
    ∃ (m : Map) (buffer : TSConsoleBuffer) (s : MovingScreen)
      (calls : List (Screen.Call m.config)),
      Map.makeWithBuffer ⟨{}⟩ { width := 3, height := 1 } (some 0) =
        .ok (m, buffer) ∧
      calls.map (·.newEntities) = [[atRest], [Map.firstStep]] ∧
      run step ⟨⟨m, buffer⟩, []⟩ calls = some s ∧
      s.screen.map.OnlyShows [Map.firstStep] := by
  obtain ⟨m, buffer, hmake, hbuffer, hsized, hrest, hfirst⟩ :
      ∃ m buffer,
        Map.make ⟨{}⟩ { width := 3, height := 1 } (some 0) = .ok m ∧
          Map.makeWithBuffer ⟨{}⟩ { width := 3, height := 1 } (some 0) =
            .ok (m, buffer) ∧
          buffer.Sized ∧
          (∀ e ∈ [atRest], e.Inside m.config) ∧
          ∀ e ∈ [Map.firstStep], e.Inside m.config :=
    ⟨_, _, rfl, rfl, rfl, by decide, by decide⟩
  have hmeets :
      Meets step GoesOn ⟨⟨m, buffer⟩, []⟩
        [⟨0, [atRest], hrest⟩, ⟨0, [Map.firstStep], hfirst⟩] := by
    refine meets_cons (fun e he => by cases he) fun s₁ hstep => ?_
    refine meets_cons ?_ fun _ _ => trivial
    have hmoves : ∀ e ∈ [atRest], ∃ e' ∈ [Map.firstStep], e'.prevCell = e.cell := by
      decide
    unfold GoesOn
    rw [last_of_step hstep]
    exact hmoves
  obtain ⟨halways, hreturns⟩ :=
    (no_ghosts m buffer).2 [] _ (Map.onlyShows_of_make hmake) hmeets
  obtain ⟨s, hrun⟩ := hreturns hsized <| by
    refine List.forall_mem_cons.mpr ⟨?_, List.forall_mem_singleton.mpr ?_⟩
    · show 1 < 2 ^ 31
      norm_num
    · show 1 < 2 ^ 31
      norm_num
  obtain ⟨s₁, hstep₁, hrun₁⟩ := run_cons_some hrun
  obtain ⟨s₂, hstep₂, hrun₂⟩ := run_cons_some hrun₁
  cases hrun₂
  have hshows := halways.of_run hrun
  rw [last_of_step hstep₂] at hshows
  exact ⟨m, buffer, s, _, hbuffer, rfl, hrun, hshows⟩

end MovingScreen

end SpeciesSimulator
