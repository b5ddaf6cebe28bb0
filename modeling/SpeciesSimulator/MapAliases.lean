import SpeciesSimulator.MapMoves

/-!
# Entities from the network

The lists that a client is sent may hold any coordinates.  `update_entities`
checks the place in the grid that it computes from them, and not the
coordinates: an entity to the right of the map has the place of a cell in a
lower row.

Here the grid is a function of the place, and a list that `update_entities`
accepts moves entities between places.

Main facts:
* `foldlM_placeEntity_slots`: what an accepted list does to the grid;
* `inPlace_iff_slots`: which places hold entities that are somewhere else;
* `in_place_iff`: every entity that `check_pos` returns is where it was asked
  for, if and only if no list leaves an entity to the right of the map.
-/

namespace SpeciesSimulator

open PointMoves Transition

namespace Entity

/-- The place that is computed for a cell, which need not be one of the map. -/
def flatPos (config : MapConfig) (cell : Int × Int) : Nat :=
  (cell.2 * config.width.toNat + cell.1).toNat

/-- The last move of an entity, between places of the grid. -/
def flatMove (config : MapConfig) (e : Entity) : Move Nat Entity :=
  ⟨flatPos config e.prevCell, flatPos config e.cell, e⟩

end Entity

namespace Map

open Entity

section Slots

variable {m m' : Map} {es : List Entity}

/-- What the grid holds at a place. -/
def slot (m : Map) (i : Nat) : Option Entity :=
  (m.entitiesInternalMap[i]?).join

theorem slot_setCell
    {pos : Nat}
    (hpos : pos < m.entitiesInternalMap.length)
    (entity : Option Entity) :
    (m.setCell pos entity).slot = Function.update m.slot pos entity := by
  funext i
  by_cases hi : i = pos
  · subst hi
    rw [Function.update_self]
    simp [slot, setCell, hpos]
  · rw [Function.update_of_ne hi]
    simp [slot, setCell, List.getElem?_set_ne (Ne.symm hi)]

/-- An entity that is accepted moves between the places that are computed for
it. -/
theorem placeEntity_slots
    {e : Entity}
    (h : m.placeEntity e = .ok m') :
    m'.config = m.config ∧
      m'.slot = (e.flatMove m.config).apply m.slot := by
  obtain ⟨prev, hprev, h⟩ := exists_of_bind_ok h
  obtain ⟨prevPos, hprevPos, h⟩ := exists_of_bind_ok h
  obtain ⟨pos, hpos, h⟩ := exists_of_bind_ok h
  obtain ⟨newPos, hnewPos, h⟩ := exists_of_bind_ok h
  cases h
  obtain ⟨hfrom, hltFrom⟩ := gridAt_eq_of_ok hprevPos
  obtain ⟨hto, hltTo⟩ := gridAt_eq_of_ok hnewPos
  have hsrc : flatPos m.config e.prevCell = prevPos := by
    rw [flatPos, ← index_eq_of_ok hprev, hfrom, Int.toNat_natCast]
  have hdst : flatPos m.config e.cell = newPos := by
    rw [flatPos, ← index_eq_of_ok hpos, hto, Int.toNat_natCast]
  refine ⟨rfl, ?_⟩
  have hfirst :
      (m.setCell prevPos none).slot = Function.update m.slot prevPos none :=
    slot_setCell hltFrom none
  have hlen : newPos < (m.setCell prevPos none).entitiesInternalMap.length := by
    simpa [setCell] using hltTo
  rw [slot_setCell hlen, hfirst, ← hsrc, ← hdst]
  rfl

/-- A list that is accepted moves its entities between places. -/
theorem foldlM_placeEntity_slots
    (h : es.foldlM placeEntity m = .ok m') :
    m'.config = m.config ∧
      m'.slot = applyAll m.slot (es.map (flatMove m.config)) := by
  induction es generalizing m with
  | nil =>
      cases h
      exact ⟨rfl, rfl⟩
  | cons e es ih =>
      rw [List.foldlM_cons] at h
      obtain ⟨m₁, hplace, hrest⟩ := exists_of_bind_ok h
      obtain ⟨hconfig, hslot⟩ := placeEntity_slots hplace
      obtain ⟨hconfig', hslot'⟩ := ih hrest
      rw [hconfig] at hconfig' hslot'
      refine ⟨hconfig', ?_⟩
      rw [hslot', hslot]
      rfl

theorem slots_of_updateEntities
    {vecptr : VecPtr} {b b' : TSConsoleBuffer}
    (h : m.updateEntities vecptr es b = .ok (m', b')) :
    m'.config = m.config ∧
      m'.slot = applyAll m.slot (es.map (flatMove m.config)) := by
  obtain ⟨m₁, hplace, h⟩ := exists_of_bind_ok h
  obtain ⟨b₁, _, h⟩ := exists_of_bind_ok h
  cases h
  obtain ⟨m₂, hfold, hplace⟩ := exists_of_bind_ok hplace
  split at hplace
  · cases hplace
    exact foldlM_placeEntity_slots
      (m := { m with entitiesExternal := some vecptr }) hfold
  · cases hplace

end Slots

section Aliases

variable {m : Map}

/-- Every entity that `check_pos` returns is where it was asked for. -/
def InPlace (m : Map) : Prop :=
  ∀ x y e, x < m.config.width.toNat → y < m.config.height.toNat →
    m.checkPos x y = .ok (some e) → e.x.toNat = x ∧ e.y.toNat = y

/-- `check_pos` reads the place of a cell. -/
theorem checkPos_eq_slot
    {x y : Nat}
    (hx : x < m.config.width.toNat)
    (hy : y < m.config.height.toNat) :
    m.checkPos x y = .ok (m.slot (y * m.config.width.toNat + x)) := by
  have hlt : y * m.config.width.toNat + x < m.entitiesInternalMap.length := by
    rw [m.length_eq]
    exact TSConsoleBuffer.index_lt hx hy
  have hsize := m.length_lt
  have hmod :
      (y * m.config.width.toNat + x) % 2 ^ 64 =
        y * m.config.width.toNat + x := by
    exact Nat.mod_eq_of_lt (by omega)
  simp only [checkPos, hmod, slot]
  rw [List.getElem?_eq_getElem hlt]
  rfl

/-- The entity of a place is inside of the map and has that place. -/
def SlotInPlace (config : MapConfig) (i : Nat) (e : Entity) : Prop :=
  e.x.toNat < config.width.toNat ∧ flatPos config e.cell = i

theorem flatPos_cell (config : MapConfig) (e : Entity) :
    flatPos config e.cell = e.y.toNat * config.width.toNat + e.x.toNat := by
  have hcast :
      (e.y.toNat : Int) * config.width.toNat + e.x.toNat =
        ((e.y.toNat * config.width.toNat + e.x.toNat : Nat) : Int) := by
    rw [Nat.cast_add, Nat.cast_mul]
  unfold flatPos
  simp only [Entity.cell]
  rw [hcast, Int.toNat_natCast]

/-- Entities are where they are asked for, if and only if they are inside of the
map and have the places that are computed for them. -/
theorem inPlace_iff_slots :
    m.InPlace ↔ ∀ i e, m.slot i = some e → SlotInPlace m.config i e := by
  constructor
  · intro h i e he
    have hi : i < m.config.width.toNat * m.config.height.toNat := by
      rw [← m.length_eq]
      unfold slot at he
      rw [Option.join_eq_some_iff] at he
      exact (List.getElem?_eq_some_iff.mp he).1
    obtain ⟨x, y, hx, hy, rfl⟩ := TSConsoleBuffer.exists_index hi
    have hcheck := checkPos_eq_slot hx hy
    rw [he] at hcheck
    obtain ⟨rfl, rfl⟩ := h x y e hx hy hcheck
    exact ⟨hx, flatPos_cell _ _⟩
  · intro h x y e hx hy hcheck
    rw [checkPos_eq_slot hx hy, Except.ok.injEq] at hcheck
    obtain ⟨hinside, hplace⟩ := h _ e hcheck
    rw [flatPos_cell] at hplace
    exact TSConsoleBuffer.index_inj hinside hx hplace

/-- An empty map has everything in place. -/
theorem inPlace_of_make
    {console : WinConsole} {config : MapConfig} {vecptr : Option VecPtr}
    (hmake : make console config vecptr = .ok m) :
    m.InPlace := by
  intro x y e hx hy hcheck
  have hcell : m.config.Contains ((x : Int), (y : Int)) :=
    ⟨Int.natCast_nonneg _, Int.ofNat_lt.mpr hx, Int.natCast_nonneg _,
      Int.ofNat_lt.mpr hy⟩
  rw [checkPos_eq_lookup hcell, lookup_of_make hmake] at hcheck
  cases hcheck

end Aliases

end Map

/-- A call of `update_entities` with whatever was received. -/
structure Delivery where
  vecptr : VecPtr
  newEntities : List Entity

namespace Screen

/-- A call that throws ends the run. -/
def receive (s : Screen) (call : Delivery) : Option Screen :=
  match s.map.updateEntities call.vecptr call.newEntities s.buffer with
  | .ok (map, buffer) => some ⟨map, buffer⟩
  | .error _ => none

/-- No entity to the right of the map is the last of the list to come to its
place or to leave it. -/
def NoStrays (s : Screen) (call : Delivery) : Prop :=
  ∀ i e, Brings (call.newEntities.map (Entity.flatMove s.map.config)) i e →
    e.x.toNat < s.map.config.width.toNat

/-- A call leaves everything in place, if and only if it leaves no entity to the
right of the map. -/
theorem inPlace_receive_iff
    {s s' : Screen} {call : Delivery}
    (h : s.map.InPlace)
    (hstep : s.receive call = some s') :
    s'.map.InPlace ↔ NoStrays s call := by
  unfold receive at hstep
  split at hstep
  · next map buffer hupdate =>
    cases hstep
    obtain ⟨hconfig, hslot⟩ := Map.slots_of_updateEntities hupdate
    rw [Map.inPlace_iff_slots] at h ⊢
    simp only [hslot, applyAll_eq_some_iff, hconfig]
    constructor
    · intro hplaced i e hbrought
      exact (hplaced i e (Or.inl hbrought)).1
    · rintro hnone i e (hbrought | ⟨hold, _⟩)
      · refine ⟨hnone i e hbrought, ?_⟩
        obtain ⟨move, hmove, hdst, hval⟩ := hbrought.exists_move
        obtain ⟨e', _, rfl⟩ := List.mem_map.mp hmove
        obtain rfl : e' = e := hval
        exact hdst
      · exact h i e hold
  · cases hstep

/-- Along a run of calls that all return, everything that `check_pos` returns is
where it was asked for, if and only if no call leaves an entity to the right of
the map. -/
theorem in_place_iff
    {console : WinConsole} {config : MapConfig} {vecptr : Option VecPtr}
    {m : Map} {buffer : TSConsoleBuffer} {calls : List Delivery} {s : Screen}
    (hmake : Map.make console config vecptr = .ok m)
    (hrun : run receive ⟨m, buffer⟩ calls = some s) :
    Always receive (fun s => s.map.InPlace) ⟨m, buffer⟩ calls ↔
      Meets receive NoStrays ⟨m, buffer⟩ calls := by
  refine
    always_iff_of_run (I := fun s => s.map.InPlace) ?_ (fun _ h => h) ?_
      (Map.inPlace_of_make hmake) hrun
  · intro s call s' h hnone hstep
    exact (inPlace_receive_iff h hstep).mpr hnone
  · intro s call s' h hstrays hstep hplaced
    exact hstrays ((inPlace_receive_iff h hstep).mp hplaced)

/-- An entity in the second column of a map with two. -/
def inside : Entity :=
  { id := 1, x := 1, y := 0, char := .player, type := .playerobject }

/-- An entity to the right of the first row of a map with two columns. -/
def outside : Entity :=
  { id := 1, x := 2, y := 0, char := .player, type := .playerobject }

/-- A map with two columns and two rows. -/
def square : MapConfig :=
  { width := 2, height := 2 }

/-- The entity of the second column is where it is asked for. -/
theorem in_place_iff_inside :
    ∃ m b s,
      Map.makeWithBuffer ⟨{}⟩ square (some 0) = .ok (m, b) ∧
        run receive ⟨m, b⟩ [⟨0, [inside]⟩] = some s ∧
        Always receive (fun s => s.map.InPlace) ⟨m, b⟩ [⟨0, [inside]⟩] := by
  obtain ⟨m, b, s, hmake, hbuffer, hrun, hwidth⟩ :
      ∃ m b s,
        Map.make ⟨{}⟩ square (some 0) = .ok m ∧
          Map.makeWithBuffer ⟨{}⟩ square (some 0) = .ok (m, b) ∧
          run receive ⟨m, b⟩ [⟨0, [inside]⟩] = some s ∧
          inside.x.toNat < m.config.width.toNat :=
    ⟨_, _, _, rfl, rfl, rfl, by decide⟩
  refine ⟨m, b, s, hbuffer, hrun, (in_place_iff hmake hrun).mpr ?_⟩
  refine meets_cons ?_ fun _ _ => trivial
  rintro i e (⟨-, hval, -⟩ | hfalse)
  · obtain rfl : inside = e := hval
    exact hwidth
  · exact hfalse.elim

/-- The entity to the right of the first row is found in the second one. -/
theorem in_place_iff_fails_outside :
    ∃ m b s,
      Map.makeWithBuffer ⟨{}⟩ square (some 0) = .ok (m, b) ∧
        run receive ⟨m, b⟩ [⟨0, [outside]⟩] = some s ∧
        s.map.checkPos 0 1 = .ok (some outside) ∧
        outside.x.toNat ≠ 0 ∧ outside.y.toNat ≠ 1 ∧
        ¬ s.map.InPlace := by
  obtain ⟨m, b, s, hbuffer, hrun, hcheck, hwidth, hheight⟩ :
      ∃ m b s,
        Map.makeWithBuffer ⟨{}⟩ square (some 0) = .ok (m, b) ∧
          run receive ⟨m, b⟩ [⟨0, [outside]⟩] = some s ∧
          s.map.checkPos 0 1 = .ok (some outside) ∧
          0 < s.map.config.width.toNat ∧ 1 < s.map.config.height.toNat :=
    ⟨_, _, _, rfl, rfl, rfl, by decide, by decide⟩
  refine ⟨m, b, s, hbuffer, hrun, hcheck, by decide, by decide, fun h => ?_⟩
  obtain ⟨hx, -⟩ := h 0 1 outside hwidth hheight hcheck
  revert hx
  decide

end Screen

end SpeciesSimulator
