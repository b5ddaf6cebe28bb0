import SpeciesSimulator.MapGrid

/-!
# Maps on a machine that wraps around

`Map.updateEntities` has no result where an `int` leaves its range.  A machine
that wraps around goes on: an index that leaves the range is out of range for
`at` or is one of another cell, and the counter of the loop becomes negative,
which is a large `size_t`, so that the loop ends.

Main fact: `updateEntitiesWrapped_of_updateEntities`, where no `int` leaves its
range, wrapping around changes nothing.
-/

namespace SpeciesSimulator

/-- An `int` in two's complement. -/
def wrapInt (n : Int) : Int :=
  n.bmod (2 ^ 32)

theorem wrapInt_of_checkInt
    {n k : Int}
    (h : checkInt n = .ok k) :
    wrapInt n = k := by
  unfold checkInt at h
  split at h
  · rename_i hrange
    cases h
    unfold wrapInt
    rw [Int.bmod_eq_of_le]
    · omega
    · omega
  · cases h

/-- Index of a cell, computed with `int` that wraps around. -/
def MapConfig.indexWrapped (config : MapConfig) (cell : Int × Int) : Int :=
  wrapInt (wrapInt (cell.2 * config.width.toNat) + cell.1)

theorem MapConfig.indexWrapped_of_index
    {config : MapConfig} {cell : Int × Int} {i : Int}
    (h : config.index cell = .ok i) :
    config.indexWrapped cell = i := by
  obtain ⟨row, hrow, hindex⟩ := exists_of_bind_ok h
  rw [indexWrapped, wrapInt_of_checkInt hrow, wrapInt_of_checkInt hindex]

namespace Map

variable {m m' : Map}

def placeEntityWrapped (m : Map) (e : Entity) : Except Fault Map := do
  let prevPos ← m.gridAt (m.config.indexWrapped e.prevCell)
  let newPos ← m.gridAt (m.config.indexWrapped e.cell)
  pure ((m.setCell prevPos none).setCell newPos (some e))

def updateEntitiesWrapped
    (m : Map) (vecptr : VecPtr) (newEntities : List Entity)
    (buffer : TSConsoleBuffer) :
    Except Fault (Map × TSConsoleBuffer) := do
  let m' ←
    (newEntities.take (2 ^ 31)).foldlM placeEntityWrapped
      { m with entitiesExternal := some vecptr }
  let buffer' ← m'.render buffer
  pure (m', buffer')

theorem placeEntityWrapped_of_placeEntity
    {e : Entity}
    (h : m.placeEntity e = .ok m') :
    m.placeEntityWrapped e = .ok m' := by
  obtain ⟨prev, hprev, h⟩ := exists_of_bind_ok h
  obtain ⟨prevPos, hprevPos, h⟩ := exists_of_bind_ok h
  obtain ⟨pos, hpos, h⟩ := exists_of_bind_ok h
  obtain ⟨newPos, hnewPos, h⟩ := exists_of_bind_ok h
  cases h
  rw [placeEntityWrapped, MapConfig.indexWrapped_of_index hprev,
    MapConfig.indexWrapped_of_index hpos, hprevPos, bind_ok, hnewPos, bind_ok]
  rfl

theorem foldlM_placeEntityWrapped
    {es : List Entity}
    (h : es.foldlM placeEntity m = .ok m') :
    es.foldlM placeEntityWrapped m = .ok m' := by
  induction es generalizing m with
  | nil =>
      exact h
  | cons e es ih =>
      rw [List.foldlM_cons] at h ⊢
      obtain ⟨m₁, hone, hrest⟩ := exists_of_bind_ok h
      rw [placeEntityWrapped_of_placeEntity hone, bind_ok]
      exact ih hrest

/-- What a call gives without an overflow, it gives on a machine that wraps
around. -/
theorem updateEntitiesWrapped_of_updateEntities
    {vecptr : VecPtr} {es : List Entity} {buffer buffer' : TSConsoleBuffer}
    (h : m.updateEntities vecptr es buffer = .ok (m', buffer')) :
    m.updateEntitiesWrapped vecptr es buffer = .ok (m', buffer') := by
  obtain ⟨m₁, hplace, h⟩ := exists_of_bind_ok h
  obtain ⟨m₂, hfold, hcount⟩ := exists_of_bind_ok hplace
  split at hcount
  · rename_i hlen
    cases hcount
    unfold updateEntitiesWrapped
    rw [List.take_of_length_le (Nat.le_of_lt hlen),
      foldlM_placeEntityWrapped hfold, bind_ok]
    exact h
  · cases hcount

end Map

end SpeciesSimulator
