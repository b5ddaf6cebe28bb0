import SpeciesSimulator.MapGrid

/-!
# The numbers of a map

The fields of a `MapConfig` are 16-bit.  The constructor of `Map` compares the
end of a map with the end of the console in `int`, but stores the corrected offset
in 16 bits.  It counts the cells of the grid in `int`; so does `update_entities`
with the index of a cell, whereas `check_pos` uses `size_t`.

Main facts:
* `clampTo_wellPlaced_iff`: the constructor places a map well, if and only if the
  map fits the console;
* `make_indexAgrees_iff`: the grid has all cells, and both kinds of index find
  them, if and only if they can be counted in an `int`.
-/

namespace SpeciesSimulator

namespace MapConfig

section Offsets

/-- What the constructor makes of an offset, on one axis. -/
def clampOffset (offset size screen : UInt16) : UInt16 :=
  if screen.toNat < size.toNat + offset.toNat then screen - size else offset

/-- On one axis: the map fits the console. -/
structure AxisPlaced (offset size screen stored : UInt16) : Prop where
  /-- A map that fits does not leave the console. -/
  inside : size.toNat ≤ screen.toNat → stored.toNat + size.toNat ≤ screen.toNat
  /-- An offset that already fitted is unchanged. -/
  kept : offset.toNat + size.toNat ≤ screen.toNat → stored = offset
  /-- No offset is made larger. -/
  notLarger : stored.toNat ≤ offset.toNat
  /-- A corrected offset is the difference, which did not wrap around. -/
  exact :
    screen.toNat < size.toNat + offset.toNat →
      (stored.toNat : Int) = screen.toNat - size.toNat

/-- Where a map should be that was asked for at some offset. -/
structure WellPlaced
    (layout : WinConsoleLayout) (requested stored : MapConfig) : Prop where
  columns :
    AxisPlaced requested.x requested.width layout.nScreenWidth stored.x
  rows :
    AxisPlaced requested.y requested.height layout.nScreenHeight stored.y

/-- The map is not larger than the console. -/
def Fits (config : MapConfig) (layout : WinConsoleLayout) : Prop :=
  config.width.toNat ≤ layout.nScreenWidth.toNat ∧
    config.height.toNat ≤ layout.nScreenHeight.toNat

instance (config : MapConfig) (layout : WinConsoleLayout) :
    Decidable (config.Fits layout) :=
  inferInstanceAs (Decidable (_ ∧ _))

variable {offset size screen : UInt16}

/-- The constructor treats both axes alike. -/
theorem clampTo_x (config : MapConfig) (layout : WinConsoleLayout) :
    (config.clampTo layout).x =
      clampOffset config.x config.width layout.nScreenWidth := by
  unfold clampTo clampOffset
  dsimp only
  split_ifs <;> rfl

theorem clampTo_y (config : MapConfig) (layout : WinConsoleLayout) :
    (config.clampTo layout).y =
      clampOffset config.y config.height layout.nScreenHeight := by
  unfold clampTo clampOffset
  dsimp only
  split_ifs <;> rfl

/-- The offset of a map that fits is moved no more than it has to be. -/
theorem clampOffset_of_le
    (h : size.toNat ≤ screen.toNat) :
    (clampOffset offset size screen).toNat =
      min offset.toNat (screen.toNat - size.toNat) := by
  unfold clampOffset
  split
  · rw [UInt16.toNat_sub]
    have hscreen := screen.toNat_lt
    omega
  · omega

/-- The offset of a map that is too large wraps around. -/
theorem clampOffset_of_lt
    (offset : UInt16)
    (h : screen.toNat < size.toNat) :
    (clampOffset offset size screen).toNat =
      2 ^ 16 + screen.toNat - size.toNat := by
  unfold clampOffset
  rw [if_pos (by omega), UInt16.toNat_sub]
  have hsize := size.toNat_lt
  omega

/-- An axis is right, if and only if the map fits there. -/
theorem clampOffset_placed_iff :
    AxisPlaced offset size screen (clampOffset offset size screen) ↔
      size.toNat ≤ screen.toNat := by
  constructor
  · intro h
    by_contra hlt
    have hexact := h.exact (by omega)
    omega
  · intro hle
    have hstored :
        (clampOffset offset size screen).toNat =
          min offset.toNat (screen.toNat - size.toNat) :=
      clampOffset_of_le hle
    refine ⟨fun _ => by omega, fun hfits => ?_, by omega, fun hlt => by omega⟩
    exact if_neg (by omega)

/-- An offset is not made larger, if and only if the map fits, or the number that
wraps around is still small enough. -/
theorem clampOffset_le_iff :
    (clampOffset offset size screen).toNat ≤ offset.toNat ↔
      size.toNat ≤ screen.toNat ∨
        2 ^ 16 + screen.toNat ≤ offset.toNat + size.toNat := by
  rcases Nat.lt_or_ge screen.toNat size.toNat with hlt | hle
  · rw [clampOffset_of_lt offset hlt]
    omega
  · rw [clampOffset_of_le hle]
    omega

end Offsets

end MapConfig

namespace Map

section Placement

/-- The offset that the constructor stores is the corrected one.  It is right in
all respects, if and only if the map fits the console.  It is not larger than the
requested one, if and only if on each axis the map fits or the number that wraps
around is small enough. -/
theorem clampTo_wellPlaced_iff
    (console : WinConsole) (config : MapConfig) (vecptr : Option VecPtr) :
    (∀ m, make console config vecptr = .ok m →
      m.config = config.clampTo console.layout) ∧
    (MapConfig.WellPlaced console.layout config
        (config.clampTo console.layout) ↔
      config.Fits console.layout) ∧
    (((config.clampTo console.layout).x.toNat ≤ config.x.toNat ∧
        (config.clampTo console.layout).y.toNat ≤ config.y.toNat) ↔
      (config.width.toNat ≤ console.layout.nScreenWidth.toNat ∨
        2 ^ 16 + console.layout.nScreenWidth.toNat ≤
          config.x.toNat + config.width.toNat) ∧
      (config.height.toNat ≤ console.layout.nScreenHeight.toNat ∨
        2 ^ 16 + console.layout.nScreenHeight.toNat ≤
          config.y.toNat + config.height.toNat)) := by
  refine ⟨fun m hmake => ?_, ?_, ?_⟩
  · unfold make at hmake
    split at hmake
    · cases hmake
      rfl
    · cases hmake
  · constructor
    · rintro ⟨hcolumns, hrows⟩
      rw [MapConfig.clampTo_x] at hcolumns
      rw [MapConfig.clampTo_y] at hrows
      exact ⟨MapConfig.clampOffset_placed_iff.mp hcolumns,
        MapConfig.clampOffset_placed_iff.mp hrows⟩
    · rintro ⟨hwidth, hheight⟩
      constructor
      · rw [MapConfig.clampTo_x]
        exact MapConfig.clampOffset_placed_iff.mpr hwidth
      · rw [MapConfig.clampTo_y]
        exact MapConfig.clampOffset_placed_iff.mpr hheight
  · rw [MapConfig.clampTo_x, MapConfig.clampTo_y]
    exact
      and_congr MapConfig.clampOffset_le_iff MapConfig.clampOffset_le_iff

/-- A map of 10 columns that would leave a console of 60. -/
theorem clampTo_wellPlaced_iff_moved :
    ∃ m,
      make ⟨{}⟩ { x := 55, width := 10, height := 10 } none = .ok m ∧
        m.config.x = 50 ∧
        MapConfig.WellPlaced {} { x := 55, width := 10, height := 10 }
          m.config := by
  obtain ⟨m, hmake, hx⟩ :
      ∃ m,
        make ⟨{}⟩ { x := 55, width := 10, height := 10 } none = .ok m ∧
          m.config.x = 50 :=
    ⟨_, rfl, rfl⟩
  refine ⟨m, hmake, hx, ?_⟩
  rw [(clampTo_wellPlaced_iff _ _ _).1 m hmake]
  exact
    (clampTo_wellPlaced_iff ⟨{}⟩ { x := 55, width := 10, height := 10 }
      none).2.1.mpr (by decide)

/-- A map of 61 columns on a console of 60. -/
theorem clampTo_wellPlaced_iff_fails_wide :
    ∃ m,
      make ⟨{ nScreenWidth := 60, nScreenHeight := 30 }⟩
        { width := 61, height := 30 } none = .ok m ∧
        m.config.x = 65535 ∧
        ¬ MapConfig.WellPlaced { nScreenWidth := 60, nScreenHeight := 30 }
          { width := 61, height := 30 } m.config := by
  refine ⟨_, rfl, rfl, fun h => ?_⟩
  have hle := h.columns.notLarger
  revert hle
  decide

end Placement

section Counting

/-- The index of `update_entities` is that of a cell in the grid, and it is the
cell that `check_pos` reads. -/
def SameCell (m : Map) (x y : Nat) : Prop :=
  ∃ i, m.config.index (x, y) = .ok i ∧ 0 ≤ i ∧
    i < m.entitiesInternalMap.length ∧
    ∀ entity, (m.setCell i.toNat entity).checkPos x y = .ok entity

/-- The constructor makes a grid with all cells of the map, whatever it contains
later, and the index computations agree for each of them. -/
def IndexAgrees
    (console : WinConsole) (config : MapConfig) (vecptr : Option VecPtr) :
    Prop :=
  ∃ m, make console config vecptr = .ok m ∧
    m.entitiesInternalMap.length =
      config.width.toNat * config.height.toNat ∧
    ∀ m' : Map, m'.config = m.config →
      ∀ x < config.width.toNat, ∀ y < config.height.toNat, m'.SameCell x y

/-- The computations agree on every cell of a map that was made. -/
theorem sameCell_of_contains
    {m : Map} {x y : Nat}
    (h : m.config.Contains (x, y)) :
    m.SameCell x y := by
  have hlt := position_lt_length h
  refine
    ⟨m.config.position (x, y), MapConfig.index_of_contains m.area_lt h,
      Int.natCast_nonneg _, Int.ofNat_lt.mpr hlt, fun entity => ?_⟩
  have hcontains :
      (m.setCell (m.config.position (x, y)) entity).config.Contains (x, y) := h
  rw [Int.toNat_natCast, checkPos_eq_lookup hcontains, lookup_setCell h,
    Function.update_self]

/-- The grid has all cells and the index computations agree on them, if and only
if the number of cells is in the range of `int`. -/
theorem make_indexAgrees_iff
    (console : WinConsole) (config : MapConfig) (vecptr : Option VecPtr) :
    IndexAgrees console config vecptr ↔
      config.width.toNat * config.height.toNat < 2 ^ 31 := by
  constructor
  · rintro ⟨m, hmake, -, -⟩
    by_contra hsize
    unfold make at hmake
    rw [dif_neg hsize] at hmake
    cases hmake
  · intro hsize
    obtain ⟨m, hmake, hconfig, hgrid⟩ := exists_make console vecptr hsize
    refine ⟨m, hmake, ?_, fun m' hm' x hx y hy => ?_⟩
    · rw [hgrid, List.length_replicate]
    · refine sameCell_of_contains ?_
      rw [hm', hconfig]
      unfold MapConfig.Contains
      rw [MapConfig.clampTo_width, MapConfig.clampTo_height]
      exact
        ⟨Int.natCast_nonneg _, Int.ofNat_lt.mpr hx, Int.natCast_nonneg _,
          Int.ofNat_lt.mpr hy⟩

/-- The largest map that can be asked for. -/
theorem make_indexAgrees_iff_fails_largest :
    make ⟨{}⟩ { width := 65535, height := 65535 } none = .error .overflow ∧
      ¬ IndexAgrees ⟨{}⟩ { width := 65535, height := 65535 } none := by
  have hmake :
      make ⟨{}⟩ { width := 65535, height := 65535 } none =
        .error .overflow := by
    unfold make
    exact dif_neg (by decide)
  refine ⟨hmake, ?_⟩
  rintro ⟨m, hmake', -, -⟩
  rw [hmake] at hmake'
  cases hmake'

end Counting

end Map

end SpeciesSimulator
