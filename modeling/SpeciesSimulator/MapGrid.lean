import SpeciesSimulator.Lib.PointMoves
import SpeciesSimulator.Map

/-!
# The grid of a map

What a map is for: a partial function from cells to entities (`lookup`), on
which `update_entities` applies the last moves of a list of entities.  The grid
of the map refines it, as long as the cells are cells of the map.

`update_entities` clears the previous cell of each entity and writes its
current one, entity after entity.  It thereby erases an entity whose cell a
later entity of the list has just left.

Main facts:
* `updateEntities_refines`: `update_entities` is `PointMoves.applyAll`;
* `updateEntities_present_iff`: every entity of the list can be looked up
  where it is, if and only if no entity comes from the cell of an earlier one.
-/

namespace SpeciesSimulator

open PointMoves

namespace Entity

/-- The last move of an entity. -/
def move (e : Entity) : Move (Int × Int) Entity :=
  ⟨e.prevCell, e.cell, e⟩

/-- Where an entity is and where it was are cells of the map. -/
def Inside (config : MapConfig) (e : Entity) : Prop :=
  config.Contains e.cell ∧ config.Contains e.prevCell

instance (config : MapConfig) (e : Entity) : Decidable (e.Inside config) :=
  inferInstanceAs (Decidable (_ ∧ _))

end Entity

namespace MapConfig

/-- Place of a cell in the grid. -/
def position (config : MapConfig) (cell : Int × Int) : Nat :=
  cell.2.toNat * config.width.toNat + cell.1.toNat

theorem position_lt
    {config : MapConfig} {cell : Int × Int}
    (h : config.Contains cell) :
    config.position cell < config.width.toNat * config.height.toNat := by
  obtain ⟨hx, hx', hy, hy'⟩ := h
  exact TSConsoleBuffer.index_lt (by omega) (by omega)

/-- Different cells have different places. -/
theorem position_inj
    {config : MapConfig} {cell cell' : Int × Int}
    (h : config.Contains cell)
    (h' : config.Contains cell')
    (heq : config.position cell = config.position cell') :
    cell = cell' := by
  obtain ⟨hx, hxw, hy, hyh⟩ := h
  obtain ⟨hx', hxw', hy', hyh'⟩ := h'
  unfold position at heq
  have hmod := congrArg (· % config.width.toNat) heq
  have hdiv := congrArg (· / config.width.toNat) heq
  have hw : 0 < config.width.toNat := by omega
  have hlt : cell.1.toNat < config.width.toNat := by omega
  have hlt' : cell'.1.toNat < config.width.toNat := by omega
  simp only [Nat.mul_add_mod_self_right, Nat.mod_eq_of_lt hlt,
    Nat.mod_eq_of_lt hlt'] at hmod
  rw [Nat.mul_comm, Nat.mul_comm cell'.2.toNat] at hdiv
  simp only [Nat.mul_add_div hw, Nat.div_eq_of_lt hlt,
    Nat.div_eq_of_lt hlt', Nat.add_zero] at hdiv
  refine Prod.ext ?_ ?_
  · omega
  · omega

/-- The index of a cell of the map does not overflow. -/
theorem index_of_contains
    {config : MapConfig} {cell : Int × Int}
    (hsize : config.width.toNat * config.height.toNat < 2 ^ 31)
    (h : config.Contains cell) :
    config.index cell = .ok (config.position cell : Int) := by
  have hlt := position_lt h
  obtain ⟨hx, hx', hy, hy'⟩ := h
  have hrow :
      cell.2 * config.width.toNat =
        ((cell.2.toNat * config.width.toNat : Nat) : Int) := by
    rw [Int.natCast_mul, Int.toNat_of_nonneg hy]
  have hpos :
      cell.2 * config.width.toNat + cell.1 =
        (config.position cell : Int) := by
    rw [hrow, position, Int.natCast_add, Int.toNat_of_nonneg hx]
  have hrowle : cell.2.toNat * config.width.toNat ≤ config.position cell :=
    Nat.le_add_right _ _
  have hcheck :
      checkInt (cell.2 * config.width.toNat) =
        .ok (cell.2 * config.width.toNat) := by
    rw [hrow]
    exact checkInt_of_range (by omega) (by omega)
  have hcheck' :
      checkInt (cell.2 * config.width.toNat + cell.1) =
        .ok (config.position cell : Int) := by
    rw [hpos]
    exact checkInt_of_range (by omega) (by omega)
  simp only [index, hcheck, hcheck', bind_ok]

end MapConfig

namespace Map

section Lookup

/-- What the map shows at a cell. -/
def lookup (m : Map) (cell : Int × Int) : Option Entity :=
  if m.config.Contains cell then
    (m.entitiesInternalMap[m.config.position cell]?).join
  else
    none

theorem area_lt (m : Map) :
    m.config.width.toNat * m.config.height.toNat < 2 ^ 31 := by
  rw [← m.length_eq]
  exact m.length_lt

theorem position_lt_length
    {m : Map} {cell : Int × Int}
    (h : m.config.Contains cell) :
    m.config.position cell < m.entitiesInternalMap.length := by
  rw [m.length_eq]
  exact MapConfig.position_lt h

/-- `at` finds the cells of the map. -/
theorem gridAt_position
    {m : Map} {cell : Int × Int}
    (h : m.config.Contains cell) :
    m.gridAt (m.config.position cell) = .ok (m.config.position cell) := by
  have hlt := position_lt_length h
  have hguard :
      0 ≤ (m.config.position cell : Int) ∧
        (m.config.position cell : Int) < m.entitiesInternalMap.length := by
    omega
  simp only [gridAt]
  rw [if_pos hguard, Int.toNat_natCast]

/-- `check_pos` looks up a cell of the map. -/
theorem checkPos_eq_lookup
    {m : Map} {x y : Nat}
    (h : m.config.Contains (x, y)) :
    m.checkPos x y = .ok (m.lookup (x, y)) := by
  have hlt := position_lt_length h
  have hsize := m.length_lt
  have hpos : m.config.position (x, y) = y * m.config.width.toNat + x := by
    simp [MapConfig.position]
  have hmod :
      (y * m.config.width.toNat + x) % 2 ^ 64 = m.config.position (x, y) := by
    rw [hpos] at hlt ⊢
    exact Nat.mod_eq_of_lt (by omega)
  simp only [checkPos, hmod, lookup]
  rw [if_pos h, List.getElem?_eq_getElem hlt]
  rfl

/-- Replacing the content of a cell of the map. -/
theorem lookup_setCell
    {m : Map} {cell : Int × Int}
    (h : m.config.Contains cell)
    (entity : Option Entity) :
    (m.setCell (m.config.position cell) entity).lookup =
      Function.update m.lookup cell entity := by
  funext cell'
  have hlt := position_lt_length h
  by_cases hcell : cell' = cell
  · subst hcell
    rw [Function.update_self]
    simp [lookup, setCell, h, hlt]
  · rw [Function.update_of_ne hcell]
    by_cases h' : m.config.Contains cell'
    · have hne : m.config.position cell ≠ m.config.position cell' := by
        intro heq
        exact hcell (MapConfig.position_inj h h' heq).symm
      simp [lookup, setCell, h', List.getElem?_set_ne hne]
    · simp [lookup, setCell, h']

end Lookup

section Construction

/-- The constructor has a result for every map whose cells can be counted in
an `int`: an empty map, moved so that it does not leave the console. -/
theorem exists_make
    (console : WinConsole) {config : MapConfig} (vecptr : Option VecPtr)
    (hsize : config.width.toNat * config.height.toNat < 2 ^ 31) :
    ∃ m, make console config vecptr = .ok m ∧
      m.config = config.clampTo console.layout ∧
      m.entitiesInternalMap =
        List.replicate (config.width.toNat * config.height.toNat) none := by
  exact ⟨_, dif_pos hsize, rfl, rfl⟩

/-- A map that was just made is empty. -/
theorem lookup_of_make
    {console : WinConsole} {config : MapConfig} {vecptr : Option VecPtr}
    {m : Map}
    (h : make console config vecptr = .ok m)
    (cell : Int × Int) :
    m.lookup cell = none := by
  unfold make at h
  split at h
  · cases h
    unfold lookup
    split
    · rw [List.getElem?_replicate]
      split
      · rfl
      · rfl
    · rfl
  · cases h

theorem exists_makeWithBuffer
    (console : WinConsole) {config : MapConfig} (vecptr : Option VecPtr)
    (hsize : config.width.toNat * config.height.toNat < 2 ^ 31) :
    ∃ m buffer,
      makeWithBuffer console config vecptr = .ok (m, buffer) ∧
      buffer.Sized ∧
      m.config = config.clampTo console.layout ∧
      m.entitiesInternalMap =
        List.replicate (config.width.toNat * config.height.toNat) none := by
  obtain ⟨m, hmake, hconfig, hgrid⟩ := exists_make console vecptr hsize
  obtain ⟨buffer, hbuffer⟩ :
      ∃ buffer, TSConsoleBuffer.make config.width.toNat config.height.toNat =
        .ok buffer :=
    ⟨_, if_pos hsize⟩
  have hsized := (TSConsoleBuffer.sized_of_make hbuffer).1
  refine ⟨m, buffer, ?_, hsized, hconfig, hgrid⟩
  simp only [makeWithBuffer, hbuffer, hmake, bind_ok, pure_eq_ok]

end Construction

section Update

/-- The maps that differ in the content of their cells only. -/
structure SameFrame (m m' : Map) : Prop where
  config : m'.config = m.config
  conLay : m'.conLay = m.conLay
  entitiesExternal : m'.entitiesExternal = m.entitiesExternal

theorem SameFrame.trans
    {m₁ m₂ m₃ : Map}
    (h₁ : SameFrame m₁ m₂)
    (h₂ : SameFrame m₂ m₃) :
    SameFrame m₁ m₃ where
  config := h₂.config.trans h₁.config
  conLay := h₂.conLay.trans h₁.conLay
  entitiesExternal := h₂.entitiesExternal.trans h₁.entitiesExternal

/-- One round of the loop is one move. -/
theorem placeEntity_refines
    {m : Map} {e : Entity}
    (h : e.Inside m.config) :
    ∃ m', m.placeEntity e = .ok m' ∧ SameFrame m m' ∧
      m'.lookup = e.move.apply m.lookup := by
  have hprev := MapConfig.index_of_contains m.area_lt h.2
  have hcur := MapConfig.index_of_contains m.area_lt h.1
  refine
    ⟨(m.setCell (m.config.position e.prevCell) none).setCell
      (m.config.position e.cell) (some e), ?_, ⟨rfl, rfl, rfl⟩, ?_⟩
  · simp only [placeEntity, hprev, hcur, gridAt_position h.1,
      gridAt_position h.2, bind_ok, pure_eq_ok]
  · have hfirst := lookup_setCell h.2 none
    have hsecond :=
      lookup_setCell
        (m := m.setCell (m.config.position e.prevCell) none) h.1 (some e)
    rw [hfirst] at hsecond
    exact hsecond

/-- The loop of `update_entities` applies the moves in order. -/
theorem foldlM_placeEntity_refines
    {m : Map} {es : List Entity}
    (h : ∀ e ∈ es, e.Inside m.config) :
    ∃ m', es.foldlM placeEntity m = .ok m' ∧ SameFrame m m' ∧
      m'.lookup = applyAll m.lookup (es.map Entity.move) := by
  induction es generalizing m with
  | nil =>
      exact ⟨m, rfl, ⟨rfl, rfl, rfl⟩, rfl⟩
  | cons e es ih =>
      obtain ⟨m₁, hplace, hframe, hlookup⟩ :=
        placeEntity_refines (h e (by simp))
      have htail : ∀ e' ∈ es, e'.Inside m₁.config := by
        intro e' he'
        rw [hframe.config]
        exact h e' (List.mem_cons_of_mem _ he')
      obtain ⟨m₂, hfold, hframe', hlookup'⟩ := ih htail
      refine ⟨m₂, ?_, hframe.trans hframe', ?_⟩
      · rw [List.foldlM_cons, hplace, bind_ok, hfold]
      · rw [hlookup', hlookup]
        rfl

/-- Drawing into a buffer with its own memory has a result. -/
theorem exists_render
    (m : Map) {buffer : TSConsoleBuffer}
    (h : buffer.Sized) :
    ∃ buffer', m.render buffer = .ok buffer' ∧ buffer'.Sized ∧
      buffer'.width = buffer.width ∧ buffer'.height = buffer.height := by
  unfold render
  generalize m.entitiesInternalMap = cells
  induction cells generalizing buffer with
  | nil =>
      exact ⟨buffer, rfl, h, rfl, rfl⟩
  | cons cell cells ih =>
      obtain ⟨b₁, hwrite, hsized, hwidth, hheight⟩ :
          ∃ b₁, m.renderCell buffer cell = .ok b₁ ∧ b₁.Sized ∧
            b₁.width = buffer.width ∧ b₁.height = buffer.height := by
        cases cell with
        | none => exact ⟨buffer, rfl, h, rfl, rfl⟩
        | some e => exact h.writeCharacter _ _ _
      obtain ⟨b₂, hrest, hsized', hwidth', hheight'⟩ := ih hsized
      refine
        ⟨b₂, ?_, hsized', hwidth'.trans hwidth, hheight'.trans hheight⟩
      rw [List.foldlM_cons, hwrite, bind_ok, hrest]

/-- `update_entities` applies the last moves of the entities. -/
theorem updateEntities_refines
    {m : Map} (vecptr : VecPtr) {es : List Entity}
    {buffer : TSConsoleBuffer}
    (hsized : buffer.Sized)
    (hinside : ∀ e ∈ es, e.Inside m.config)
    (hlen : es.length < 2 ^ 31) :
    ∃ m' buffer',
      m.updateEntities vecptr es buffer = .ok (m', buffer') ∧
      m'.config = m.config ∧
      buffer'.Sized ∧
      m'.conLay = m.conLay ∧
      m'.entitiesExternal = some vecptr ∧
      m'.lookup = applyAll m.lookup (es.map Entity.move) := by
  obtain ⟨m', hfold, hframe, hlookup⟩ :=
    foldlM_placeEntity_refines
      (m := { m with entitiesExternal := some vecptr }) hinside
  obtain ⟨buffer', hrender, hsized', _⟩ := m'.exists_render hsized
  refine
    ⟨m', buffer', ?_, hframe.config, hsized', hframe.conLay,
      hframe.entitiesExternal, hlookup⟩
  simp only [updateEntities, placeEntities, hfold, hlen, hrender, if_true,
    bind_ok, pure_eq_ok]

end Update

section Presence

/-- Entities in different cells of a map are no more than its cells. -/
theorem length_lt_of_distinct
    {m : Map} {es : List Entity}
    (hinside : ∀ e ∈ es, e.Inside m.config)
    (hdistinct : es.Pairwise fun e e' => e'.cell ≠ e.cell) :
    es.length < 2 ^ 31 := by
  have hnodup : (es.map fun e => m.config.position e.cell).Nodup := by
    unfold List.Nodup
    rw [List.pairwise_map]
    refine hdistinct.imp_of_mem fun he he' hne heq => hne ?_
    exact (MapConfig.position_inj (hinside _ he).1 (hinside _ he').1 heq).symm
  have hsub :
      (es.map fun e => m.config.position e.cell) ⊆
        List.range (m.config.width.toNat * m.config.height.toNat) := by
    intro i hi
    obtain ⟨e, he, rfl⟩ := List.mem_map.mp hi
    exact List.mem_range.mpr (MapConfig.position_lt (hinside e he).1)
  have hle := hnodup.length_le_of_subset hsub
  rw [List.length_map, List.length_range] at hle
  exact lt_of_le_of_lt hle m.area_lt

/-- Every entity of the list can be looked up where it is. -/
def Shows (m : Map) (es : List Entity) : Prop :=
  ∀ e ∈ es, m.checkPos e.x.toNat e.y.toNat = .ok (some e)

/-- A map shows what its abstract grid holds. -/
theorem shows_iff
    {m : Map} {es : List Entity}
    (hinside : ∀ e ∈ es, e.Inside m.config) :
    m.Shows es ↔ ∀ e ∈ es, m.lookup e.cell = some e := by
  refine forall₂_congr fun e he => ?_
  have hcell : m.config.Contains ((e.x.toNat : Int), (e.y.toNat : Int)) :=
    (hinside e he).1
  rw [checkPos_eq_lookup hcell]
  simp [Entity.cell]

/-- Every entity of the list can be looked up after `update_entities`, if and
only if none comes from the cell of an earlier one; and this holds for every
order of the list, if and only if none comes from the cell of another one. -/
theorem updateEntities_present_iff
    (m : Map) (vecptr : VecPtr) {es : List Entity}
    {buffer : TSConsoleBuffer}
    (hsized : buffer.Sized)
    (hinside : ∀ e ∈ es, e.Inside m.config)
    (hdistinct : es.Pairwise fun e e' => e'.cell ≠ e.cell) :
    ((∃ m' buffer', m.updateEntities vecptr es buffer = .ok (m', buffer') ∧
        m'.Shows es) ↔
      es.Pairwise fun earlier later => later.prevCell ≠ earlier.cell) ∧
    ((∀ es', List.Perm es' es →
        ∃ m' buffer', m.updateEntities vecptr es' buffer = .ok (m', buffer') ∧
          m'.Shows es) ↔
      es.Pairwise fun e e' =>
        e'.prevCell ≠ e.cell ∧ e.prevCell ≠ e'.cell) := by
  have hall :
      ∀ es', List.Perm es' es →
        ((∃ m' buffer',
            m.updateEntities vecptr es' buffer = .ok (m', buffer') ∧
              m'.Shows es) ↔
          Undisturbed (es'.map Entity.move)) := by
    intro es' hperm
    have hinside' : ∀ e ∈ es', e.Inside m.config :=
      fun e he => hinside e (hperm.mem_iff.mp he)
    have hsep : Separate (es'.map Entity.move) := by
      unfold Separate
      rw [List.pairwise_map]
      exact hdistinct.perm hperm.symm fun hne => hne.symm
    have hlen : es'.length < 2 ^ 31 := by
      rw [hperm.length_eq]
      exact length_lt_of_distinct hinside hdistinct
    obtain ⟨m', buffer', hupdate, hconfig, _, _, _, hlookup⟩ :=
      updateEntities_refines vecptr hsized hinside' hlen
    have hshows : m'.Shows es ↔ Undisturbed (es'.map Entity.move) := by
      rw [shows_iff (by rw [hconfig]; exact hinside), hlookup,
        ← present_iff m.lookup hsep, List.forall_mem_map]
      exact forall_congr' fun e => by rw [hperm.mem_iff]; rfl
    rw [← hshows]
    constructor
    · rintro ⟨m₁, b₁, h₁, hshow⟩
      rw [hupdate] at h₁
      cases h₁
      exact hshow
    · intro hshow
      exact ⟨m', buffer', hupdate, hshow⟩
  constructor
  · rw [hall es (List.Perm.refl es)]
    unfold Undisturbed
    rw [List.pairwise_map]
    rfl
  · have hundisturbed := undisturbed_perm_iff Entity.move es
    rw [← forall₂_congr hall] at hundisturbed
    exact hundisturbed

end Presence

section Steps

/-- An entity that stepped from cell 0 of a row into cell 1. -/
def firstStep : Entity :=
  { id := 1, x := 1, y := 0, veloX := 1, veloY := 0,
    char := .player, type := .playerobject }

/-- An entity that stepped from cell 1 of a row into cell 2. -/
def secondStep : Entity :=
  { id := 2, x := 2, y := 0, veloX := 1, veloY := 0,
    char := .player, type := .playerobject }

/-- The entity in front comes first in the list. -/
theorem updateEntities_present_in_front :
    ∃ m buffer,
      Map.makeWithBuffer ⟨{}⟩ { width := 3, height := 1 } (some 0) =
        .ok (m, buffer) ∧
      ((∃ m' buffer',
          m.updateEntities 0 [secondStep, firstStep] buffer =
            .ok (m', buffer') ∧
          m'.Shows [secondStep, firstStep]) ↔
        [secondStep, firstStep].Pairwise
          fun earlier later => later.prevCell ≠ earlier.cell) := by
  refine ⟨_, _, rfl, ?_⟩
  refine (updateEntities_present_iff _ 0 ?_ ?_ ?_).1
  · rfl
  · decide
  · decide

/-- The entity behind comes first: it is erased when the other one leaves the
cell it just entered. -/
theorem updateEntities_erases_behind :
    ∃ m buffer m' buffer',
      Map.makeWithBuffer ⟨{}⟩ { width := 3, height := 1 } (some 0) =
        .ok (m, buffer) ∧
      (∀ e ∈ [firstStep, secondStep], e.Inside m.config) ∧
      [firstStep, secondStep].Pairwise (fun e e' => e'.cell ≠ e.cell) ∧
      m.updateEntities 0 [firstStep, secondStep] buffer = .ok (m', buffer') ∧
      m'.checkPos 1 0 = .ok none ∧
      ¬ m'.Shows [firstStep, secondStep] := by
  refine ⟨_, _, _, _, rfl, by decide, by decide, rfl, rfl, ?_⟩
  intro hshows
  have h := hshows firstStep (by simp)
  cases h

end Steps

end Map

end SpeciesSimulator
