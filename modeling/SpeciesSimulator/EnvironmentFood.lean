import SpeciesSimulator.EnvironmentTiles
import SpeciesSimulator.MapMoves

/-!
# Food

`m_create_entities` fills the vector of each map with food at random positions,
and then updates the map with it.  One entity and one counter are used for all
maps; the positions are drawn from `[1, width - 1)` and `[1, height - 1)` and cut
off to numbers.

Main facts:
* `FoodInv.step`: every step has a result, and keeps what is on the maps in line
  with the position of the thread;
* `food_placed`: when all steps are done, each vector has its food, inside the
  walls and with ids of its own, and each grid shows the food of its vector.
-/

namespace SpeciesSimulator

open ListSlots PointMoves Transition

namespace Map

section Standing

variable {m m' : Map} {es : List Entity}

/-- The map shows the entities of the list, and no others. -/
structure ShowsAll (m : Map) (es : List Entity) : Prop where
  only : m.OnlyShows es
  all : ∀ e ∈ es, m.lookup e.cell ≠ none

/-- An empty map that is updated with entities that stand still shows them. -/
theorem showsAll_of_updateEntities
    {vecptr : VecPtr} {b b' : TSConsoleBuffer}
    (hempty : ∀ cell, m.lookup cell = none)
    (hinside : ∀ e ∈ es, m.config.Contains e.cell ∧ e.prevCell = e.cell)
    (h : m.updateEntities vecptr es b = .ok (m', b')) :
    m'.config = m.config ∧ m'.ShowsAll es := by
  have hinside' : ∀ e ∈ es, e.Inside m.config := by
    intro e he
    obtain ⟨hcell, hstill⟩ := hinside e he
    refine ⟨hcell, ?_⟩
    rw [hstill]
    exact hcell
  obtain ⟨hconfig, hlookup⟩ := lookup_of_updateEntities hinside' h
  have hleft : m.LeftBy es := by
    intro cell e he
    rw [hempty] at he
    cases he
  refine ⟨hconfig, onlyShows_of_leftBy hinside' hleft h, ?_⟩
  intro e he hnone
  rw [hlookup, applyAll_eq_none_iff] at hnone
  rcases hnone with hvacates | ⟨_, huntouched⟩
  · refine not_vacates_of_still ?_ hvacates
    intro move hmove
    obtain ⟨e', he', rfl⟩ := List.mem_map.mp hmove
    exact (hinside e' he').2
  · exact huntouched e.move (List.mem_map_of_mem he) rfl

/-- A position is occupied if an entity of the list is there. -/
theorem ShowsAll.checkPos_iff
    {x y : Nat}
    (h : m.ShowsAll es)
    (hcell : m.config.Contains (x, y)) :
    (∃ e, m.checkPos x y = .ok (some e)) ↔
      ∃ e ∈ es, e.x.toNat = x ∧ e.y.toNat = y := by
  rw [checkPos_eq_lookup hcell]
  simp only [Except.ok.injEq]
  constructor
  · rintro ⟨e, he⟩
    obtain ⟨hmem, hplace⟩ := h.only _ e he
    simp only [Entity.cell, Prod.mk.injEq] at hplace
    exact ⟨e, hmem, by omega, by omega⟩
  · rintro ⟨e, he, rfl, rfl⟩
    exact Option.ne_none_iff_exists'.mp (h.all e he)

/-- A cell where no entity of the list is stays as it was drawn. -/
theorem ShowsAll.shownAt_render
    {b b' : TSConsoleBuffer} {cell : Int × Int}
    (h : m.ShowsAll es)
    (hcovers : Covers m.config b)
    (hrender : m.render b = .ok b')
    (hcell : m.config.Contains cell)
    (hfree : ∀ e ∈ es, e.cell ≠ cell) :
    shownAt m.config b' cell = shownAt m.config b cell := by
  have hplaced : m.Placed := fun cell e he => (h.only cell e he).2
  have hnone : m.lookup cell = none := by
    by_contra hsome
    obtain ⟨e, he⟩ := Option.ne_none_iff_exists'.mp hsome
    obtain ⟨hmem, hplace⟩ := h.only cell e he
    exact hfree e hmem hplace
  rw [Map.shownAt_render hplaced hcovers hcell hrender, hnone]

end Standing

end Map

namespace EnvPc

/-- How many entities have been placed on all maps. -/
def placed (nmaps : Nat) : EnvPc → Nat
  | .created => 0
  | .startUp => 0
  | .instanciateMaps _ => 0
  | .createEntities mapCounter i => mapCounter * maxFoodPerMap + i
  | .updateEntities mapCounter => (mapCounter + 1) * maxFoodPerMap
  | .running => nmaps * maxFoodPerMap

/-- The map at a place has been updated with its vector. -/
def Updated (place : Nat) : EnvPc → Prop
  | .created => False
  | .startUp => False
  | .instanciateMaps _ => False
  | .createEntities mapCounter _ => place < mapCounter
  | .updateEntities mapCounter => place < mapCounter
  | .running => True

/-- Nothing is placed before the first entity. -/
theorem Unfed.nothing
    {pc : EnvPc}
    (h : pc.Unfed)
    (nmaps : Nat) :
    pc.placed nmaps = 0 ∧ ∀ j, pc.fed j = 0 ∧ ¬ pc.Updated j := by
  cases pc with
  | startUp => exact ⟨rfl, fun _ => ⟨rfl, id⟩⟩
  | instanciateMaps i => exact ⟨rfl, fun _ => ⟨rfl, id⟩⟩
  | createEntities mapCounter i =>
      obtain ⟨rfl, rfl⟩ := h
      refine ⟨rfl, fun j => ⟨?_, Nat.not_lt_zero j⟩⟩
      simp [fed]
  | created => exact h.elim
  | updateEntities mapCounter => exact h.elim
  | running => exact h.elim

end EnvPc

namespace Environment

section Model

/-- Food with a certain id that stands inside the walls of its map. -/
structure IsFood
    (config : MapConfig) (nmaps id : Nat) (e : Entity) : Prop where
  id : e.id = UInt64.ofNat id
  left : 0 < e.x.toNat
  right : e.x.toNat + 1 < config.width.toNat / nmaps
  top : 0 < e.y.toNat
  bottom : e.y.toNat + 1 < config.height.toNat
  still : e.prevCell = e.cell

/-- What is on the maps is in line with the position of the thread. -/
structure FoodInv
    (config : MapConfig) (nmaps : Nat)
    (p : Environment × List (List Entity)) : Prop where
  started : p.1.pc ≠ .created
  tiled : Tiled config nmaps p.1
  startup : StartupInv nmaps p.1 p.2
  counter : ∀ mapCounter i, p.1.pc = .createEntities mapCounter i →
    mapCounter < nmaps ∨ mapCounter = nmaps ∧ i = 0
  updating : ∀ mapCounter, p.1.pc = .updateEntities mapCounter →
    mapCounter < nmaps
  idCount : p.1.idCount = UInt64.ofNat (p.1.pc.placed nmaps)
  food : Every
    (fun j vector =>
      Every (fun k e => IsFood config nmaps (j * maxFoodPerMap + k) e) vector)
    p.2
  grids : Every
    (fun j m =>
      (p.1.pc.Updated j → ∀ vector, p.2[j]? = some vector →
        m.ShowsAll vector) ∧
      (¬ p.1.pc.Updated j → ∀ cell, m.lookup cell = none))
    p.1.maps

end Model

section Steps

variable {console : WinConsole} {config : MapConfig} {nmaps : Nat}
  {p q : Environment × List (List Entity)}

/-- What is made of a number that `rand` returns. -/
theorem toNat_of_drawn
    {size r : Int}
    (hsize : 3 ≤ size)
    (hlt : size < 2 ^ 16)
    (hdrawn : Drawn 1 (size - 1) r) :
    0 < (UInt16.ofInt r).toNat ∧ ((UInt16.ofInt r).toNat : Int) + 1 < size := by
  obtain ⟨hlow, hhigh⟩ := hdrawn (by omega)
  rw [toNat_ofInt (by omega) (by omega)]
  omega

/-- All maps are made when the first entity is placed. -/
theorem FoodInv.maps_length
    (h : FoodInv config nmaps p)
    (hrounds : ∀ mapCount, p.1.pc.rounds mapCount = mapCount.toNat) :
    p.1.maps.length = nmaps := by
  rw [h.startup.maps_length, rounds, hrounds, h.tiled.mapCount,
    Int.toNat_natCast]

/-- The next entity is food that stands inside the walls. -/
theorem isFood_tempEntity
    {env : Environment} {id : Nat} {randx randy : Int}
    (ht : Tiled config nmaps env)
    (hwide : 3 ≤ config.width.toNat / nmaps)
    (hhigh : 3 ≤ config.height.toNat)
    (hid : env.idCount = UInt64.ofNat id)
    (hx : Drawn 1 (env.mapWidth - 1) randx)
    (hy : Drawn 1 (env.mapHeight - 1) randy) :
    IsFood config nmaps id (env.tempEntity randx randy) := by
  rw [ht.mapWidth] at hx
  rw [ht.mapHeight] at hy
  have hle := Nat.div_le_self config.width.toNat nmaps
  have hwidth := lt_of_le_of_lt hle config.width.toNat_lt
  have hheight := config.height.toNat_lt
  obtain ⟨hleft, hright⟩ :=
    toNat_of_drawn (Int.ofNat_le.mpr hwide) (Int.ofNat_lt.mpr hwidth) hx
  obtain ⟨htop, hbottom⟩ :=
    toNat_of_drawn (Int.ofNat_le.mpr hhigh) (Int.ofNat_lt.mpr hheight) hy
  refine ⟨hid, hleft, Int.ofNat_lt.mp hright, htop, Int.ofNat_lt.mp hbottom, ?_⟩
  simp [Entity.prevCell, Entity.cell, tempEntity]

/-- As long as the maps are being made, there is nothing on them. -/
theorem foodInv_of_built
    (hp : Built config nmaps p)
    (hfits : Tileable console config nmaps)
    (hstart : StartupInv nmaps p.1 p.2)
    (hunfed : p.1.pc.Unfed)
    (hid : p.1.idCount = 0) :
    FoodInv config nmaps p := by
  obtain ⟨env, vectors⟩ := p
  dsimp only at hstart hunfed hid
  obtain ⟨hplaced, hnothing⟩ := hunfed.nothing nmaps
  have hnone :
      ∀ (j : Nat) (vector : List Entity), vectors[j]? = some vector →
        vector = [] := by
    intro j vector hj
    refine List.eq_nil_of_length_eq_zero ?_
    rw [hstart.fed j vector hj]
    exact (hnothing j).1
  refine
    { started := ?_
      tiled := hp.tiled
      startup := hstart
      counter := ?_
      updating := ?_
      idCount := ?_
      food := ?_
      grids := ?_ }
  · intro hpc
    rw [hpc] at hunfed
    exact hunfed
  · intro mapCounter i hpc
    rw [hpc] at hunfed
    rw [hunfed.1]
    exact Or.inl hfits.pos
  · intro mapCounter hpc
    rw [hpc] at hunfed
    exact hunfed.elim
  · rw [hplaced]
    exact hid
  · intro j vector hj
    rw [hnone j vector hj]
    exact every_nil
  · intro j m hj
    exact
      ⟨fun hupdated => absurd hupdated (hnothing j).2,
        fun _ => hp.empty m (List.mem_of_getElem? hj)⟩

/-- The steps that make the maps do not place anything. -/
theorem idCount_of_unfed
    {env env' : Environment} {vectors vectors' : List (List Entity)}
    (hstep : EnvironmentStep console env vectors env' vectors')
    (h : env'.pc.Unfed) :
    env'.idCount = env.idCount := by
  cases hstep with
  | startUp => rfl
  | instanciateMap => rfl
  | mapsDone => rfl
  | createEntity => cases h.2
  | mapFed => rfl
  | entitiesDone => rfl
  | updateEntities => rfl

/-- The steps that make the maps. -/
theorem FoodInv.building_step
    (h : FoodInv config nmaps p)
    (hfits : Tileable console config nmaps)
    (hunfed : p.1.pc.Unfed)
    (hpc : p.1.pc ≠ .createEntities 0 0) :
    ∃ q, (∀ r, advance console p r = some q) ∧ FoodInv config nmaps q := by
  obtain ⟨hplaced, hnothing⟩ := hunfed.nothing nmaps
  have hcount := h.tiled.mapCount
  have hbuilt : Built config nmaps p :=
    { tiled := h.tiled
      maps_length := h.startup.maps_length
      maps_le := by
        have hle := h.startup.rounds_le
        rw [h.startup.maps_length]
        omega
      vectors_length := h.startup.vectors_length
      empty := by
        intro m hm
        obtain ⟨j, hj⟩ := List.mem_iff_getElem?.mp hm
        exact (h.grids j m hj).2 (hnothing j).2 }
  obtain ⟨q, hadvance, hq, hunfed', -⟩ := hbuilt.step hfits hunfed hpc
  have hstep := environmentStep_of_advance (hadvance (1, 1))
  have hid := h.idCount
  rw [hplaced] at hid
  refine ⟨q, hadvance, foodInv_of_built hq hfits ?_ hunfed' ?_⟩
  · exact hstep.startupInv h.startup
  · rw [idCount_of_unfed hstep hunfed', hid]
    rfl

/-- A round of the inner loop of `m_create_entities` places one entity. -/
theorem FoodInv.createEntity_step
    (h : FoodInv config nmaps p)
    (hwide : 3 ≤ config.width.toNat / nmaps)
    (hhigh : 3 ≤ config.height.toNat)
    {mapCounter i : Nat}
    (hpc : p.1.pc = .createEntities mapCounter i)
    (hmap : mapCounter < nmaps)
    (hi : i < maxFoodPerMap)
    {randx randy : Int}
    (hx : Drawn 1 (p.1.mapWidth - 1) randx)
    (hy : Drawn 1 (p.1.mapHeight - 1) randy) :
    ∃ q, p.1.step console p.2 randx randy = some (.ok q) ∧
      FoodInv config nmaps q := by
  obtain ⟨env, vectors⟩ := p
  dsimp only at hpc hx hy ⊢
  have hlen : mapCounter < vectors.length := by
    rw [h.startup.vectors_length]
    exact hmap
  have hstep :
      env.step console vectors randx randy =
        some
          (.ok
            ({ env with
                idCount := env.idCount + 1
                pc := .createEntities mapCounter (i + 1) },
              vectors.modify mapCounter
                (· ++ [env.tempEntity randx randy]))) := by
    simp only [step, hpc, hlen, hi, if_true]
    rw [if_pos ⟨hx, hy⟩]
  have hid := h.idCount
  dsimp only at hid
  rw [hpc, EnvPc.placed] at hid
  have hgrids := h.grids
  dsimp only at hgrids
  rw [hpc] at hgrids
  refine ⟨_, hstep, ?_⟩
  exact
    { started := by simp
      tiled := { h.tiled with }
      startup := (step_cases hstep).startupInv h.startup
      counter := by
        intro mapCounter' i' hpc'
        cases hpc'
        exact Or.inl hmap
      updating := by simp
      idCount := by
        change env.idCount + 1 = _
        rw [hid, EnvPc.placed, ← Nat.add_assoc]
        exact (UInt64.ofNat_add _ 1).symm
      food := by
        refine h.food.modify fun vector hvector hfood => hfood.concat ?_
        have hfed := h.startup.fed mapCounter vector hvector
        simp only [hpc, EnvPc.fed, Nat.lt_irrefl, if_true, if_false] at hfed
        rw [hfed]
        exact isFood_tempEntity h.tiled hwide hhigh hid hx hy
      grids := by
        refine hgrids.mono fun j m _ hm => ⟨?_, hm.2⟩
        intro hupdated vector hvector
        have hlt : j < mapCounter := hupdated
        refine hm.1 hupdated vector ?_
        rw [List.getElem?_modify] at hvector
        simpa [Nat.ne_of_gt hlt] using hvector }

/-- At the end of the inner loop, the map is to be updated. -/
theorem FoodInv.mapFed_step
    (h : FoodInv config nmaps p)
    {mapCounter i : Nat}
    (hpc : p.1.pc = .createEntities mapCounter i)
    (hmap : mapCounter < nmaps)
    (hi : ¬ i < maxFoodPerMap)
    (randx randy : Int) :
    ∃ q, p.1.step console p.2 randx randy = some (.ok q) ∧
      FoodInv config nmaps q := by
  obtain ⟨env, vectors⟩ := p
  dsimp only at hpc ⊢
  have hlen : mapCounter < vectors.length := by
    rw [h.startup.vectors_length]
    exact hmap
  have hstep :
      env.step console vectors randx randy =
        some (.ok ({ env with pc := .updateEntities mapCounter }, vectors)) := by
    simp only [step, hpc, hlen, hi, if_true, if_false]
  have hle := h.startup.fed_le mapCounter i hpc
  have hid := h.idCount
  have hgrids := h.grids
  dsimp only at hid hgrids
  rw [hpc] at hid hgrids
  refine ⟨_, hstep, ?_⟩
  exact
    { started := by simp
      tiled := { h.tiled with }
      startup := (step_cases hstep).startupInv h.startup
      counter := by simp
      updating := by
        intro mapCounter' hpc'
        cases hpc'
        exact hmap
      idCount := by
        have hplaced :
            (mapCounter + 1) * maxFoodPerMap =
              mapCounter * maxFoodPerMap + i := by
          rw [Nat.succ_mul]
          omega
        rw [EnvPc.placed, hplaced]
        exact hid
      food := h.food
      grids := hgrids }

/-- When there is food on all maps, the thread is done. -/
theorem FoodInv.entitiesDone_step
    (h : FoodInv config nmaps p)
    {mapCounter i : Nat}
    (hpc : p.1.pc = .createEntities mapCounter i)
    (hmap : ¬ mapCounter < nmaps)
    (randx randy : Int) :
    ∃ q, p.1.step console p.2 randx randy = some (.ok q) ∧
      FoodInv config nmaps q := by
  obtain ⟨env, vectors⟩ := p
  dsimp only at hpc ⊢
  have hlen : ¬ mapCounter < vectors.length := by
    rw [h.startup.vectors_length]
    exact hmap
  have hstep :
      env.step console vectors randx randy =
        some (.ok ({ env with pc := .running }, vectors)) := by
    simp only [step, hpc, hlen, if_false]
  obtain ⟨rfl, rfl⟩ := (h.counter mapCounter i hpc).resolve_left hmap
  have hmaps : env.maps.length = mapCounter :=
    h.maps_length fun _ => by rw [hpc]; rfl
  have hid := h.idCount
  have hgrids := h.grids
  dsimp only at hid hgrids
  rw [hpc] at hid hgrids
  simp only [EnvPc.placed, Nat.add_zero] at hid
  refine ⟨_, hstep, ?_⟩
  exact
    { started := by simp
      tiled := { h.tiled with }
      startup := (step_cases hstep).startupInv h.startup
      counter := by simp
      updating := by simp
      idCount := hid
      food := h.food
      grids := by
        refine hgrids.mono fun j m hj hm => ⟨fun _ => hm.1 ?_, ?_⟩
        · change j < mapCounter
          rw [← hmaps]
          exact (List.getElem?_eq_some_iff.mp hj).1
        · exact fun hnot => absurd trivial hnot }

/-- Food stands on cells of its map. -/
theorem IsFood.contains
    {id j : Nat} {e : Entity}
    (h : IsFood config nmaps id e) :
    (tileConfig config nmaps j).Contains e.cell := by
  have hright := h.right
  have hbottom := h.bottom
  refine ⟨Int.natCast_nonneg _, ?_, Int.natCast_nonneg _, ?_⟩
  · rw [tileConfig_width]
    exact Int.ofNat_lt.mpr (by omega)
  · exact Int.ofNat_lt.mpr (by rw [tileConfig_height]; omega)

/-- Updating a map shows the food of its vector. -/
theorem FoodInv.updateEntities_step
    (h : FoodInv config nmaps p)
    {mapCounter : Nat}
    (hpc : p.1.pc = .updateEntities mapCounter)
    (randx randy : Int) :
    ∃ q, p.1.step console p.2 randx randy = some (.ok q) ∧
      FoodInv config nmaps q := by
  have hmap := h.updating mapCounter hpc
  obtain ⟨env, vectors⟩ := p
  dsimp only at hpc ⊢
  have hmaps : env.maps.length = nmaps :=
    h.maps_length fun _ => by rw [hpc]; rfl
  have hid := h.idCount
  have hgrids := h.grids
  dsimp only at hid hgrids
  rw [hpc] at hid hgrids
  have hvectors : vectors.length = nmaps := h.startup.vectors_length
  obtain ⟨m, hm⟩ : ∃ m, env.maps[mapCounter]? = some m :=
    ⟨_, List.getElem?_eq_getElem (hmaps ▸ hmap)⟩
  obtain ⟨vector, hv⟩ : ∃ vector, vectors[mapCounter]? = some vector :=
    ⟨_, List.getElem?_eq_getElem (hvectors ▸ hmap)⟩
  have hconfig := h.tiled.tiles mapCounter m hm
  have hempty := (hgrids mapCounter m hm).2 (Nat.lt_irrefl mapCounter)
  have hstill : ∀ e ∈ vector, m.config.Contains e.cell ∧ e.prevCell = e.cell := by
    intro e he
    obtain ⟨k, hk⟩ := List.mem_iff_getElem?.mp he
    have hfood := h.food mapCounter vector hv k e hk
    rw [hconfig]
    exact ⟨hfood.contains, hfood.still⟩
  have hinside : ∀ e ∈ vector, e.Inside m.config := by
    intro e he
    obtain ⟨hcell, hprev⟩ := hstill e he
    exact ⟨hcell, by rw [hprev]; exact hcell⟩
  have hshort : vector.length < 2 ^ 31 :=
    lt_of_le_of_lt (h.startup.vector_length hv) (by decide)
  obtain ⟨m', b', hupdate, -⟩ :=
    Map.updateEntities_refines mapCounter h.tiled.sized hinside hshort
  obtain ⟨hconfig', hshows⟩ :=
    Map.showsAll_of_updateEntities hempty hstill hupdate
  obtain ⟨hsized, hwidth, hheight⟩ :=
    Screen.sized_of_updateEntities h.tiled.sized hupdate
  have hstep :
      env.step console vectors randx randy =
        some
          (.ok
            ({ env with
                maps := env.maps.set mapCounter m'
                buffer := b'
                pc := .createEntities (mapCounter + 1) 0 }, vectors)) := by
    simp only [step, hpc, hm, hv, hupdate, bind_ok, pure_eq_ok]
  refine ⟨_, hstep, ?_⟩
  exact
    { started := by simp
      tiled :=
        { h.tiled with
          sized := hsized
          bufferWidth := hwidth.trans h.tiled.bufferWidth
          bufferHeight := hheight.trans h.tiled.bufferHeight
          tiles := h.tiled.tiles.set fun _ => hconfig'.trans hconfig }
      startup := (step_cases hstep).startupInv h.startup
      counter := by
        intro mapCounter' i hpc'
        cases hpc'
        omega
      updating := by simp
      idCount := by
        simpa only [EnvPc.placed, Nat.add_zero] using hid
      food := h.food
      grids := by
        refine hgrids.set_mono ?_ fun _ => ⟨?_, ?_⟩
        · rintro j m₁ hne ⟨hupdated, hnot⟩
          simp only [EnvPc.Updated] at hupdated hnot ⊢
          exact ⟨fun hlt => hupdated (by omega), fun hge => hnot (by omega)⟩
        · intro _ vector' hv'
          obtain rfl := Option.some.inj (hv.symm.trans hv')
          exact hshows
        · exact fun hnot => absurd (Nat.lt_succ_self mapCounter) hnot }

/-- Every step has a result, unless it waits for a random number in range. -/
theorem FoodInv.step
    (h : FoodInv config nmaps p)
    (hfits : Tileable console config nmaps)
    (hwide : 3 ≤ config.width.toNat / nmaps)
    (hhigh : 3 ≤ config.height.toNat)
    (hpc : p.1.pc ≠ .running)
    (randx randy : Int) :
    (∃ q, p.1.step console p.2 randx randy = some (.ok q) ∧
        FoodInv config nmaps q) ∨
      p.1.step console p.2 randx randy = none ∧
        ¬ (Drawn 1 (p.1.mapWidth - 1) randx ∧
          Drawn 1 (p.1.mapHeight - 1) randy) := by
  have hbuilding (hunfed : p.1.pc.Unfed)
      (hne : p.1.pc ≠ .createEntities 0 0) :
      ∃ q, p.1.step console p.2 randx randy = some (.ok q) ∧
        FoodInv config nmaps q := by
    obtain ⟨q, hadvance, hq⟩ := h.building_step hfits hunfed hne
    have hstep := hadvance (randx, randy)
    unfold advance at hstep
    split at hstep
    · next q' hstep' =>
      cases hstep
      exact ⟨q, hstep', hq⟩
    · cases hstep
  cases hcase : p.1.pc with
  | created => exact absurd hcase h.started
  | startUp =>
      left
      exact hbuilding (by rw [hcase]; trivial) (by simp [hcase])
  | instanciateMaps i =>
      left
      exact hbuilding (by rw [hcase]; trivial) (by simp [hcase])
  | createEntities mapCounter i =>
      by_cases hmap : mapCounter < nmaps
      · by_cases hi : i < maxFoodPerMap
        · by_cases hdrawn :
            Drawn 1 (p.1.mapWidth - 1) randx ∧ Drawn 1 (p.1.mapHeight - 1) randy
          · left
            exact
              h.createEntity_step hwide hhigh hcase hmap hi hdrawn.1 hdrawn.2
          · right
            have hlen := h.startup.vectors_length
            refine ⟨?_, hdrawn⟩
            simp only [Environment.step, hcase, hlen, hmap, hi, if_true]
            rw [if_neg hdrawn]
        · left
          exact h.mapFed_step hcase hmap hi randx randy
      · left
        exact h.entitiesDone_step hcase hmap randx randy
  | updateEntities mapCounter =>
      left
      exact h.updateEntities_step hcase randx randy
  | running => exact absurd hcase hpc

/-- No step fails. -/
theorem FoodInv.step_ne_error
    (h : FoodInv config nmaps p)
    (hfits : Tileable console config nmaps)
    (hwide : 3 ≤ config.width.toNat / nmaps)
    (hhigh : 3 ≤ config.height.toNat)
    (randx randy : Int) (fault : Fault) :
    p.1.step console p.2 randx randy ≠ some (.error fault) := by
  by_cases hpc : p.1.pc = .running
  · simp [Environment.step, hpc]
  · rcases h.step hfits hwide hhigh hpc randx randy with
      ⟨q, hstep, _⟩ | ⟨hstep, _⟩
    · simp [hstep]
    · simp [hstep]

theorem FoodInv.advance
    {r : Int × Int}
    (h : FoodInv config nmaps p)
    (hfits : Tileable console config nmaps)
    (hwide : 3 ≤ config.width.toNat / nmaps)
    (hhigh : 3 ≤ config.height.toNat)
    (hadvance : Environment.advance console p r = some q) :
    FoodInv config nmaps q := by
  unfold Environment.advance at hadvance
  split at hadvance
  · next q' hstep =>
    cases hadvance
    have hpc : p.1.pc ≠ .running := by
      intro hpc
      simp [Environment.step, hpc] at hstep
    rcases h.step hfits hwide hhigh hpc r.1 r.2 with
      ⟨q', hstep', hq⟩ | ⟨hstep', _⟩
    · rw [hstep] at hstep'
      cases hstep'
      exact hq
    · rw [hstep] at hstep'
      cases hstep'
  · cases hadvance

/-- The start-up comes closer to its end when a one is drawn. -/
theorem FoodInv.progress
    (h : FoodInv config nmaps p)
    (hfits : Tileable console config nmaps)
    (hwide : 3 ≤ config.width.toNat / nmaps)
    (hhigh : 3 ≤ config.height.toNat)
    (hpc : p.1.pc ≠ .running) :
    ∃ r q, Environment.advance console p r = some q ∧
      FoodInv config nmaps q ∧ distance nmaps q < distance nmaps p := by
  have hdrawn : ∀ max, Drawn 1 max 1 := by
    intro max hmax
    exact ⟨Int.le_refl 1, Or.inr rfl⟩
  rcases h.step hfits hwide hhigh hpc 1 1 with ⟨q, hstep, hq⟩ | ⟨_, hnot⟩
  · have hadvance : Environment.advance console p (1, 1) = some q := by
      simp only [Environment.advance, hstep]
    have hlt :=
      (step_cases hstep).distance_lt h.startup h.tiled.mapCount h.updating
    exact ⟨(1, 1), q, hadvance, hq, hlt⟩
  · exact absurd ⟨hdrawn _, hdrawn _⟩ hnot

end Steps

section Result

variable {console : WinConsole} {config : MapConfig} {nmaps : Nat}
  {p q : Environment × List (List Entity)}

/-- The cell is at a border of the map. -/
def AtBorder (config : MapConfig) (cell : Int × Int) : Prop :=
  config.Contains cell ∧
    (cell.1 = 0 ∨ cell.1 = config.width.toNat - 1 ∨
      cell.2 = 0 ∨ cell.2 = config.height.toNat - 1)

/-- Each vector has its food, with ids of its own and inside the walls, and each
grid shows the food of its vector. -/
structure FoodPlaced
    (config : MapConfig) (nmaps : Nat)
    (p : Environment × List (List Entity)) : Prop where
  maps_length : p.1.maps.length = nmaps
  vectors_length : p.2.length = nmaps
  full : ∀ vector ∈ p.2, vector.length = maxFoodPerMap
  ids : ∀ (j k j' k' : Nat) (vector vector' : List Entity) (e e' : Entity),
    p.2[j]? = some vector → vector[k]? = some e →
      p.2[j']? = some vector' → vector'[k']? = some e' →
        e.id = e'.id → j = j' ∧ k = k'
  inside : ∀ vector ∈ p.2, ∀ e ∈ vector,
    0 < e.x.toNat ∧ e.x.toNat < config.width.toNat / nmaps - 1 ∧
      0 < e.y.toNat ∧ e.y.toNat < config.height.toNat - 1
  occupied : ∀ (j : Nat) (m : Map) (vector : List Entity),
    p.1.maps[j]? = some m → p.2[j]? = some vector →
      ∀ x y, x < m.config.width.toNat → y < m.config.height.toNat →
        ((∃ e, m.checkPos x y = .ok (some e)) ↔
          ∃ e ∈ vector, e.x.toNat = x ∧ e.y.toNat = y)
  walls : ∀ m ∈ p.1.maps, ∀ b b' cell, Map.Covers m.config b →
    m.render b = .ok b' → AtBorder m.config cell →
      Map.shownAt m.config b' cell = Map.shownAt m.config b cell

/-- Food does not stand at a border. -/
theorem IsFood.not_atBorder
    {id j : Nat} {e : Entity}
    (h : IsFood config nmaps id e) :
    ¬ AtBorder (tileConfig config nmaps j) e.cell := by
  rintro ⟨_, hborder⟩
  have hleft := h.left
  have hright := h.right
  have htop := h.top
  have hbottom := h.bottom
  have hwidth := tileConfig_width config nmaps j
  simp only [Entity.cell, tileConfig_height] at hborder
  omega

/-- Ids that are counted over all maps are different. -/
theorem FoodInv.ids
    (h : FoodInv config nmaps p)
    (hfits : Tileable console config nmaps)
    {j k j' k' : Nat} {vector vector' : List Entity} {e e' : Entity}
    (hv : p.2[j]? = some vector)
    (he : vector[k]? = some e)
    (hv' : p.2[j']? = some vector')
    (he' : vector'[k']? = some e')
    (hid : e.id = e'.id) :
    j = j' ∧ k = k' := by
  have hbound {j k : Nat} {vector : List Entity} {e : Entity}
      (hv : p.2[j]? = some vector)
      (he : vector[k]? = some e) :
      j < 2 ^ 16 ∧ k < maxFoodPerMap := by
    have hj := (List.getElem?_eq_some_iff.mp hv).1
    have hk := (List.getElem?_eq_some_iff.mp he).1
    have hlen := h.startup.vectors_length
    have hwide := hfits.wide
    have hlt := config.width.toNat_lt
    exact ⟨by omega, lt_of_lt_of_le hk (h.startup.vector_length hv)⟩
  obtain ⟨hj, hk⟩ := hbound hv he
  obtain ⟨hj', hk'⟩ := hbound hv' he'
  have hfood := (h.food j vector hv k e he).id
  have hfood' := (h.food j' vector' hv' k' e' he').id
  rw [hfood, hfood'] at hid
  have hsame := congrArg UInt64.toNat hid
  have hsize : UInt64.size = 2 ^ 64 := rfl
  unfold maxFoodPerMap at hsame hk hk'
  rw [UInt64.toNat_ofNat_of_lt' (by omega),
    UInt64.toNat_ofNat_of_lt' (by omega)] at hsame
  omega

/-- What holds when the thread is done. -/
theorem FoodInv.foodPlaced
    (h : FoodInv config nmaps p)
    (hfits : Tileable console config nmaps)
    (hpc : p.1.pc = .running) :
    FoodPlaced config nmaps p := by
  have hmaps : p.1.maps.length = nmaps :=
    h.maps_length fun _ => by rw [hpc]; rfl
  have hshows :
      ∀ (j : Nat) (m : Map), p.1.maps[j]? = some m →
        ∃ vector, p.2[j]? = some vector ∧ m.ShowsAll vector := by
    intro j m hj
    have hlt : j < p.2.length := by
      rw [h.startup.vectors_length, ← hmaps]
      exact (List.getElem?_eq_some_iff.mp hj).1
    have hv := List.getElem?_eq_getElem hlt
    have hupdated : p.1.pc.Updated j := by
      rw [hpc]
      trivial
    exact ⟨_, hv, (h.grids j m hj).1 hupdated _ hv⟩
  have hfood :
      ∀ vector ∈ p.2, ∀ e ∈ vector, ∃ id, IsFood config nmaps id e := by
    intro vector hvector e he
    obtain ⟨j, hj⟩ := List.mem_iff_getElem?.mp hvector
    obtain ⟨k, hk⟩ := List.mem_iff_getElem?.mp he
    exact ⟨_, h.food j vector hj k e hk⟩
  refine
    { maps_length := hmaps
      vectors_length := h.startup.vectors_length
      full := ?_
      ids := fun _ _ _ _ _ _ _ _ => h.ids hfits
      inside := ?_
      occupied := ?_
      walls := ?_ }
  · intro vector hvector
    obtain ⟨j, hj⟩ := List.mem_iff_getElem?.mp hvector
    rw [h.startup.fed j vector hj, hpc]
    rfl
  · intro vector hvector e he
    obtain ⟨id, he⟩ := hfood vector hvector e he
    have hright := he.right
    have hbottom := he.bottom
    exact ⟨he.left, by omega, he.top, by omega⟩
  · intro j m vector hm hv x y hx hy
    obtain ⟨vector', hv', hall⟩ := hshows j m hm
    obtain rfl := Option.some.inj (hv.symm.trans hv')
    have hcell : m.config.Contains ((x : Int), (y : Int)) :=
      ⟨Int.natCast_nonneg x, Int.ofNat_lt.mpr hx, Int.natCast_nonneg y,
        Int.ofNat_lt.mpr hy⟩
    exact hall.checkPos_iff hcell
  · intro m hm b b' cell hcovers hrender hborder
    obtain ⟨j, hj⟩ := List.mem_iff_getElem?.mp hm
    obtain ⟨vector, hv, hall⟩ := hshows j m hj
    refine hall.shownAt_render hcovers hrender hborder.1 ?_
    rintro e hmem rfl
    obtain ⟨id, he⟩ := hfood vector (List.mem_of_getElem? hv) e hmem
    rw [h.tiled.tiles j m hj] at hborder
    exact he.not_atBorder hborder

/-- No step of the start-up fails, whatever numbers are drawn; when it is done,
there is food on all maps; and it can always be finished. -/
theorem food_placed
    (hfits : Tileable console config nmaps)
    (hwide : 3 ≤ config.width.toNat / nmaps)
    (hhigh : 3 ≤ config.height.toNat) :
    ∃ env, make console config nmaps = .ok env ∧
      ∀ rs q,
        run (advance console)
            ({ env with pc := .startUp }, List.replicate nmaps []) rs =
          some q →
        (∀ randx randy fault,
          q.1.step console q.2 randx randy ≠ some (.error fault)) ∧
        (q.1.pc = .running → FoodPlaced config nmaps q) ∧
        ∃ rs' q', run (advance console) q rs' = some q' ∧
          q'.1.pc = .running := by
  obtain ⟨env, hmake, htiled, hid, hmaps⟩ := hfits.exists_make
  have hbuilt :
      Built config nmaps
        ({ env with pc := .startUp }, List.replicate nmaps []) :=
    { tiled := { htiled with }
      maps_length := by simp [rounds, EnvPc.rounds, hmaps]
      maps_le := by simp [hmaps]
      vectors_length := List.length_replicate
      empty := by simp [hmaps] }
  have hstartup :
      StartupInv nmaps ({ env with pc := .startUp } : Environment)
        (List.replicate nmaps []) :=
    { maps_length := by simp [rounds, EnvPc.rounds, hmaps]
      rounds_le := Nat.zero_le _
      pointers := by
        dsimp only
        rw [hmaps]
        exact every_nil
      vectors_length := List.length_replicate
      fed := by
        intro j vector hj
        rw [List.eq_of_mem_replicate (List.mem_of_getElem? hj)]
        rfl
      fed_le := by simp }
  have hstart := foodInv_of_built hbuilt hfits hstartup trivial hid
  refine ⟨env, hmake, fun rs q hrun => ?_⟩
  have hq : FoodInv config nmaps q := by
    refine reachable_invariant ?_ hstart ⟨rs, hrun⟩
    exact fun p r q hp hadvance => hp.advance hfits hwide hhigh hadvance
  refine ⟨hq.step_ne_error hfits hwide hhigh, hq.foodPlaced hfits, ?_⟩
  obtain ⟨rs', q', hrun', _, hgoal⟩ :=
    exists_run_of_progress (distance nmaps)
      (fun p hp hpc => hp.progress hfits hwide hhigh hpc) hq
  exact ⟨rs', q', hrun', hgoal⟩

/-- Two maps of three columns each have room for their food. -/
theorem food_placed_two :
    ∃ env rs q, make ⟨{}⟩ { width := 6, height := 3 } 2 = .ok env ∧
      run (advance ⟨{}⟩) ({ env with pc := .startUp }, [[], []]) rs = some q ∧
      FoodPlaced { width := 6, height := 3 } 2 q := by
  have hfits : Tileable ⟨{}⟩ { width := 6, height := 3 } 2 := by
    constructor <;> decide
  obtain ⟨env, hmake, hall⟩ := food_placed hfits (by decide) (by decide)
  obtain ⟨_, _, rs, q, hrun, hpc⟩ := hall [] _ rfl
  exact ⟨env, rs, q, hmake, hrun, (hall rs q hrun).2.1 hpc⟩

end Result

end Environment

end SpeciesSimulator
