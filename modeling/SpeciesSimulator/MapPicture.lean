import SpeciesSimulator.MapAgain

/-!
# What a map looks like

The picture of a map: at each cell its entity, or else the last of its walls that
covers the cell, or else a space.  This is what `start_up` and `update_entities`
are for; neither of them draws it alone, and in the other order they draw
something else.

Main facts:
* `charAfter_startUpWrites`, `charAfter_renderWrites`: what the calls of
  `start_up` and of `render` leave at a cell;
* `ShowsBehind.startUp`: `start_up` puts the walls behind the entities;
* `ShowsBehind.updateEntities`: `update_entities` then draws the whole picture,
  whatever was drawn over the entities;
* `settled_of_updateEntities`: a map that has been updated once is as all further
  updates with the same entities leave it.
-/

namespace SpeciesSimulator

open PointMoves

namespace TSConsoleBuffer

/-- A new buffer is blank. -/
theorem charAt_of_make
    {width height px py : Nat} {b : TSConsoleBuffer}
    (hmake : make width height = .ok b)
    (hx : px < b.width)
    (hy : py < b.height) :
    b.charAt px py = some blank := by
  obtain ⟨ch, hch⟩ := (sized_of_make hmake).1.exists_charAt hx hy
  have hblank : ch = blank := by
    unfold make at hmake
    split at hmake
    · cases hmake
      simp only [charAt] at hch
      split at hch
      · exact List.eq_of_mem_replicate (List.mem_of_getElem? hch)
      · cases hch
    · cases hmake
  rw [hch, hblank]

end TSConsoleBuffer

namespace Map

section Model

/-- The character of the last of the four walls that covers a cell. -/
def wallAt (config : MapConfig) (cell : Int × Int) : Option UInt16 :=
  [config.wallFour, config.wallThree, config.wallTwo,
      config.wallOne].findSome?
    fun wall => wallChar config wall cell

/-- The walls and nothing else. -/
def walled (config : MapConfig) (cell : Int × Int) : UInt16 :=
  (wallAt config cell).getD TSConsoleBuffer.blank

/-- Entities over something else. -/
def drawnOver
    (grid : Int × Int → Option Entity) (under : Int × Int → UInt16)
    (cell : Int × Int) : UInt16 :=
  match grid cell with
  | some e => widen e.char.toByte
  | none => under cell

/-- Where a list of entities leaves them on an empty map. -/
def gridOf (es : List Entity) : Int × Int → Option Entity :=
  applyAll (fun _ => none) (es.map Entity.move)

/-- The picture of a map: its entities over its walls. -/
def picture (config : MapConfig) (es : List Entity) (cell : Int × Int) :
    UInt16 :=
  drawnOver (gridOf es) (walled config) cell

/-- The buffer shows the entities of the map in front of something else. -/
def ShowsFront
    (m : Map) (under : Int × Int → UInt16) (b : TSConsoleBuffer) : Prop :=
  ∀ cell, m.config.Contains cell →
    shownAt m.config b cell = some (drawnOver m.lookup under cell)

/-- Where the map has no entity, the buffer shows something. -/
structure ShowsBehind
    (m : Map) (under : Int × Int → UInt16) (b : TSConsoleBuffer) : Prop where
  placed : m.Placed
  covers : Covers m.config b
  behind : ∀ cell, m.config.Contains cell → m.lookup cell = none →
    shownAt m.config b cell = some (under cell)

/-- A map that was updated with a vector, and shows where its entities are. -/
structure Settled (m : Map) (vecptr : VecPtr) (es : List Entity) : Prop where
  again : placeEntities { m with entitiesExternal := some vecptr } es = .ok m
  lookup : m.lookup = gridOf es
  placed : m.Placed

end Model

section Drawing

variable {m m' : Map} {b b' : TSConsoleBuffer} {cell : Int × Int}
  {under : Int × Int → UInt16}

/-- A buffer that covers a map and shows one character everywhere. -/
def plain (config : MapConfig) (ch : UInt16) : TSConsoleBuffer where
  width := config.x.toNat + config.width.toNat
  height := config.y.toNat + config.height.toNat
  charBuffer :=
    List.replicate
      ((config.x.toNat + config.width.toNat) *
        (config.y.toNat + config.height.toNat))
      ch

theorem covers_plain (config : MapConfig) (ch : UInt16) :
    Covers config (plain config ch) :=
  ⟨List.length_replicate, le_refl _, le_refl _⟩

theorem shownAt_plain
    {config : MapConfig}
    (hcell : config.Contains cell)
    (ch : UInt16) :
    shownAt config (plain config ch) cell = some ch := by
  obtain ⟨hleft, hright, htop, hbottom⟩ := hcell
  have hcovers := covers_plain config ch
  have hx : cell.1.toNat + config.x.toNat < (plain config ch).width := by
    simp only [plain]
    omega
  have hy : cell.2.toNat + config.y.toNat < (plain config ch).height := by
    simp only [plain]
    omega
  obtain ⟨ch', hch'⟩ := hcovers.sized.exists_charAt hx hy
  have hmem := hch'
  simp only [TSConsoleBuffer.charAt, hx, hy, and_self, if_true] at hmem
  have hsame : ch' = ch :=
    List.eq_of_mem_replicate (List.mem_of_getElem? hmem)
  rw [shownAt, hch', hsame]

/-- `start_up` draws the walls in front of what was there. -/
theorem exists_startUp
    (hwidth : 1 ≤ m.config.width.toNat)
    (hheight : 1 ≤ m.config.height.toNat)
    (hcovers : Covers m.config b) :
    ∃ b', m.startUp b = .ok b' ∧
      ∀ cell, m.config.Contains cell →
        shownAt m.config b' cell =
          (wallAt m.config cell).or (shownAt m.config b cell) := by
  obtain ⟨b', hstart, hshows⟩ :=
    foldlM_drawWall_shows
      [m.config.wallOne, m.config.wallTwo, m.config.wallThree,
        m.config.wallFour] hcovers (corners_of_pos hwidth hheight)
  exact ⟨b', hstart, hshows.shown⟩

/-- The calls of `start_up` leave the walls in front of what was there. -/
theorem charAfter_startUpWrites
    (hwidth : 1 ≤ m.config.width.toNat)
    (hheight : 1 ≤ m.config.height.toNat)
    (hcell : m.config.Contains cell)
    (ch : UInt16) :
    TSConsoleBuffer.charAfter (startUpWrites m.config)
        (place m.config cell).1 (place m.config cell).2 (some ch) =
      some ((wallAt m.config cell).getD ch) := by
  have hcovers := covers_plain m.config ch
  obtain ⟨b', hstart, hshown⟩ := exists_startUp hwidth hheight hcovers
  obtain ⟨b'', hwrites, _, hchar⟩ :=
    hcovers.sized.writeAll (startUpWrites m.config)
  have hwrites' := (startUp_eq_ok_iff hwidth hheight).mp hstart
  obtain rfl : b' = b'' := Except.ok.inj (hwrites'.symm.trans hwrites)
  rw [← shownAt_plain hcell ch, shownAt_eq_charAt, ← hchar,
    ← shownAt_eq_charAt, hshown cell hcell, shownAt_plain hcell]
  cases wallAt m.config cell with
  | none => rfl
  | some wall => rfl

/-- The calls of `render` leave the entities in front of what was there. -/
theorem charAfter_renderWrites
    (hplaced : m.Placed)
    (hcell : m.config.Contains cell)
    (ch : UInt16) :
    TSConsoleBuffer.charAfter m.renderWrites
        (place m.config cell).1 (place m.config cell).2 (some ch) =
      some (drawnOver m.lookup (fun _ => ch) cell) := by
  have hcovers := covers_plain m.config ch
  obtain ⟨b', hwrites, _, hchar⟩ := hcovers.sized.writeAll m.renderWrites
  have hshown :=
    shownAt_render hplaced hcovers hcell (render_eq_ok_iff.mpr hwrites)
  rw [← shownAt_plain hcell ch, shownAt_eq_charAt, ← hchar,
    ← shownAt_eq_charAt, hshown, shownAt_plain hcell, drawnOver]
  cases m.lookup cell with
  | some e => rfl
  | none => rfl

/-- A call of `start_up` writes a cell that a wall covers. -/
theorem wallAt_of_mem_startUpWrites
    {w : TSConsoleBuffer.Write}
    (hwidth : 1 ≤ m.config.width.toNat)
    (hheight : 1 ≤ m.config.height.toNat)
    (hcell : m.config.Contains cell)
    (hw : w ∈ startUpWrites m.config)
    (hplace : place m.config cell = (w.xpos, w.ypos)) :
    wallAt m.config cell ≠ none := by
  intro hnone
  -- otherwise the character that was there before would still be there
  have hkept := charAfter_startUpWrites hwidth hheight hcell
  have hsame :
      TSConsoleBuffer.charAfter (startUpWrites m.config)
          (place m.config cell).1 (place m.config cell).2 (some 0) =
        TSConsoleBuffer.charAfter (startUpWrites m.config)
          (place m.config cell).1 (place m.config cell).2 (some 1) :=
    TSConsoleBuffer.charAfter_of_mem rfl ⟨w, hw, by rw [hplace], by rw [hplace]⟩
  rw [hkept, hkept, hnone] at hsame
  cases hsame

/-- A call of `render` draws the entity of its cell. -/
theorem lookup_of_mem_renderWrites
    {w : TSConsoleBuffer.Write}
    (hplaced : m.Placed)
    (hcell : m.config.Contains cell)
    (hw : w ∈ m.renderWrites)
    (hplace : place m.config cell = (w.xpos, w.ypos)) :
    ∃ e, m.lookup cell = some e ∧ w.symb = e.char.toByte := by
  obtain ⟨slot, hslot, hw⟩ := List.mem_flatMap.mp hw
  obtain ⟨e, rfl, rfl⟩ := by
    simpa only [Option.mem_toList, Option.map_eq_some_iff] using hw
  obtain ⟨cell', hcell', hlookup⟩ := exists_lookup_of_mem hslot
  have hown := hplaced cell' e hlookup
  have hsame : cell' = cell := by
    refine place_inj hcell' hcell ?_
    rw [hplace, ← hown]
    rfl
  rw [← hsame]
  exact ⟨e, hlookup, rfl⟩

/-- Walls come in front of everything at first, so that they are right where
there is no entity. -/
theorem ShowsBehind.startUp
    (h : m.ShowsBehind under b)
    (hwidth : 1 ≤ m.config.width.toNat)
    (hheight : 1 ≤ m.config.height.toNat)
    (hstart : m.startUp b = .ok b') :
    m.ShowsBehind
      (fun cell => (wallAt m.config cell).getD (under cell)) b' := by
  obtain ⟨b'', hstart', hshown⟩ := exists_startUp hwidth hheight h.covers
  obtain rfl : b' = b'' := Except.ok.inj (hstart.symm.trans hstart')
  refine ⟨h.placed, covers_startUp h.covers hstart, ?_⟩
  intro cell hcell hnone
  rw [hshown cell hcell, h.behind cell hcell hnone]
  cases wallAt m.config cell with
  | none => rfl
  | some ch => rfl

/-- Drawing the entities completes the picture. -/
theorem ShowsBehind.render
    (h : m.ShowsBehind under b)
    (hrender : m.render b = .ok b') :
    m.ShowsBehind under b' ∧ m.ShowsFront under b' := by
  have hcovers : Covers m.config b' := by
    obtain ⟨b'', hrender', hsized, hwidth, hheight⟩ :=
      m.exists_render h.covers.sized
    obtain rfl : b' = b'' := Except.ok.inj (hrender.symm.trans hrender')
    exact h.covers.of_sameShape ⟨hsized, hwidth, hheight⟩
  have hshown : m.ShowsFront under b' := by
    intro cell hcell
    rw [shownAt_render h.placed h.covers hcell hrender, drawnOver]
    cases hlookup : m.lookup cell with
    | some e => rfl
    | none => exact h.behind cell hcell hlookup
  refine ⟨⟨h.placed, hcovers, fun cell hcell hnone => ?_⟩, hshown⟩
  rw [hshown cell hcell, drawnOver, hnone]

/-- An update that vacates no cell completes the picture of the updated map. -/
theorem ShowsBehind.updateEntities
    {vecptr : VecPtr} {es : List Entity}
    (h : m.ShowsBehind under b)
    (hinside : ∀ e ∈ es, e.Inside m.config)
    (hkept : ∀ cell, m'.lookup cell = none → m.lookup cell = none)
    (hupdate : m.updateEntities vecptr es b = .ok (m', b')) :
    m'.ShowsBehind under b' ∧ m'.ShowsFront under b' := by
  obtain ⟨hconfig, hlookup⟩ := lookup_of_updateEntities hinside hupdate
  have hbehind : m'.ShowsBehind under b := by
    refine ⟨Screen.placed_of_moves h.placed hlookup, ?_, ?_⟩
    · rw [hconfig]
      exact h.covers
    · rw [hconfig]
      exact fun cell hcell hnone => h.behind cell hcell (hkept cell hnone)
  exact hbehind.render (Screen.render_of_updateEntities hupdate)

/-- A new map with its own buffer is blank, if it is at the left upper corner of
its console. -/
theorem showsBehind_of_makeWithBuffer
    {console : WinConsole} {config : MapConfig} {vecptr : Option VecPtr}
    (hmake : makeWithBuffer console config vecptr = .ok (m, b))
    (hx : m.config.x = 0)
    (hy : m.config.y = 0) :
    m.ShowsBehind (fun _ => TSConsoleBuffer.blank) b := by
  obtain ⟨buffer, hbuffer, hmake⟩ := exists_of_bind_ok hmake
  obtain ⟨map, hmap, hmake⟩ := exists_of_bind_ok hmake
  cases hmake
  obtain ⟨hsized, hbwidth, hbheight⟩ := TSConsoleBuffer.sized_of_make hbuffer
  have hempty := lookup_of_make hmap
  have hconfig : m.config = config.clampTo console.layout := by
    unfold make at hmap
    split at hmap
    · cases hmap
      rfl
    · cases hmap
  have hwidth : m.config.width = config.width := by
    rw [hconfig, MapConfig.clampTo_width]
  have hheight : m.config.height = config.height := by
    rw [hconfig, MapConfig.clampTo_height]
  have hcovers : Covers m.config b := by
    refine ⟨hsized, ?_, ?_⟩
    · rw [hx, hwidth, hbwidth]
      simp
    · rw [hy, hheight, hbheight]
      simp
  refine ⟨fun cell e he => by simp [hempty] at he, hcovers, ?_⟩
  intro cell hcell _
  obtain ⟨hleft, hright, htop, hbottom⟩ := hcell
  have hcr := hcovers.right
  have hcb := hcovers.bottom
  exact TSConsoleBuffer.charAt_of_make hbuffer (by omega) (by omega)

/-- The entities of a map are at cells of it. -/
theorem Placed.gridInside
    (h : m.Placed) :
    m.GridInside := by
  intro e he
  obtain ⟨cell, hcell, hlookup⟩ := exists_lookup_of_mem he
  rw [h cell e hlookup]
  exact hcell

theorem placed_of_empty
    (hempty : ∀ cell, m.lookup cell = none) :
    m.Placed := by
  intro cell e he
  rw [hempty] at he
  cases he

/-- The place of a cell is in the rectangle of its map. -/
theorem inRectangle_place
    {config : MapConfig} {cell : Int × Int}
    (h : config.Contains cell) :
    InRectangle config (place config cell).1 (place config cell).2 := by
  obtain ⟨hleft, hright, htop, hbottom⟩ := h
  simp only [InRectangle, place]
  omega

/-- An empty map is settled by its first update. -/
theorem settled_of_updateEntities
    {vecptr : VecPtr} {es : List Entity}
    (hempty : ∀ cell, m.lookup cell = none)
    (hinside : ∀ e ∈ es, e.Inside m.config)
    (hupdate : m.updateEntities vecptr es b = .ok (m', b')) :
    m'.Settled vecptr es := by
  obtain ⟨_, hlookup⟩ := lookup_of_updateEntities hinside hupdate
  have hnone : m.lookup = fun _ => none := funext hempty
  obtain ⟨hplace, _⟩ := updateEntities_eq_ok_iff.mp hupdate
  refine ⟨placeEntities_again hplace, ?_, ?_⟩
  · rw [hlookup, hnone, gridOf]
  · exact Screen.placed_of_moves (placed_of_empty hempty) hlookup

end Drawing

end Map

end SpeciesSimulator
