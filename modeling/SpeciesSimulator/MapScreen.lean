import SpeciesSimulator.Lib.Transition
import SpeciesSimulator.MapGrid

/-!
# The grid of a map and the screen

`start_up` draws the walls of a map into its buffer, and every call of
`update_entities` draws the entities of the grid over them.  `render` writes the
cells that hold an entity; nothing ever writes a cell that has lost one.

`Screen` is a map with its buffer, and a run of it is a sequence of calls of
`update_entities`.

Main facts:
* `shownAt_render`: what `render` does to the characters of the cells;
* `ScreenInv.step`: the screen keeps showing the grid as long as nothing has to be
  restored;
* `screen_shows_grid_iff`: it shows the grid after every call of a run, if no call
  vacates a cell that shows anything else than what `start_up` left there, and all
  entities are in their own cells and have characters of seven bits.
-/

namespace SpeciesSimulator

open PointMoves Transition

namespace TSConsoleBuffer

section Characters

/-- The character at a position. -/
def charAt (b : TSConsoleBuffer) (x y : Nat) : Option UInt16 :=
  if x < b.width ∧ y < b.height then b.charBuffer[y * b.width + x]? else none

/-- Different positions have different places in memory. -/
theorem index_inj
    {width x y x' y' : Nat}
    (hx : x < width)
    (hx' : x' < width)
    (h : y * width + x = y' * width + x') :
    x = x' ∧ y = y' := by
  have hw : 0 < width := by omega
  have hmod := congrArg (· % width) h
  have hdiv := congrArg (· / width) h
  simp only [Nat.mul_add_mod_self_right, Nat.mod_eq_of_lt hx,
    Nat.mod_eq_of_lt hx'] at hmod
  rw [Nat.mul_comm, Nat.mul_comm y'] at hdiv
  simp only [Nat.mul_add_div hw, Nat.div_eq_of_lt hx, Nat.div_eq_of_lt hx',
    Nat.add_zero] at hdiv
  exact ⟨hmod, hdiv⟩

/-- A character that is written can be read at its position, and nothing else
has changed. -/
theorem charAt_writeCharacter
    {b b' : TSConsoleBuffer} {x y : Nat} {ch : UInt8}
    (hsized : b.Sized)
    (hx : x < b.width)
    (hy : y < b.height)
    (h : b.writeCharacter x y ch = .ok b')
    (px py : Nat) :
    b'.charAt px py =
      if px = x ∧ py = y then some (widen ch) else b.charAt px py := by
  have hlt : y * b.width + x < b.charBuffer.length := by
    rw [hsized]
    exact index_lt hx hy
  simp only [writeCharacter, hx, hy, and_self, if_true, store, hlt] at h
  cases h
  by_cases hp : px < b.width ∧ py < b.height
  · by_cases heq : px = x ∧ py = y
    · obtain ⟨rfl, rfl⟩ := heq
      simp [charAt, hp, hlt]
    · have hne : y * b.width + x ≠ py * b.width + px := by
        intro hindex
        obtain ⟨hxp, hyp⟩ := index_inj hx hp.1 hindex
        exact heq ⟨hxp.symm, hyp.symm⟩
      simp [charAt, hp, heq, List.getElem?_set_ne hne]
  · have heq : ¬ (px = x ∧ py = y) := by
      rintro ⟨rfl, rfl⟩
      exact hp ⟨hx, hy⟩
    simp [charAt, hp, heq]

end Characters

end TSConsoleBuffer

namespace Map

section Render

/-- The buffer covers the rectangle of the map. -/
structure Covers (config : MapConfig) (b : TSConsoleBuffer) : Prop where
  sized : b.Sized
  right : config.x.toNat + config.width.toNat ≤ b.width
  bottom : config.y.toNat + config.height.toNat ≤ b.height

/-- The character at the place of a cell. -/
def shownAt (config : MapConfig) (b : TSConsoleBuffer) (cell : Int × Int) :
    Option UInt16 :=
  b.charAt (cell.1.toNat + config.x.toNat) (cell.2.toNat + config.y.toNat)

/-- Every entity of the grid is in its own cell. -/
def Placed (m : Map) : Prop :=
  ∀ cell e, m.lookup cell = some e → e.cell = cell

variable {m : Map} {b b' : TSConsoleBuffer} {cell : Int × Int}

/-- One entity is drawn into its own cell. -/
theorem shownAt_renderCell
    {e : Entity}
    (hcovers : Covers m.config b)
    (he : m.config.Contains e.cell)
    (hcell : m.config.Contains cell) :
    ∃ b', m.renderCell b (some e) = .ok b' ∧ Covers m.config b' ∧
      shownAt m.config b' cell =
        if e.cell = cell then some (widen e.char.toByte)
        else shownAt m.config b cell := by
  obtain ⟨b', hwrite, hsized, hwidth, hheight⟩ :=
    hcovers.sized.writeCharacter (e.x.toNat + m.config.x.toNat)
      (e.y.toNat + m.config.y.toNat) e.char.toByte
  have hright := hcovers.right
  have hbottom := hcovers.bottom
  obtain ⟨-, hx, -, hy⟩ := he
  obtain ⟨hx₀, hx', hy₀, hy'⟩ := hcell
  simp only [Entity.cell] at hx hy
  refine ⟨b', hwrite, ⟨hsized, ?_, ?_⟩, ?_⟩
  · rw [hwidth]
    exact hright
  · rw [hheight]
    exact hbottom
  · unfold shownAt
    rw [TSConsoleBuffer.charAt_writeCharacter hcovers.sized (by omega)
      (by omega) hwrite]
    have hsame :
        (cell.1.toNat + m.config.x.toNat = e.x.toNat + m.config.x.toNat ∧
            cell.2.toNat + m.config.y.toNat =
              e.y.toNat + m.config.y.toNat) ↔
          e.cell = cell := by
      rw [Prod.ext_iff]
      simp only [Entity.cell]
      omega
    simp only [hsame]

/-- A list of cells is drawn one after the other; entities that are drawn into
the same cell look the same. -/
theorem shownAt_foldlM_renderCell
    {cells : List (Option Entity)} {ch : UInt16}
    (hcovers : Covers m.config b)
    (hcells : ∀ e, some e ∈ cells → m.config.Contains e.cell)
    (hcell : m.config.Contains cell)
    (hch : ∀ e, some e ∈ cells → e.cell = cell → widen e.char.toByte = ch) :
    ∃ b', cells.foldlM m.renderCell b = .ok b' ∧ Covers m.config b' ∧
      ((∃ e, some e ∈ cells ∧ e.cell = cell) →
        shownAt m.config b' cell = some ch) ∧
      ((∀ e, some e ∈ cells → e.cell ≠ cell) →
        shownAt m.config b' cell = shownAt m.config b cell) := by
  induction cells generalizing b with
  | nil =>
      exact ⟨b, rfl, hcovers, by simp, fun _ => rfl⟩
  | cons c cells ih =>
      have htail : ∀ e, some e ∈ cells → some e ∈ c :: cells :=
        fun e he => List.mem_cons_of_mem c he
      have hcells' := fun e he => hcells e (htail e he)
      have hch' := fun e he => hch e (htail e he)
      cases c with
      | none =>
          obtain ⟨b', hfold, hcovers', hdrawn, hkept⟩ := ih hcovers hcells' hch'
          refine ⟨b', hfold, hcovers', ?_, ?_⟩
          · rintro ⟨e, he, heq⟩
            exact hdrawn ⟨e, by simpa using he, heq⟩
          · exact fun hnone => hkept fun e he => hnone e (htail e he)
      | some e =>
          obtain ⟨b₁, hwrite, hcovers₁, hshown⟩ :=
            shownAt_renderCell hcovers (hcells e (by simp)) hcell
          obtain ⟨b', hfold, hcovers', hdrawn, hkept⟩ := ih hcovers₁ hcells' hch'
          refine ⟨b', ?_, hcovers', ?_, ?_⟩
          · rw [List.foldlM_cons, hwrite, bind_ok, hfold]
          · rintro ⟨e', he', heq⟩
            by_cases hlater : ∃ e'', some e'' ∈ cells ∧ e''.cell = cell
            · exact hdrawn hlater
            · have hkept' := hkept fun e'' he'' h => hlater ⟨e'', he'', h⟩
              rcases List.mem_cons.mp he' with hhead | htail'
              · cases hhead
                rw [hkept', hshown, if_pos heq, hch _ (by simp) heq]
              · exact absurd ⟨e', htail', heq⟩ hlater
          · intro hnone
            have hne := hnone e (by simp)
            rw [hkept fun e' he' => hnone e' (htail e' he'), hshown, if_neg hne]

/-- What stands in the grid can be looked up. -/
theorem exists_lookup_of_mem
    {e : Entity}
    (h : some e ∈ m.entitiesInternalMap) :
    ∃ cell, m.config.Contains cell ∧ m.lookup cell = some e := by
  obtain ⟨i, hi, he⟩ := List.mem_iff_getElem.mp h
  have hlt := hi
  rw [m.length_eq] at hlt
  obtain ⟨x, y, hx, hy, rfl⟩ := TSConsoleBuffer.exists_index hlt
  have hcontains : m.config.Contains ((x : Int), (y : Int)) :=
    ⟨Int.natCast_nonneg _, Int.ofNat_lt.mpr hx, Int.natCast_nonneg _,
      Int.ofNat_lt.mpr hy⟩
  refine ⟨_, hcontains, ?_⟩
  have hposition :
      m.config.position ((x : Int), (y : Int)) =
        y * m.config.width.toNat + x := by
    simp only [MapConfig.position, Int.toNat_natCast]
  unfold lookup
  rw [if_pos hcontains, hposition, List.getElem?_eq_getElem hi, he]
  rfl

theorem mem_of_lookup
    {e : Entity}
    (h : m.lookup cell = some e) :
    some e ∈ m.entitiesInternalMap := by
  unfold lookup at h
  split at h
  · rw [Option.join_eq_some_iff] at h
    exact List.mem_of_getElem? h
  · cases h

/-- `render` draws the entity of a cell, and leaves a cell without one as it
is. -/
theorem shownAt_render
    (hplaced : m.Placed)
    (hcovers : Covers m.config b)
    (hcell : m.config.Contains cell)
    (h : m.render b = .ok b') :
    shownAt m.config b' cell =
      match m.lookup cell with
      | some e => some (widen e.char.toByte)
      | none => shownAt m.config b cell := by
  have hown :
      ∀ e, some e ∈ m.entitiesInternalMap →
        m.config.Contains e.cell ∧ m.lookup e.cell = some e := by
    intro e he
    obtain ⟨cell', hcontains, hlookup⟩ := exists_lookup_of_mem he
    rw [hplaced cell' e hlookup]
    exact ⟨hcontains, hlookup⟩
  cases hlookup : m.lookup cell with
  | some e =>
      have hsame :
          ∀ e', some e' ∈ m.entitiesInternalMap → e'.cell = cell →
            widen e'.char.toByte = widen e.char.toByte := by
        rintro e' he' rfl
        rw [(hown e' he').2] at hlookup
        cases hlookup
        rfl
      obtain ⟨b'', hfold, -, hdrawn, -⟩ :=
        shownAt_foldlM_renderCell hcovers (fun e' he' => (hown e' he').1) hcell
          hsame
      obtain rfl : b' = b'' := Except.ok.inj (h.symm.trans hfold)
      exact hdrawn ⟨e, mem_of_lookup hlookup, hplaced cell e hlookup⟩
  | none =>
      have hnone :
          ∀ e', some e' ∈ m.entitiesInternalMap → e'.cell ≠ cell := by
        rintro e' he' rfl
        rw [(hown e' he').2] at hlookup
        cases hlookup
      have hsame :
          ∀ e', some e' ∈ m.entitiesInternalMap → e'.cell = cell →
            widen e'.char.toByte = 0 :=
        fun e' he' h => absurd h (hnone e' he')
      obtain ⟨b'', hfold, -, -, hkept⟩ :=
        shownAt_foldlM_renderCell hcovers (fun e' he' => (hown e' he').1) hcell
          hsame
      obtain rfl : b' = b'' := Except.ok.inj (h.symm.trans hfold)
      exact hkept hnone

end Render

section Walls

variable {m : Map} {b b' : TSConsoleBuffer} {P : TSConsoleBuffer → Prop}

/-- What every round of a loop keeps, the loop keeps. -/
theorem foldlM_keeps
    {α : Type} {f : TSConsoleBuffer → α → Except Fault TSConsoleBuffer}
    {as : List α}
    (hf : ∀ a ∈ as, ∀ b b', P b → f b a = .ok b' → P b')
    (hb : P b)
    (h : as.foldlM f b = .ok b') :
    P b' := by
  induction as generalizing b with
  | nil =>
      cases h
      exact hb
  | cons a as ih =>
      rw [List.foldlM_cons] at h
      obtain ⟨b₁, hb₁, hrest⟩ := exists_of_bind_ok h
      refine ih (fun a' ha' => hf a' (List.mem_cons_of_mem _ ha')) ?_ hrest
      exact hf a (by simp) b b₁ hb hb₁

/-- Two branches that go on in the same way. -/
theorem exists_of_ite_bind_ok
    {α β : Type} {c : Prop} [Decidable c] {x y : Except Fault α}
    {f : α → Except Fault β} {r : β}
    (h : (if c then x >>= f else y >>= f) = .ok r) :
    ∃ a, f a = .ok r := by
  split at h
  · obtain ⟨a, _, h⟩ := exists_of_bind_ok h
    exact ⟨a, h⟩
  · obtain ⟨a, _, h⟩ := exists_of_bind_ok h
    exact ⟨a, h⟩

/-- A line is made of characters. -/
theorem drawLine_keeps
    {x y w h : Int} {symb : UInt8}
    (hwrite :
      ∀ b b' xpos ypos, P b → b.writeCharacter xpos ypos symb = .ok b' → P b')
    (hb : P b)
    (hline : m.drawLine x y w h symb b = .ok b') :
    P b' := by
  unfold drawLine at hline
  obtain ⟨difX, _, hline⟩ := exists_of_bind_ok hline
  obtain ⟨difY, _, hline⟩ := exists_of_bind_ok hline
  dsimp only at hline
  obtain ⟨difX', hline⟩ := exists_of_ite_bind_ok hline
  obtain ⟨difY', hline⟩ := exists_of_ite_bind_ok hline
  obtain ⟨countX, _, hline⟩ := exists_of_bind_ok hline
  obtain ⟨countY, _, hline⟩ := exists_of_bind_ok hline
  obtain ⟨b₁, hrows, hcolumns⟩ := exists_of_bind_ok hline
  have hb₁ : P b₁ := by
    refine foldlM_keeps (fun r _ b b' hb hround => ?_) hb hrows
    obtain ⟨xpos, _, hround⟩ := exists_of_bind_ok hround
    obtain ⟨ypos, _, hround⟩ := exists_of_bind_ok hround
    exact hwrite b b' _ _ hb hround
  refine foldlM_keeps (fun c _ b b' hb hround => ?_) hb₁ hcolumns
  obtain ⟨xpos, _, hround⟩ := exists_of_bind_ok hround
  obtain ⟨ypos, _, hround⟩ := exists_of_bind_ok hround
  exact hwrite b b' _ _ hb hround

/-- The characters that walls are drawn with. -/
def wallGlyphs : List UInt8 := [124, 45]

/-- Walls are made of their two characters. -/
theorem startUp_keeps
    (hwrite :
      ∀ symb ∈ wallGlyphs, ∀ b b' xpos ypos,
        P b → b.writeCharacter xpos ypos symb = .ok b' → P b')
    (hb : P b)
    (h : m.startUp b = .ok b') :
    P b' := by
  unfold startUp drawWalls at h
  refine foldlM_keeps (fun wall _ b b' hb hwall => ?_) hb h
  have hvertical := hwrite 124 (by simp [wallGlyphs])
  have hhorizontal := hwrite 45 (by simp [wallGlyphs])
  unfold drawWall at hwall
  dsimp only at hwall
  split at hwall
  · exact drawLine_keeps hvertical hb hwall
  · exact drawLine_keeps hvertical hb hwall
  · exact drawLine_keeps hhorizontal hb hwall
  · exact drawLine_keeps hhorizontal hb hwall
  · cases hwall
    exact hb
  · cases hwall
    exact hb
  · cases hwall
    exact hb

theorem covers_startUp
    {config : MapConfig}
    (hcovers : Covers config b)
    (h : m.startUp b = .ok b') :
    Covers config b' := by
  refine startUp_keeps (fun symb _ b b' xpos ypos hb hwrite => ?_) hcovers h
  obtain ⟨b₁, hwrite₁, hsized, hwidth, hheight⟩ :=
    hb.sized.writeCharacter xpos ypos symb
  obtain rfl : b₁ = b' := Except.ok.inj (hwrite₁.symm.trans hwrite)
  refine ⟨hsized, ?_, ?_⟩
  · rw [hwidth]
    exact hb.right
  · rw [hheight]
    exact hb.bottom

/-- In an empty buffer, `start_up` leaves wall glyphs and spaces. -/
theorem startUp_glyphs
    (hblank : ∀ ch ∈ b.charBuffer, ch = TSConsoleBuffer.blank)
    (h : m.startUp b = .ok b') :
    ∀ ch ∈ b'.charBuffer,
      ch = TSConsoleBuffer.blank ∨ ∃ symb ∈ wallGlyphs, ch = widen symb := by
  refine
    startUp_keeps
      (P := fun b =>
        ∀ ch ∈ b.charBuffer,
          ch = TSConsoleBuffer.blank ∨ ∃ symb ∈ wallGlyphs, ch = widen symb)
      (fun symb hsymb b b' xpos ypos hb hwrite => ?_)
      (fun ch hch => Or.inl (hblank ch hch)) h
  unfold TSConsoleBuffer.writeCharacter TSConsoleBuffer.store at hwrite
  split at hwrite
  · split at hwrite
    · cases hwrite
      intro ch hch
      rcases List.mem_or_eq_of_mem_set hch with hold | rfl
      · exact hb ch hold
      · exact Or.inr ⟨symb, hsymb, rfl⟩
    · cases hwrite
  · cases hwrite
    exact hb

end Walls

end Map

/-- A map with the buffer it is drawn into. -/
structure Screen where
  map : Map
  buffer : TSConsoleBuffer

namespace Screen

/-- A call of `update_entities` with entities whose cells are in bounds. -/
structure Call (config : MapConfig) where
  vecptr : VecPtr
  newEntities : List Entity
  inside : ∀ e ∈ newEntities, e.Inside config

section Model

variable {config : MapConfig}

/-- A call that has no result ends the run. -/
def step (s : Screen) (call : Call config) : Option Screen :=
  match s.map.updateEntities call.vecptr call.newEntities s.buffer with
  | .ok (map, buffer) => some ⟨map, buffer⟩
  | .error _ => none

/-- Every cell shows its entity, or what `start_up` left there. -/
def ShowsGrid (started : TSConsoleBuffer) (s : Screen) : Prop :=
  ∀ cell, s.map.config.Contains cell →
    Map.shownAt s.map.config s.buffer cell =
      match s.map.lookup cell with
      | some e => some e.char.toByte.toUInt16
      | none => Map.shownAt s.map.config started cell

/-- After the call, the entity is in the cell: the call brings it there, or it was there
and the call does not touch the cell. -/
def StandsAfter
    (s : Screen) (call : Call config) (cell : Int × Int) (e : Entity) : Prop :=
  Brings (call.newEntities.map Entity.move) cell e ∨
    s.map.lookup cell = some e ∧
      ∀ move ∈ call.newEntities.map Entity.move,
        move.src ≠ cell ∧ move.dst ≠ cell

/-- The call can be drawn by drawing its entities: they are in their own cells and have
characters of seven bits, and a cell that is vacated shows what `start_up` left
there. -/
structure DrawsRight
    (started : TSConsoleBuffer) (s : Screen) (call : Call config) :
    Prop where
  own : ∀ cell e, s.StandsAfter call cell e → e.cell = cell
  narrow : ∀ cell e, s.StandsAfter call cell e → e.char.toByte < 128
  restored : ∀ cell e, s.map.lookup cell = some e →
    Vacates (call.newEntities.map Entity.move) cell →
      Map.shownAt s.map.config s.buffer cell =
        Map.shownAt s.map.config started cell

/-- If the call returns, it can be drawn by drawing its entities. -/
def NothingToRestore
    (started : TSConsoleBuffer) (s : Screen) (call : Call config) : Prop :=
  call.newEntities.length < 2 ^ 31 → DrawsRight started s call

/-- Cells without an entity show what `start_up` left there. -/
structure ScreenInv
    (config : MapConfig) (started : TSConsoleBuffer) (s : Screen) : Prop where
  sameConfig : s.map.config = config
  covers : Map.Covers config s.buffer
  backdrop : ∀ cell, config.Contains cell → s.map.lookup cell = none →
    Map.shownAt config s.buffer cell = Map.shownAt config started cell

end Model

section Runs

variable {config : MapConfig} {started : TSConsoleBuffer} {s s' : Screen}
  {call : Call config}

theorem render_of_updateEntities
    {m m' : Map} {vecptr : VecPtr} {es : List Entity}
    {b b' : TSConsoleBuffer}
    (h : m.updateEntities vecptr es b = .ok (m', b')) :
    m'.render b = .ok b' := by
  obtain ⟨m₁, _, h⟩ := exists_of_bind_ok h
  obtain ⟨b₁, hrender, h⟩ := exists_of_bind_ok h
  cases h
  exact hrender

/-- `update_entities` does not change the size of the buffer. -/
theorem sized_of_updateEntities
    {m m' : Map} {vecptr : VecPtr} {es : List Entity}
    {b b' : TSConsoleBuffer}
    (hsized : b.Sized)
    (h : m.updateEntities vecptr es b = .ok (m', b')) :
    b'.Sized ∧ b'.width = b.width ∧ b'.height = b.height := by
  obtain ⟨b₁, hrender, hsize⟩ := m'.exists_render hsized
  obtain rfl : b₁ = b' :=
    Except.ok.inj (hrender.symm.trans (render_of_updateEntities h))
  exact hsize

/-- Entities stay in their own cells when they move. -/
theorem placed_of_moves
    {m m' : Map} {es : List Entity}
    (hplaced : m.Placed)
    (hlookup : m'.lookup = applyAll m.lookup (es.map Entity.move)) :
    m'.Placed := by
  intro cell e he
  rw [hlookup] at he
  rcases applyAll_mem he with hold | ⟨move, hmove, hdst, hval⟩
  · exact hplaced cell e hold
  · obtain ⟨e', _, rfl⟩ := List.mem_map.mp hmove
    obtain rfl : e' = e := hval
    exact hdst

/-- An entity that a call brings to a cell is in its own cell. -/
theorem StandsAfter.own
    {cell : Int × Int} {e : Entity}
    (hplaced : s.map.Placed)
    (h : s.StandsAfter call cell e) :
    e.cell = cell := by
  rcases h with hbrought | ⟨hold, _⟩
  · obtain ⟨move, hmove, hdst, hval⟩ := hbrought.exists_move
    obtain ⟨e', _, rfl⟩ := List.mem_map.mp hmove
    obtain rfl : e' = e := hval
    exact hdst
  · exact hplaced cell e hold

/-- What a call does to the grid. -/
theorem exists_step
    (h : ScreenInv config started s)
    (hlen : call.newEntities.length < 2 ^ 31) :
    ∃ s', s.step call = some s' ∧ s'.map.config = config ∧
      Map.Covers config s'.buffer ∧ s'.map.render s.buffer = .ok s'.buffer ∧
      (∀ cell e, s'.map.lookup cell = some e ↔ s.StandsAfter call cell e) ∧
      ∀ cell, s'.map.lookup cell = none ↔
        Vacates (call.newEntities.map Entity.move) cell ∨
          s.map.lookup cell = none ∧
            ∀ move ∈ call.newEntities.map Entity.move, move.dst ≠ cell := by
  have hinside : ∀ e ∈ call.newEntities, e.Inside s.map.config := by
    rw [h.sameConfig]
    exact call.inside
  obtain ⟨m', b', hupdate, hconfig, _, _, _, hlookup⟩ :=
    Map.updateEntities_refines call.vecptr h.covers.sized hinside hlen
  obtain ⟨hsized, hwidth, hheight⟩ :=
    sized_of_updateEntities h.covers.sized hupdate
  refine ⟨⟨m', b'⟩, ?_, hconfig.trans h.sameConfig, ⟨hsized, ?_, ?_⟩,
    render_of_updateEntities hupdate, fun cell e => ?_, fun cell => ?_⟩
  · simp only [step, hupdate]
  · rw [hwidth]
    exact h.covers.right
  · rw [hheight]
    exact h.covers.bottom
  · rw [hlookup]
    exact applyAll_eq_some_iff
  · rw [hlookup]
    exact applyAll_eq_none_iff

/-- A call that leaves entities in their own cells draws the cells that hold one. -/
theorem step_spec
    (h : ScreenInv config started s)
    (hlen : call.newEntities.length < 2 ^ 31)
    (hown : ∀ cell e, s.StandsAfter call cell e → e.cell = cell) :
    ∃ s', s.step call = some s' ∧ s'.map.config = config ∧
      Map.Covers config s'.buffer ∧
      (∀ cell e, s'.map.lookup cell = some e ↔ s.StandsAfter call cell e) ∧
      (∀ cell e, config.Contains cell → s'.map.lookup cell = some e →
        Map.shownAt config s'.buffer cell = some (widen e.char.toByte)) ∧
      ∀ cell, config.Contains cell → s'.map.lookup cell = none →
        Map.shownAt config s'.buffer cell =
            Map.shownAt config s.buffer cell ∧
          (Vacates (call.newEntities.map Entity.move) cell ∨
            Map.shownAt config s.buffer cell =
              Map.shownAt config started cell) := by
  obtain ⟨s', hstep, hconfig, hcovers, hrender, hsome, hnone⟩ :=
    exists_step h hlen
  have hplaced : s'.map.Placed :=
    fun cell e he => hown cell e ((hsome cell e).mp he)
  have hshown (cell : Int × Int) (hcell : config.Contains cell) :
      Map.shownAt config s'.buffer cell =
        match s'.map.lookup cell with
        | some e => some (widen e.char.toByte)
        | none => Map.shownAt config s.buffer cell := by
    have hcovers' : Map.Covers s'.map.config s.buffer := by
      rw [hconfig]
      exact h.covers
    rw [← hconfig] at hcell ⊢
    exact Map.shownAt_render hplaced hcovers' hcell hrender
  refine ⟨s', hstep, hconfig, hcovers, hsome, ?_, ?_⟩
  · intro cell e hcell he
    rw [hshown cell hcell, he]
  · intro cell hcell hempty
    refine ⟨by rw [hshown cell hcell, hempty], ?_⟩
    rcases (hnone cell).mp hempty with hvacates | ⟨hbefore, _⟩
    · exact Or.inl hvacates
    · exact Or.inr (h.backdrop cell hcell hbefore)

/-- A call that has a result was made with a list that can be counted. -/
theorem length_lt_of_step
    (hstep : s.step call = some s') :
    call.newEntities.length < 2 ^ 31 := by
  unfold step at hstep
  split at hstep
  · rename_i m' b' hupdate
    obtain ⟨m₁, hplace, _⟩ := exists_of_bind_ok hupdate
    obtain ⟨m₂, _, hplace⟩ := exists_of_bind_ok hplace
    by_contra hlen
    rw [if_neg hlen] at hplace
    cases hplace
  · cases hstep

/-- A vacated cell that looks right shows what `start_up` left there. -/
theorem DrawsRight.backdrop
    {cell : Int × Int}
    (hC : DrawsRight started s call)
    (h : ScreenInv config started s)
    (hcell : config.Contains cell)
    (hvacates : Vacates (call.newEntities.map Entity.move) cell) :
    Map.shownAt config s.buffer cell = Map.shownAt config started cell := by
  cases hbefore : s.map.lookup cell with
  | none => exact h.backdrop cell hcell hbefore
  | some e =>
      have hrestored := hC.restored cell e hbefore hvacates
      rw [h.sameConfig] at hrestored
      exact hrestored

/-- After a call that can be drawn, the screen shows the grid. -/
theorem ScreenInv.step
    (h : ScreenInv config started s)
    (hC : NothingToRestore started s call)
    (hstep : s.step call = some s') :
    ScreenInv config started s' ∧ ShowsGrid started s' := by
  have hlen := length_lt_of_step hstep
  have hright := hC hlen
  obtain ⟨s₁, hstep₁, hconfig, hcovers, hsome, hfull, hempty⟩ :=
    step_spec h hlen hright.own
  obtain rfl : s₁ = s' := Option.some.inj (hstep₁.symm.trans hstep)
  have hbackdrop :
      ∀ cell, config.Contains cell → s₁.map.lookup cell = none →
        Map.shownAt config s₁.buffer cell =
          Map.shownAt config started cell := by
    intro cell hcell hnone
    obtain ⟨hkept, hvacates | hsame⟩ := hempty cell hcell hnone
    · exact hkept.trans (hright.backdrop h hcell hvacates)
    · exact hkept.trans hsame
  refine ⟨⟨hconfig, hcovers, hbackdrop⟩, fun cell hcell => ?_⟩
  rw [hconfig] at hcell ⊢
  cases hlookup : s₁.map.lookup cell with
  | none => exact hbackdrop cell hcell hlookup
  | some e =>
      have hnarrow := hright.narrow cell e ((hsome cell e).mp hlookup)
      show _ = some _
      rw [hfull cell e hcell hlookup, widen_eq_toUInt16_iff.mpr hnarrow]

/-- If all entities are in their own cells and the screen shows the grid after a call,
the call could be drawn. -/
theorem nothingToRestore_of_showsGrid
    (h : ScreenInv config started s)
    (hplaced : s.map.Placed)
    (hshows : ∀ s', s.step call = some s' → ShowsGrid started s') :
    NothingToRestore started s call := by
  intro hlen
  have hown : ∀ cell e, s.StandsAfter call cell e → e.cell = cell :=
    fun cell e => StandsAfter.own hplaced
  obtain ⟨s', hstep, hconfig, _, hsome, hfull, _⟩ := step_spec h hlen hown
  obtain ⟨s₁, hstep₁, _, _, hrender, _, hnone⟩ := exists_step h hlen
  obtain rfl := Option.some.inj (hstep.symm.trans hstep₁)
  have hgrid := hshows s' hstep
  have hcontains
      {m : Map} {cell : Int × Int} {e : Entity} (hm : m.config = config)
      (he : m.lookup cell = some e) : config.Contains cell := by
    rw [← hm]
    by_contra hcell
    simp [Map.lookup, hcell] at he
  refine ⟨hown, fun cell e hstands => ?_, fun cell e hbefore hvacates => ?_⟩
  · have hlookup := (hsome cell e).mpr hstands
    have hcell := hcontains hconfig hlookup
    have hdrawn := hgrid cell (by rw [hconfig]; exact hcell)
    rw [hconfig, hfull cell e hcell hlookup, hlookup] at hdrawn
    exact widen_eq_toUInt16_iff.mp (Option.some.inj hdrawn)
  · have hcell := hcontains h.sameConfig hbefore
    have hempty := (hnone cell).mpr (Or.inl hvacates)
    have hdrawn := hgrid cell (by rw [hconfig]; exact hcell)
    have hplaced' : s'.map.Placed :=
      fun cell e he => hown cell e ((hsome cell e).mp he)
    have hcovers' : Map.Covers s'.map.config s.buffer := by
      rw [hconfig]
      exact h.covers
    have hcell' : s'.map.config.Contains cell := by
      rw [hconfig]
      exact hcell
    have hkept := Map.shownAt_render hplaced' hcovers' hcell' hrender
    rw [hempty] at hdrawn hkept
    rw [h.sameConfig, ← hconfig]
    exact hkept.symm.trans hdrawn

end Runs

/-- After `start_up` the buffer is what it left. -/
theorem screenInv_of_startUp
    {m : Map} {b started : TSConsoleBuffer}
    (hcovers : Map.Covers m.config b)
    (hstart : m.startUp b = .ok started) :
    ScreenInv m.config started ⟨m, started⟩ :=
  ⟨rfl, Map.covers_startUp hcovers hstart, fun _ _ _ => rfl⟩

/-- The screen shows the grid after each call of `update_entities` that follows
`start_up`, if every call leaves only entities in the grid that are in their own cells
and have characters of seven bits, and vacates no cell that shows anything else than
what `start_up` left there: a wall glyph or a space, if the buffer was empty.  If all
entities are in their own cells at first, it does so only then. -/
theorem screen_shows_grid_iff
    {m : Map} {b started : TSConsoleBuffer}
    (hcovers : Map.Covers m.config b)
    (hstart : m.startUp b = .ok started)
    (calls : List (Call m.config)) :
    (Meets step (NothingToRestore started) ⟨m, started⟩ calls →
        AfterEach step (ShowsGrid started) ⟨m, started⟩ calls) ∧
      (m.Placed →
        (AfterEach step (ShowsGrid started) ⟨m, started⟩ calls ↔
          Meets step (NothingToRestore started) ⟨m, started⟩ calls)) ∧
      ((∀ ch ∈ b.charBuffer, ch = TSConsoleBuffer.blank) →
        ∀ ch ∈ started.charBuffer,
          ch = TSConsoleBuffer.blank ∨
            ∃ symb ∈ Map.wallGlyphs, ch = widen symb) := by
  have h₀ := screenInv_of_startUp hcovers hstart
  have hshows :
      Meets step (NothingToRestore started) ⟨m, started⟩ calls →
        AfterEach step (ShowsGrid started) ⟨m, started⟩ calls :=
    Meets.of_invariant (fun _ _ _ h hC hstep => (h.step hC hstep).1)
      (fun _ _ h hC _ hstep => (h.step hC hstep).2) h₀
  refine ⟨hshows, fun hplaced => ⟨?_, hshows⟩, ?_⟩
  · refine
      Meets.of_invariant
        (I := fun s => ScreenInv m.config started s ∧ s.map.Placed)
        ?_ ?_ ⟨h₀, hplaced⟩
    · rintro s call s' ⟨h, hplaced⟩ hgrid hstep
      have hC := nothingToRestore_of_showsGrid h hplaced hgrid
      obtain ⟨s₁, hstep₁, _, _, _, hsome, _⟩ :=
        exists_step h (length_lt_of_step hstep)
      obtain rfl := Option.some.inj (hstep₁.symm.trans hstep)
      exact ⟨(h.step hC hstep).1, fun cell e he =>
        ((hsome cell e).mp he).own hplaced⟩
    · rintro s call ⟨h, hplaced⟩ hgrid
      exact nothingToRestore_of_showsGrid h hplaced hgrid
  · exact fun hblank => Map.startUp_glyphs hblank hstart

/-- A row of three cells with walls at its sides. -/
def row : MapConfig :=
  { width := 3, height := 1, wallOne := 1, wallTwo := 2 }

/-- An entity comes into an empty cell. -/
theorem screen_shows_grid_iff_first_step :
    ∃ m b started,
      Map.makeWithBuffer ⟨{}⟩ row (some 0) = .ok (m, b) ∧
        m.startUp b = .ok started ∧
        ∃ hinside : ∀ e ∈ [Map.firstStep], e.Inside m.config,
          AfterEach step (ShowsGrid started) ⟨m, started⟩
            [⟨0, [Map.firstStep], hinside⟩] := by
  obtain ⟨m, b, started, hmake, hbuffer, hcovers, hstart, hinside⟩ :
      ∃ m b started,
        Map.make ⟨{}⟩ row (some 0) = .ok m ∧
          Map.makeWithBuffer ⟨{}⟩ row (some 0) = .ok (m, b) ∧
          Map.Covers m.config b ∧
          m.startUp b = .ok started ∧
          ∀ e ∈ [Map.firstStep], e.Inside m.config :=
    ⟨_, _, _, rfl, rfl, ⟨rfl, by decide, by decide⟩, rfl, by decide⟩
  have hempty := Map.lookup_of_make hmake
  refine ⟨m, b, started, hbuffer, hstart, hinside, ?_⟩
  refine (screen_shows_grid_iff hcovers hstart _).1 ?_
  have hstands :
      ∀ cell e,
        StandsAfter ⟨m, started⟩ ⟨0, [Map.firstStep], hinside⟩ cell e →
          Map.firstStep.cell = cell ∧ Map.firstStep = e := by
    rintro cell e ((⟨hdst, hval, -⟩ | hfalse) | ⟨hold, -⟩)
    · exact ⟨hdst, hval⟩
    · exact hfalse.elim
    · rw [hempty] at hold
      cases hold
  refine meets_cons (fun _ => ⟨?_, ?_, ?_⟩) fun _ _ => trivial
  · intro cell e h
    obtain ⟨hcell, rfl⟩ := hstands cell e h
    exact hcell
  · intro cell e h
    obtain ⟨-, rfl⟩ := hstands cell e h
    decide
  · intro cell e he
    rw [hempty] at he
    cases he

/-- The entity goes on, and the cell it has left still shows it.  The character 200 of
an entity is not shown as 200. -/
theorem screen_shows_grid_iff_fails_on_second_step :
    (∃ m b started calls,
      Map.makeWithBuffer ⟨{}⟩ row (some 0) = .ok (m, b) ∧
        Map.Covers m.config b ∧
        m.startUp b = .ok started ∧
        ¬ AfterEach (@step m.config) (ShowsGrid started) ⟨m, started⟩ calls) ∧
      ∃ m b started call,
        Map.makeWithBuffer ⟨{}⟩ { width := 1, height := 1 } (some 0) =
            .ok (m, b) ∧
          Map.Covers m.config b ∧
          m.startUp b = .ok started ∧
          ¬ AfterEach (@step m.config) (ShowsGrid started) ⟨m, started⟩
              [call] := by
  constructor
  · refine
      ⟨_, _, _,
        [⟨0, [Map.firstStep], by decide⟩, ⟨0, [Map.secondStep], by decide⟩],
        rfl, ⟨rfl, by decide, by decide⟩, rfl, ?_⟩
    intro hafter
    have hshows := (hafter.tail rfl).head _ rfl
    have hcell := hshows (1, 0) (by decide)
    revert hcell
    decide
  · refine
      ⟨_, _, _,
        ⟨0, [{ (default : Entity) with char := EntityStyle.ofByte 200 }],
          by decide⟩,
        rfl, ⟨rfl, by decide, by decide⟩, rfl, ?_⟩
    intro hafter
    have hcell := hafter.head _ rfl (0, 0) (by decide)
    revert hcell
    decide

end Screen

end SpeciesSimulator
