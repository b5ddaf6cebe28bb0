import SpeciesSimulator.MapLines

/-!
# Segments and walls

A line between two cells of a row or of a column.  `draw_line` moves its start to
the left of its end, or above it, without moving the end: it draws the whole
segment if the start comes first, and otherwise the end alone.

`start_up` draws such lines along the borders of the map, one for each of the four
wall fields, with the start first.

Main facts:
* `drawLine_aligned`: which segment `draw_line` draws;
* `drawLine_segment_iff`: it draws the segment that was asked for, if and only if
  the start comes first, or nothing but the end is left to draw;
* `startUp_walls`: each cell shows the last wall that covers it.
-/

namespace SpeciesSimulator

namespace Map

section Segments

/-- The cell is between two others of a row or of a column, or one of them. -/
def OnSegment (p q cell : Int × Int) : Prop :=
  min p.1 q.1 ≤ cell.1 ∧ cell.1 ≤ max p.1 q.1 ∧
    min p.2 q.2 ≤ cell.2 ∧ cell.2 ≤ max p.2 q.2

instance (p q cell : Int × Int) : Decidable (OnSegment p q cell) :=
  inferInstanceAs (Decidable (_ ∧ _))

/-- The end of a segment that is the left or the upper one. -/
def nearEnd (p q : Int × Int) : Int × Int :=
  (min p.1 q.1, min p.2 q.2)

/-- The place of a cell in the buffer. -/
def place (config : MapConfig) (cell : Int × Int) : Nat × Nat :=
  (cell.1.toNat + config.x.toNat, cell.2.toNat + config.y.toNat)

/-- The line sets the characters of the segment, and no others. -/
def DrawsSegment
    (m : Map) (p q : Int × Int) (symb : UInt8) (b : TSConsoleBuffer) : Prop :=
  ∃ b', m.drawLine p.1 p.2 q.1 q.2 symb b = .ok b' ∧
    (∀ cell, OnSegment p q cell → shownAt m.config b' cell = some (widen symb)) ∧
    ∀ px py, (∀ cell, OnSegment p q cell → place m.config cell ≠ (px, py)) →
      b'.charAt px py = b.charAt px py

variable {m : Map} {config : MapConfig} {p q cell cell' : Int × Int}
  {symb : UInt8} {b b' : TSConsoleBuffer}

theorem shownAt_eq_charAt :
    shownAt config b cell =
      b.charAt (place config cell).1 (place config cell).2 := by
  rfl

/-- The order of the ends does not matter for a segment. -/
theorem onSegment_comm :
    OnSegment p q cell ↔ OnSegment q p cell := by
  simp only [OnSegment, min_comm p.1, min_comm p.2, max_comm p.1, max_comm p.2]

theorem nearEnd_comm (p q : Int × Int) :
    nearEnd p q = nearEnd q p := by
  simp only [nearEnd, min_comm p.1, min_comm p.2]

/-- A segment between cells of the map consists of cells of the map. -/
theorem OnSegment.contains
    (hcell : OnSegment p q cell)
    (hp : config.Contains p)
    (hq : config.Contains q) :
    config.Contains cell := by
  obtain ⟨hleft, hright, htop, hbottom⟩ := hcell
  obtain ⟨hpx, hpx', hpy, hpy'⟩ := hp
  obtain ⟨hqx, hqx', hqy, hqy'⟩ := hq
  exact ⟨by omega, by omega, by omega, by omega⟩

/-- Different cells of the map have different places. -/
theorem place_inj
    (h : config.Contains cell)
    (h' : config.Contains cell')
    (heq : place config cell = place config cell') :
    cell = cell' := by
  obtain ⟨hleft, _, htop, _⟩ := h
  obtain ⟨hleft', _, htop', _⟩ := h'
  simp only [place, Prod.mk.injEq] at heq
  exact Prod.ext (by omega) (by omega)

/-- The place of a cell of the map is the one that `draw_line` computes. -/
theorem place_eq_toSize
    (h : config.Contains cell) :
    place config cell =
      (toSize (cell.1 + config.x.toNat), toSize (cell.2 + config.y.toNat)) := by
  obtain ⟨hleft, hright, htop, hbottom⟩ := h
  have hx := config.x.toNat_lt
  have hy := config.y.toNat_lt
  have hwidth := config.width.toNat_lt
  have hheight := config.height.toNat_lt
  simp only [place, toSize, Prod.mk.injEq]
  omega

theorem nearEnd_contains
    (hp : config.Contains p)
    (hq : config.Contains q) :
    config.Contains (nearEnd p q) := by
  refine OnSegment.contains (p := p) (q := q) ⟨?_, ?_, ?_, ?_⟩ hp hq
  · exact le_refl _
  · exact le_trans (min_le_left _ _) (le_max_left _ _)
  · exact le_refl _
  · exact le_trans (min_le_left _ _) (le_max_left _ _)

/-- The line between cells of a row or of a column is the segment from the near
end to the end that was asked for. -/
theorem onLine_iff
    (haligned : p.1 = q.1 ∨ p.2 = q.2)
    (hq : config.Contains q) :
    config.OnLine p.1 p.2 q.1 q.2 cell ↔ OnSegment (nearEnd p q) q cell := by
  obtain ⟨_, hright, _, hbottom⟩ := hq
  have hx : MapConfig.lineX p.1 q.1 = min p.1 q.1 := by
    unfold MapConfig.lineX
    split <;> omega
  have hy : MapConfig.lineY p.1 p.2 q.1 q.2 = min p.2 q.2 := by
    simp only [MapConfig.lineY, hx]
    split_ifs <;> omega
  simp only [MapConfig.OnLine, hx, hy, OnSegment, nearEnd]
  rcases haligned with heq | heq
  · omega
  · omega

/-- `draw_line` draws the segment from the near end. -/
theorem drawLine_aligned
    (symb : UInt8)
    (hcovers : Covers m.config b)
    (hp : m.config.Contains p)
    (hq : m.config.Contains q)
    (haligned : p.1 = q.1 ∨ p.2 = q.2) :
    ∃ b', m.drawLine p.1 p.2 q.1 q.2 symb b = .ok b' ∧
      TSConsoleBuffer.SameShape b b' ∧
      (∀ cell, OnSegment (nearEnd p q) q cell →
        shownAt m.config b' cell = some (widen symb)) ∧
      ∀ px py,
        (∀ cell, OnSegment (nearEnd p q) q cell →
          place m.config cell ≠ (px, py)) →
        b'.charAt px py = b.charAt px py := by
  obtain ⟨hpx, hpy⟩ := isInt_of_contains hp
  obtain ⟨hqx, hqy⟩ := isInt_of_contains hq
  have hfits := (line_of_contains hp hq).1
  have hnear := nearEnd_contains hp hq
  obtain ⟨b', hline, hshape, hchar⟩ :=
    charAt_drawLine symb hcovers.sized hpx hpy hqx hqy hfits
  refine ⟨b', hline, hshape, fun cell hcell => ?_, fun px py hfree => ?_⟩
  · have hcontains := hcell.contains hnear hq
    have hplace := place_eq_toSize hcontains
    have hdrawn :=
      (hchar (place m.config cell).1 (place m.config cell).2).1
        ⟨cell, (onLine_iff haligned hq).mpr hcell, by rw [hplace], by rw [hplace]⟩
    obtain ⟨ch, hch⟩ :
        ∃ ch, b.charAt (place m.config cell).1 (place m.config cell).2 =
          some ch := by
      obtain ⟨hleft, hright, htop, hbottom⟩ := hcontains
      have hcr := hcovers.right
      have hcb := hcovers.bottom
      refine hcovers.sized.exists_charAt ?_ ?_
      · simp only [place]
        omega
      · simp only [place]
        omega
    rw [shownAt_eq_charAt, hdrawn, hch]
    rfl
  · refine (hchar px py).2 fun cell hcell => ?_
    rintro ⟨rfl, rfl⟩
    have hsegment := (onLine_iff haligned hq).mp hcell
    exact hfree cell hsegment (place_eq_toSize (hsegment.contains hnear hq))

/-- A segment of one cell. -/
theorem onSegment_self :
    OnSegment q q cell ↔ cell = q := by
  simp only [OnSegment, min_self, max_self, Prod.ext_iff]
  omega

/-- The near end is the start, if the start comes first. -/
theorem nearEnd_eq_left_iff :
    nearEnd p q = p ↔ p.1 ≤ q.1 ∧ p.2 ≤ q.2 := by
  simp only [nearEnd, Prod.ext_iff, min_eq_left_iff]

/-- In a row or a column one of the ends is the near one. -/
theorem nearEnd_eq_right
    (haligned : p.1 = q.1 ∨ p.2 = q.2)
    (h : nearEnd p q ≠ p) :
    nearEnd p q = q := by
  rw [Ne, nearEnd_eq_left_iff] at h
  simp only [nearEnd, Prod.ext_iff, min_eq_right_iff]
  omega

/-- Buffers of one shape that show the same are the same. -/
theorem eq_of_charAt
    (h : TSConsoleBuffer.SameShape b b')
    (hsized : b.Sized)
    (hchar : ∀ px py, b'.charAt px py = b.charAt px py) :
    b' = b := by
  have hlength : b'.charBuffer.length = b.charBuffer.length := by
    rw [h.sized, h.width, h.height, hsized]
  have hbuffer : b'.charBuffer = b.charBuffer := by
    refine List.ext_getElem? fun i => ?_
    by_cases hi : i < b.width * b.height
    · obtain ⟨px, py, hx, hy, rfl⟩ := TSConsoleBuffer.exists_index hi
      have hsame := hchar px py
      simpa [TSConsoleBuffer.charAt, h.width, h.height, hx, hy] using hsame
    · rw [List.getElem?_eq_none (by rw [hlength, hsized]; omega),
        List.getElem?_eq_none (by rw [hsized]; omega)]
  cases b
  cases b'
  simp only [TSConsoleBuffer.mk.injEq]
  exact ⟨h.width, h.height, hbuffer⟩

theorem onSegment_left : OnSegment p q p :=
  ⟨min_le_left _ _, le_max_left _ _, min_le_left _ _, le_max_left _ _⟩

theorem onSegment_right : OnSegment p q q :=
  ⟨min_le_right _ _, le_max_right _ _, min_le_right _ _, le_max_right _ _⟩

/-- A line to the near end draws nothing else. -/
theorem drawLine_to_near
    (symb : UInt8)
    (hcovers : Covers m.config b)
    (hp : m.config.Contains p)
    (hq : m.config.Contains q)
    (haligned : p.1 = q.1 ∨ p.2 = q.2)
    (hnear : nearEnd p q = q) :
    ∃ b', m.drawLine p.1 p.2 q.1 q.2 symb b = .ok b' ∧
      TSConsoleBuffer.SameShape b b' ∧
      shownAt m.config b' q = some (widen symb) ∧
      (∀ cell, OnSegment p q cell → cell ≠ q →
        shownAt m.config b' cell = shownAt m.config b cell) ∧
      ∀ px py, place m.config q ≠ (px, py) →
        b'.charAt px py = b.charAt px py := by
  obtain ⟨b', hline, hshape, hdrawn, hkept⟩ :=
    drawLine_aligned symb hcovers hp hq haligned
  rw [hnear] at hdrawn hkept
  simp only [onSegment_self, forall_eq] at hdrawn hkept
  refine ⟨b', hline, hshape, hdrawn, fun cell hcell hne => ?_, hkept⟩
  refine hkept _ _ fun hplace => ?_
  exact hne (place_inj hq (hcell.contains hp hq) hplace).symm

/-- A line draws the segment, if and only if the cells that it leaves out show
its character already. -/
theorem drawsSegment_iff
    (symb : UInt8)
    (hcovers : Covers m.config b)
    (hp : m.config.Contains p)
    (hq : m.config.Contains q)
    (haligned : p.1 = q.1 ∨ p.2 = q.2) :
    m.DrawsSegment p q symb b ↔
      nearEnd p q = p ∨
        ∀ cell, OnSegment p q cell → cell ≠ q →
          shownAt m.config b cell = some (widen symb) := by
  by_cases hnear : nearEnd p q = p
  · obtain ⟨b', hline, _, hdrawn, hkept⟩ :=
      drawLine_aligned symb hcovers hp hq haligned
    rw [hnear] at hdrawn hkept
    exact iff_of_true ⟨b', hline, hdrawn, hkept⟩ (Or.inl hnear)
  · obtain ⟨b', hline, _, hdrawn, hother, hkept⟩ :=
      drawLine_to_near symb hcovers hp hq haligned
        (nearEnd_eq_right haligned hnear)
    constructor
    · rintro ⟨b'', hline', hsegment, _⟩
      obtain rfl : b' = b'' := Except.ok.inj (hline.symm.trans hline')
      right
      intro cell hcell hne
      rw [← hother cell hcell hne]
      exact hsegment cell hcell
    · rintro (hleft | hshown)
      · exact absurd hleft hnear
      · refine ⟨b', hline, fun cell hcell => ?_, fun px py hfree => ?_⟩
        · by_cases heq : cell = q
          · rw [heq]
            exact hdrawn
          · rw [hother cell hcell heq]
            exact hshown cell hcell heq
        · exact hkept px py (hfree q onSegment_right)

/-- From the near end the whole segment is drawn, from the other one only the
near end. -/
theorem drawLine_comm_iff_of_near
    (symb : UInt8)
    (hcovers : Covers m.config b)
    (hp : m.config.Contains p)
    (hq : m.config.Contains q)
    (haligned : p.1 = q.1 ∨ p.2 = q.2)
    (hnear : nearEnd p q = p) :
    m.drawLine p.1 p.2 q.1 q.2 symb b = m.drawLine q.1 q.2 p.1 p.2 symb b ↔
      ∀ cell, OnSegment p q cell → cell ≠ p →
        shownAt m.config b cell = some (widen symb) := by
  obtain ⟨b₁, hline₁, hshape₁, hdrawn₁, hkept₁⟩ :=
    drawLine_aligned symb hcovers hp hq haligned
  obtain ⟨b₂, hline₂, hshape₂, hdrawn₂, hother₂, hkept₂⟩ :=
    drawLine_to_near symb hcovers hq hp
      (haligned.imp (fun h => h.symm) (fun h => h.symm))
      ((nearEnd_comm q p).trans hnear)
  rw [hnear] at hdrawn₁ hkept₁
  simp only [onSegment_comm] at hother₂
  rw [hline₁, hline₂, Except.ok.injEq]
  constructor
  · rintro rfl cell hcell hne
    rw [← hother₂ cell hcell hne]
    exact hdrawn₁ cell hcell
  · intro hshown
    refine eq_of_charAt ⟨hshape₁.sized, ?_, ?_⟩ hshape₂.sized fun px py => ?_
    · rw [hshape₁.width, hshape₂.width]
    · rw [hshape₁.height, hshape₂.height]
    · by_cases hplace : ∃ cell, OnSegment p q cell ∧
          place m.config cell = (px, py)
      · obtain ⟨cell, hcell, hplace⟩ := hplace
        have hsame : shownAt m.config b₁ cell = shownAt m.config b₂ cell := by
          by_cases heq : cell = p
          · rw [hdrawn₁ cell hcell, heq, hdrawn₂]
          · rw [hdrawn₁ cell hcell, hother₂ cell hcell heq,
              hshown cell hcell heq]
        rw [shownAt_eq_charAt, shownAt_eq_charAt, hplace] at hsame
        exact hsame
      · rw [hkept₁ px py fun cell hcell heq => hplace ⟨cell, hcell, heq⟩,
          hkept₂ px py fun heq => hplace ⟨p, onSegment_left, heq⟩]

/-- A line draws the segment between its ends, if and only if its start comes
first or all cells but its end show its character already.  Exchanging the ends
makes no difference, if and only if all cells but the near end do. -/
theorem drawLine_segment_iff
    (symb : UInt8)
    (hcovers : Covers m.config b)
    (hp : m.config.Contains p)
    (hq : m.config.Contains q)
    (haligned : p.1 = q.1 ∨ p.2 = q.2) :
    (m.DrawsSegment p q symb b ↔
      (p.1 ≤ q.1 ∧ p.2 ≤ q.2) ∨
        ∀ cell, OnSegment p q cell → cell ≠ q →
          shownAt m.config b cell = some (widen symb)) ∧
    (m.drawLine p.1 p.2 q.1 q.2 symb b = m.drawLine q.1 q.2 p.1 p.2 symb b ↔
      ∀ cell, OnSegment p q cell → cell ≠ nearEnd p q →
        shownAt m.config b cell = some (widen symb)) := by
  constructor
  · rw [drawsSegment_iff symb hcovers hp hq haligned, nearEnd_eq_left_iff]
  · by_cases hnear : nearEnd p q = p
    · rw [hnear]
      exact drawLine_comm_iff_of_near symb hcovers hp hq haligned hnear
    · have hright := nearEnd_eq_right haligned hnear
      have hswap :=
        drawLine_comm_iff_of_near symb hcovers hq hp
          (haligned.imp (fun h => h.symm) (fun h => h.symm))
          ((nearEnd_comm q p).trans hright)
      rw [hright, eq_comm, hswap]
      simp only [onSegment_comm]

/-- Two cells of a row, from the left one to the right one. -/
theorem drawLine_segment_iff_row :
    ∃ m b,
      Map.make ⟨{}⟩ { width := 2, height := 1 } none = .ok m ∧
        TSConsoleBuffer.make 2 1 = .ok b ∧
        m.DrawsSegment (0, 0) (1, 0) 45 b := by
  obtain ⟨m, b, hmake, hbuffer, hcovers, hconfig⟩ :
      ∃ m b,
        Map.make ⟨{}⟩ { width := 2, height := 1 } none = .ok m ∧
          TSConsoleBuffer.make 2 1 = .ok b ∧ Covers m.config b ∧
          m.config = { width := 2, height := 1 } :=
    ⟨_, _, rfl, rfl, ⟨rfl, by decide, by decide⟩, rfl⟩
  refine ⟨m, b, hmake, hbuffer, ?_⟩
  refine
    (drawLine_segment_iff 45 hcovers (p := (0, 0)) (q := (1, 0)) ?_ ?_
      (Or.inr rfl)).1.mpr ?_
  · rw [hconfig]
    decide
  · rw [hconfig]
    decide
  · exact Or.inl (by decide)

/-- The same two cells, from the right one to the left one. -/
theorem drawLine_segment_iff_fails_backwards :
    ∃ m b,
      Map.make ⟨{}⟩ { width := 2, height := 1 } none = .ok m ∧
        TSConsoleBuffer.make 2 1 = .ok b ∧ Covers m.config b ∧
        m.config.Contains (1, 0) ∧ m.config.Contains (0, 0) ∧
        ¬ m.DrawsSegment (1, 0) (0, 0) 45 b ∧
        m.drawLine 1 0 0 0 45 b ≠ m.drawLine 0 0 1 0 45 b := by
  obtain ⟨m, b, hmake, hbuffer, hcovers, hconfig, hblank⟩ :
      ∃ m b,
        Map.make ⟨{}⟩ { width := 2, height := 1 } none = .ok m ∧
          TSConsoleBuffer.make 2 1 = .ok b ∧ Covers m.config b ∧
          m.config = { width := 2, height := 1 } ∧
          shownAt m.config b (1, 0) = some TSConsoleBuffer.blank :=
    ⟨_, _, rfl, rfl, ⟨rfl, by decide, by decide⟩, rfl, rfl⟩
  have hright : m.config.Contains (1, 0) := by
    rw [hconfig]
    decide
  have hleft : m.config.Contains (0, 0) := by
    rw [hconfig]
    decide
  have hunwritten : ¬ shownAt m.config b (1, 0) = some 45 := by
    rw [hblank]
    decide
  refine ⟨m, b, hmake, hbuffer, hcovers, hright, hleft, ?_, ?_⟩
  · rw [drawsSegment_iff 45 hcovers hright hleft (Or.inr rfl)]
    rintro (hnear | hshown)
    · revert hnear
      decide
    · exact hunwritten (hshown (1, 0) (by decide) (by decide))
  · intro heq
    refine hunwritten ?_
    refine
      (drawLine_comm_iff_of_near (p := (0, 0)) (q := (1, 0)) 45 hcovers hleft
        hright (Or.inr rfl) (by decide)).mp heq.symm (1, 0) (by decide)
        (by decide)

end Segments

section Walls

variable {m : Map} {b b' : TSConsoleBuffer}

theorem Covers.of_sameShape
    {config : MapConfig}
    (h : Covers config b)
    (hshape : TSConsoleBuffer.SameShape b b') :
    Covers config b' where
  sized := hshape.sized
  right := by
    rw [hshape.width]
    exact h.right
  bottom := by
    rw [hshape.height]
    exact h.bottom

/-- The character that a wall field asks for at a cell, if its wall covers the
cell. -/
def wallChar (config : MapConfig) (wall : UInt16) (cell : Int × Int) :
    Option UInt16 :=
  match MapType.ofCode wall with
  | some .rightWall =>
      if cell.1 = (config.width.toNat : Int) - 1 then some 124 else none
  | some .leftWall => if cell.1 = 0 then some 124 else none
  | some .topWall => if cell.2 = 0 then some 45 else none
  | some .bottomWall =>
      if cell.2 = (config.height.toNat : Int) - 1 then some 45 else none
  | some .noWalls => none
  | some .hasFill => none
  | none => none

/-- The buffer shows some new characters on top of what it showed. -/
structure ShowsOver
    (config : MapConfig) (new : Int × Int → Option UInt16)
    (b b' : TSConsoleBuffer) : Prop where
  shape : TSConsoleBuffer.SameShape b b'
  shown : ∀ cell, config.Contains cell →
    shownAt config b' cell = (new cell).or (shownAt config b cell)

/-- Nothing was drawn. -/
theorem ShowsOver.refl
    {config : MapConfig}
    (hcovers : Covers config b) :
    ShowsOver config (fun _ => none) b b where
  shape := ⟨hcovers.sized, rfl, rfl⟩
  shown := fun _ _ => Option.none_or.symm

/-- What is drawn later is on top. -/
theorem ShowsOver.trans
    {config : MapConfig} {new new' : Int × Int → Option UInt16}
    {b₁ b₂ b₃ : TSConsoleBuffer}
    (h : ShowsOver config new b₁ b₂)
    (h' : ShowsOver config new' b₂ b₃) :
    ShowsOver config (fun cell => (new' cell).or (new cell)) b₁ b₃ where
  shape := h.shape.trans h'.shape
  shown := by
    intro cell hcell
    rw [h'.shown cell hcell, h.shown cell hcell, Option.or_assoc]

/-- A line from the near end shows its character at the cells between its
ends. -/
theorem drawLine_shows
    {x y w h : Int} {symb : UInt8} {ch : UInt16}
    {C : Int × Int → Prop} [DecidablePred C]
    (hch : widen symb = ch)
    (hcovers : Covers m.config b)
    (hstart : m.config.Contains (x, y))
    (hend : m.config.Contains (w, h))
    (haligned : x = w ∨ y = h)
    (hcells : ∀ cell, m.config.Contains cell →
      (OnSegment (nearEnd (x, y) (w, h)) (w, h) cell ↔ C cell)) :
    ∃ b', m.drawLine x y w h symb b = .ok b' ∧
      ShowsOver m.config (fun cell => if C cell then some ch else none) b b' := by
  subst hch
  obtain ⟨b', hline, hshape, hdrawn, hkept⟩ :=
    drawLine_aligned symb hcovers hstart hend haligned
  refine ⟨b', hline, hshape, fun cell hcell => ?_⟩
  by_cases hC : C cell
  · rw [if_pos hC, hdrawn cell ((hcells cell hcell).mpr hC)]
    rfl
  · rw [if_neg hC, Option.none_or]
    refine hkept _ _ fun cell' hcell' hplace => ?_
    have hcontains := hcell'.contains (nearEnd_contains hstart hend) hend
    rw [place_inj hcontains hcell hplace] at hcell'
    exact hC ((hcells cell hcell).mp hcell')

/-- A wall shows its character at the cells of one border. -/
theorem drawWall_shows
    (wall : UInt16)
    (hcovers : Covers m.config b)
    (hcorners : Corners m.config) :
    ∃ b', m.drawWall b wall = .ok b' ∧
      ShowsOver m.config (wallChar m.config wall) b b' := by
  have hnone : ShowsOver m.config (fun _ => none) b b := ShowsOver.refl hcovers
  unfold drawWall wallChar
  dsimp only
  cases MapType.ofCode wall with
  | none => exact ⟨b, rfl, hnone⟩
  | some wall =>
      cases wall with
      | noWalls => exact ⟨b, rfl, hnone⟩
      | rightWall =>
          refine
            drawLine_shows (by decide : widen 124 = 124) hcovers hcorners.topRight hcorners.bottomRight
              (Or.inl rfl) ?_
          rintro cell ⟨hleft, hright, htop, hbottom⟩
          simp only [OnSegment, nearEnd]
          omega
      | leftWall =>
          refine
            drawLine_shows (by decide : widen 124 = 124) hcovers hcorners.topLeft hcorners.bottomLeft
              (Or.inl rfl) ?_
          rintro cell ⟨hleft, hright, htop, hbottom⟩
          simp only [OnSegment, nearEnd]
          omega
      | topWall =>
          refine
            drawLine_shows (by decide : widen 45 = 45) hcovers hcorners.topLeft hcorners.topRight
              (Or.inr rfl) ?_
          rintro cell ⟨hleft, hright, htop, hbottom⟩
          simp only [OnSegment, nearEnd]
          omega
      | bottomWall =>
          refine
            drawLine_shows (by decide : widen 45 = 45) hcovers hcorners.bottomLeft hcorners.bottomRight
              (Or.inr rfl) ?_
          rintro cell ⟨hleft, hright, htop, hbottom⟩
          simp only [OnSegment, nearEnd]
          omega
      | hasFill => exact ⟨b, rfl, hnone⟩

/-- Walls that are drawn one after the other: the last one that covers a cell is
on top. -/
theorem foldlM_drawWall_shows
    (walls : List UInt16)
    (hcovers : Covers m.config b)
    (hcorners : Corners m.config) :
    ∃ b', walls.foldlM m.drawWall b = .ok b' ∧
      ShowsOver m.config
        (fun cell =>
          walls.reverse.findSome? fun wall => wallChar m.config wall cell)
        b b' := by
  induction walls generalizing b with
  | nil =>
      exact ⟨b, rfl, ShowsOver.refl hcovers⟩
  | cons wall walls ih =>
      obtain ⟨b₁, hwall, hshows⟩ := drawWall_shows wall hcovers hcorners
      obtain ⟨b', hrest, hshows'⟩ := ih (hcovers.of_sameShape hshows.shape)
      refine ⟨b', ?_, ?_⟩
      · rw [List.foldlM_cons, hwall, bind_ok, hrest]
      · have hboth := hshows.trans hshows'
        simp only [List.reverse_cons, List.findSome?_append,
          List.findSome?_singleton]
        exact hboth

/-- After `start_up` each cell shows the last of the four walls that covers it, or
what it showed if none does, and nothing outside the map is changed. -/
theorem startUp_walls
    (hwidth : 1 ≤ m.config.width.toNat)
    (hheight : 1 ≤ m.config.height.toNat)
    (hcovers : Covers m.config b) :
    ∃ b', m.startUp b = .ok b' ∧
      (∀ cell, m.config.Contains cell →
        shownAt m.config b' cell =
          ([m.config.wallFour, m.config.wallThree, m.config.wallTwo,
              m.config.wallOne].findSome?
            fun wall => wallChar m.config wall cell).or
              (shownAt m.config b cell)) ∧
      ∀ px py, ¬ InRectangle m.config px py →
        b'.charAt px py = b.charAt px py := by
  obtain ⟨b', hstart, hshows⟩ :=
    foldlM_drawWall_shows
      [m.config.wallOne, m.config.wallTwo, m.config.wallThree,
        m.config.wallFour] hcovers (corners_of_pos hwidth hheight)
  obtain ⟨b'', hstart', _, houtside⟩ :=
    startUp_inside hcovers.sized hwidth hheight
  obtain rfl : b' = b'' := Except.ok.inj (hstart.symm.trans hstart')
  exact ⟨b', hstart, hshows.shown, houtside⟩

/-- One cell with a right wall, a bottom wall over it, and a value that is no
wall. -/
def oneCell : MapConfig where
  x := 1
  width := 1
  height := 1
  wallOne := 1
  wallTwo := 4
  wallThree := 77

/-- The map of one cell, in the middle of a row. -/
theorem startUp_walls_one_cell :
    ∃ m b b',
      Map.make ⟨{}⟩ oneCell none = .ok m ∧ TSConsoleBuffer.make 3 1 = .ok b ∧
        m.startUp b = .ok b' ∧ shownAt m.config b' (0, 0) = some 45 ∧
        b'.charAt 0 0 = b.charAt 0 0 := by
  obtain ⟨m, b, hmake, hbuffer, hcovers, hconfig⟩ :
      ∃ m b,
        Map.make ⟨{}⟩ oneCell none = .ok m ∧
          TSConsoleBuffer.make 3 1 = .ok b ∧ Covers m.config b ∧
          m.config = oneCell :=
    ⟨_, _, rfl, rfl, ⟨rfl, by decide, by decide⟩, rfl⟩
  obtain ⟨b', hstart, hshown, houtside⟩ :=
    startUp_walls (m := m) (b := b) (by rw [hconfig]; decide)
      (by rw [hconfig]; decide) hcovers
  refine ⟨m, b, b', hmake, hbuffer, hstart, ?_, ?_⟩
  · rw [hshown (0, 0) (by rw [hconfig]; decide), hconfig]
    rfl
  · exact houtside 0 0 (by rw [hconfig]; decide)

end Walls

end Map

end SpeciesSimulator
