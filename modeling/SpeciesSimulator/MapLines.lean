import SpeciesSimulator.MapScreen

/-!
# Lines of characters

`draw_line` is a sequence of calls of `write_character`.  The two loops of it
write the cells of a row and of a column; the differences that they run to are
cut off at the right and the lower border of the map.  The start of the line is
not compared with any border.

Main facts:
* `Sized.writeAll`: what a sequence of writes does to the characters;
* `drawLine_eq_ok_iff`: the cells that `draw_line` writes, and when it has a
  result;
* `drawLine_inside_iff`: nothing outside the map changes, if and only if no
  cell of the line that is not a cell of the map has a place in the buffer where
  there is another character.
-/

namespace SpeciesSimulator

/-- The values of the type `int`. -/
def IsInt (n : Int) : Prop :=
  -2 ^ 31 ≤ n ∧ n < 2 ^ 31

theorem checkInt_eq_ok_iff {n k : Int} :
    checkInt n = .ok k ↔ IsInt n ∧ n = k := by
  unfold checkInt
  split
  · next h => simp only [Except.ok.injEq, IsInt, h, true_and]
  · next h => simp only [reduceCtorEq, IsInt, h, false_and]

theorem bind_eq_ok_iff
    {α β : Type} {x : Except Fault α} {f : α → Except Fault β} {b : β} :
    (x >>= f) = .ok b ↔ ∃ a, x = .ok a ∧ f a = .ok b := by
  constructor
  · exact exists_of_bind_ok
  · rintro ⟨a, rfl, h⟩
    exact h

/-- A number that is not negative is converted to itself, another one to a number
that no memory can be indexed with. -/
theorem toSize_eq_iff
    {n : Int} {k : Nat}
    (hn : IsInt n)
    (hk : k < 2 ^ 32) :
    toSize n = k ↔ n = k := by
  obtain ⟨hlow, hhigh⟩ := hn
  unfold toSize
  omega

namespace TSConsoleBuffer

/-- A call of `write_character`. -/
structure Write where
  xpos : Nat
  ypos : Nat
  symb : UInt8
deriving DecidableEq

def write (b : TSConsoleBuffer) (w : Write) : Except Fault TSConsoleBuffer :=
  b.writeCharacter w.xpos w.ypos w.symb

/-- One call after the other. -/
def writeAll (b : TSConsoleBuffer) (ws : List Write) :
    Except Fault TSConsoleBuffer :=
  ws.foldlM write b

/-- The character that the writes leave at a position, if there is one. -/
def charAfter (ws : List Write) (px py : Nat) (ch : Option UInt16) :
    Option UInt16 :=
  ws.foldl
    (fun ch w =>
      if w.xpos = px ∧ w.ypos = py then ch.map (fun _ => widen w.symb) else ch)
    ch

/-- The memory has the size it had. -/
structure SameShape (b b' : TSConsoleBuffer) : Prop where
  sized : b'.Sized
  width : b'.width = b.width
  height : b'.height = b.height

section Writes

variable {b b' : TSConsoleBuffer} {ws ws' : List Write} {px py : Nat}

theorem SameShape.trans
    {b₁ b₂ b₃ : TSConsoleBuffer}
    (h : SameShape b₁ b₂)
    (h' : SameShape b₂ b₃) :
    SameShape b₁ b₃ :=
  ⟨h'.sized, h'.width.trans h.width, h'.height.trans h.height⟩

theorem writeAll_append :
    b.writeAll (ws ++ ws') = b.writeAll ws >>= fun b' => b'.writeAll ws' := by
  simp only [writeAll, List.foldlM_append]

/-- Positions outside of the buffer have no character. -/
theorem charAt_eq_none
    (h : ¬ (px < b.width ∧ py < b.height)) :
    b.charAt px py = none := by
  simp only [charAt, h, if_false]

/-- Positions inside of the buffer have one. -/
theorem Sized.exists_charAt
    (h : b.Sized)
    (hx : px < b.width)
    (hy : py < b.height) :
    ∃ ch, b.charAt px py = some ch := by
  have hlt : py * b.width + px < b.charBuffer.length := by
    rw [h]
    exact index_lt hx hy
  refine ⟨b.charBuffer[py * b.width + px], ?_⟩
  simp only [charAt, hx, hy, and_self, if_true, List.getElem?_eq_getElem hlt]

/-- What one call does. -/
theorem Sized.write
    (h : b.Sized)
    (w : Write) :
    ∃ b', b.write w = .ok b' ∧ SameShape b b' ∧
      ∀ px py, b'.charAt px py = charAfter [w] px py (b.charAt px py) := by
  obtain ⟨b', hwrite, hsized, hwidth, hheight⟩ :=
    h.writeCharacter w.xpos w.ypos w.symb
  refine ⟨b', hwrite, ⟨hsized, hwidth, hheight⟩, fun px py => ?_⟩
  simp only [charAfter, List.foldl_cons, List.foldl_nil]
  by_cases hguard : w.xpos < b.width ∧ w.ypos < b.height
  · rw [charAt_writeCharacter h hguard.1 hguard.2 hwrite]
    by_cases hp : px = w.xpos ∧ py = w.ypos
    · obtain ⟨rfl, rfl⟩ := hp
      obtain ⟨ch, hch⟩ := h.exists_charAt hguard.1 hguard.2
      simp [hch]
    · rw [if_neg hp, if_neg fun hp' => hp ⟨hp'.1.symm, hp'.2.symm⟩]
  · have hsame : b' = b := by
      simp only [TSConsoleBuffer.writeCharacter, hguard, if_false] at hwrite
      exact (Except.ok.inj hwrite).symm
    subst hsame
    split
    · next hp =>
      obtain ⟨rfl, rfl⟩ := hp
      rw [charAt_eq_none hguard]
      rfl
    · rfl

/-- What a sequence of calls does. -/
theorem Sized.writeAll
    (h : b.Sized)
    (ws : List Write) :
    ∃ b', b.writeAll ws = .ok b' ∧ SameShape b b' ∧
      ∀ px py, b'.charAt px py = charAfter ws px py (b.charAt px py) := by
  induction ws generalizing b with
  | nil =>
      exact ⟨b, rfl, ⟨h, rfl, rfl⟩, fun _ _ => rfl⟩
  | cons w ws ih =>
      obtain ⟨b₁, hwrite, hshape, hchar⟩ := h.write w
      obtain ⟨b', hrest, hshape', hchar'⟩ := ih hshape.sized
      refine ⟨b', ?_, hshape.trans hshape', fun px py => ?_⟩
      · simp only [TSConsoleBuffer.writeAll] at hrest ⊢
        rw [List.foldlM_cons, hwrite, bind_ok, hrest]
      · rw [hchar', hchar]
        rfl

/-- A position that is not written keeps its character. -/
theorem charAfter_of_forall_ne
    {ch : Option UInt16}
    (h : ∀ w ∈ ws, ¬ (w.xpos = px ∧ w.ypos = py)) :
    charAfter ws px py ch = ch := by
  induction ws generalizing ch with
  | nil =>
      rfl
  | cons w ws ih =>
      have hw := h w (by simp)
      have hws : charAfter ws px py ch = ch :=
        ih fun w' hw' => h w' (List.mem_cons_of_mem _ hw')
      simp only [charAfter, List.foldl_cons, if_neg hw] at hws ⊢
      exact hws

/-- A position that is written with one character gets it, if it has one. -/
theorem charAfter_of_symb
    {ch : Option UInt16} {symb : UInt8}
    (hsymb : ∀ w ∈ ws, w.symb = symb)
    (h : ∃ w ∈ ws, w.xpos = px ∧ w.ypos = py) :
    charAfter ws px py ch = ch.map fun _ => widen symb := by
  induction ws generalizing ch with
  | nil =>
      obtain ⟨w, hw, -⟩ := h
      cases hw
  | cons w ws ih =>
      have hws : ∀ w' ∈ ws, w'.symb = symb :=
        fun w' hw' => hsymb w' (List.mem_cons_of_mem _ hw')
      have hhead :
          charAfter (w :: ws) px py ch =
            charAfter ws px py
              (if w.xpos = px ∧ w.ypos = py then ch.map (fun _ => widen symb)
              else ch) := by
        rw [← hsymb w (by simp)]
        rfl
      rw [hhead]
      by_cases hlater : ∃ w' ∈ ws, w'.xpos = px ∧ w'.ypos = py
      · rw [ih hws hlater]
        split
        · rw [Option.map_map]
          rfl
        · rfl
      · have hnone : ∀ w' ∈ ws, ¬ (w'.xpos = px ∧ w'.ypos = py) :=
          fun w' hw' hp => hlater ⟨w', hw', hp⟩
        rw [charAfter_of_forall_ne hnone]
        obtain ⟨w', hw', hp⟩ := h
        rcases List.mem_cons.mp hw' with rfl | hw'
        · rw [if_pos hp]
        · exact absurd ⟨w', hw', hp⟩ hlater

end Writes

end TSConsoleBuffer

namespace MapConfig

section Line

/-- The column in which a line starts. -/
def lineX (x w : Int) : Int :=
  if w < x then w else x

/-- The row in which a line starts; it is the last one if the line is not in a
column. -/
def lineY (x y w h : Int) : Int :=
  let y := if h < y then h else y
  if lineX x w ≠ w ∧ y ≠ h then h else y

/-- The cells of a line: those of a row, and those of a column. -/
def OnLine (config : MapConfig) (x y w h : Int) (cell : Int × Int) : Prop :=
  (lineX x w ≤ cell.1 ∧ cell.1 ≤ w ∧ cell.1 < config.width.toNat ∧
      cell.2 = lineY x y w h) ∨
    (lineY x y w h ≤ cell.2 ∧ cell.2 ≤ h ∧ cell.2 < config.height.toNat ∧
      cell.1 = lineX x w)

/-- No number that `draw_line` computes leaves the range of `int`. -/
structure LineFits (config : MapConfig) (x y w h : Int) : Prop where
  difX : w - lineX x w < 2 ^ 31
  difY : h - lineY x y w h < 2 ^ 31
  countX : min w (config.width.toNat - 1) - lineX x w + 1 < 2 ^ 31
  countY : min h (config.height.toNat - 1) - lineY x y w h + 1 < 2 ^ 31
  cells : ∀ cell, config.OnLine x y w h cell →
    cell.1 + config.x.toNat < 2 ^ 31 ∧ cell.2 + config.y.toNat < 2 ^ 31

/-- The call that writes a cell. -/
def cellWrite (config : MapConfig) (symb : UInt8) (cell : Int × Int) :
    TSConsoleBuffer.Write where
  xpos := toSize (cell.1 + config.x.toNat)
  ypos := toSize (cell.2 + config.y.toNat)
  symb := symb

/-- The cells in the order in which they are written. -/
def lineCells (config : MapConfig) (x y w h : Int) : List (Int × Int) :=
  let countX := min w (config.width.toNat - 1) - lineX x w + 1
  let countY := min h (config.height.toNat - 1) - lineY x y w h + 1
  (List.range countX.toNat).map
      (fun r : Nat => (lineX x w + r, lineY x y w h)) ++
    (List.range countY.toNat).map
      (fun c : Nat => (lineX x w, lineY x y w h + c))

/-- The calls that draw a line. -/
def lineWrites
    (config : MapConfig) (x y w h : Int) (symb : UInt8) :
    List TSConsoleBuffer.Write :=
  (config.lineCells x y w h).map (config.cellWrite symb)

variable {config : MapConfig} {x y w h : Int} {cell : Int × Int}

theorem lineX_spec
    (hx : IsInt x)
    (hw : IsInt w) :
    lineX x w ≤ w ∧ IsInt (lineX x w) := by
  unfold lineX
  split
  · exact ⟨by omega, hw⟩
  · exact ⟨by omega, hx⟩

theorem lineY_spec
    (x w : Int)
    (hy : IsInt y)
    (hh : IsInt h) :
    lineY x y w h ≤ h ∧ IsInt (lineY x y w h) := by
  unfold lineY
  by_cases hlt : h < y
  · simp only [hlt, if_true, ite_self]
    exact ⟨le_refl h, hh⟩
  · simp only [hlt, if_false]
    split
    · exact ⟨le_refl h, hh⟩
    · exact ⟨by omega, hy⟩

theorem mem_range_map_iff
    {α : Type} {a : α} {f : Int → α} {first last : Int} :
    a ∈ (List.range (last - first + 1).toNat).map
          (fun r : Nat => f (first + r)) ↔
      ∃ n, first ≤ n ∧ n ≤ last ∧ f n = a := by
  simp only [List.mem_map, List.mem_range]
  constructor
  · rintro ⟨r, hr, rfl⟩
    exact ⟨first + r, by omega, by omega, rfl⟩
  · rintro ⟨n, hfirst, hlast, rfl⟩
    refine ⟨(n - first).toNat, by omega, ?_⟩
    congr 1
    omega

theorem mem_lineCells_iff :
    cell ∈ config.lineCells x y w h ↔ config.OnLine x y w h cell := by
  obtain ⟨cx, cy⟩ := cell
  simp only [lineCells, List.mem_append]
  rw [mem_range_map_iff (f := fun n => (n, lineY x y w h)),
    mem_range_map_iff (f := fun n => (lineX x w, n))]
  simp only [OnLine, Prod.mk.injEq]
  constructor
  · rintro (⟨n, hfirst, hlast, rfl, rfl⟩ | ⟨n, hfirst, hlast, rfl, rfl⟩)
    · left
      omega
    · right
      omega
  · rintro (⟨hfirst, hlast, hwidth, rfl⟩ | ⟨hfirst, hlast, hheight, rfl⟩)
    · exact Or.inl ⟨cx, hfirst, by omega, rfl, rfl⟩
    · exact Or.inr ⟨cy, hfirst, by omega, rfl, rfl⟩

/-- The positions of a line that fits are computed with `int`. -/
theorem LineFits.isInt
    (hx : IsInt x)
    (hy : IsInt y)
    (hw : IsInt w)
    (hh : IsInt h)
    (hfits : config.LineFits x y w h)
    (hcell : config.OnLine x y w h cell) :
    IsInt (cell.1 + config.x.toNat) ∧ IsInt (cell.2 + config.y.toNat) := by
  obtain ⟨_, hlowX, _⟩ := lineX_spec hx hw
  obtain ⟨_, hlowY, _⟩ := lineY_spec x w hy hh
  obtain ⟨hright, hbottom⟩ := hfits.cells cell hcell
  rcases hcell with ⟨hfirst, _, _, hrow⟩ | ⟨hfirst, _, _, hcolumn⟩
  · exact ⟨⟨by omega, hright⟩, by omega, hbottom⟩
  · exact ⟨⟨by omega, hright⟩, by omega, hbottom⟩

end Line

end MapConfig

namespace Map

section Line

variable {m : Map} {x y w h : Int} {symb : UInt8} {b b' : TSConsoleBuffer}

/-- The rounds of a loop of `draw_line` are calls of `write_character`, if the
positions can be computed. -/
theorem foldlM_round_eq_ok_iff
    {α : Type} {as : List α} {xpos ypos : α → Int} :
    as.foldlM
        (fun b a => do
          let xpos ← checkInt (xpos a)
          let ypos ← checkInt (ypos a)
          b.writeCharacter (toSize xpos) (toSize ypos) symb)
        b = .ok b' ↔
      (∀ a ∈ as, IsInt (xpos a) ∧ IsInt (ypos a)) ∧
        b.writeAll
          (as.map fun a => ⟨toSize (xpos a), toSize (ypos a), symb⟩) =
            .ok b' := by
  induction as generalizing b with
  | nil =>
      simp [TSConsoleBuffer.writeAll]
  | cons a as ih =>
      simp only [List.foldlM_cons, bind_eq_ok_iff, ih, checkInt_eq_ok_iff,
        List.forall_mem_cons, List.map_cons, TSConsoleBuffer.writeAll,
        TSConsoleBuffer.write]
      constructor
      · rintro ⟨b₁, ⟨_, ⟨hx, rfl⟩, _, ⟨hy, rfl⟩, hwrite⟩, has, hrest⟩
        exact ⟨⟨⟨hx, hy⟩, has⟩, b₁, hwrite, hrest⟩
      · rintro ⟨⟨⟨hx, hy⟩, has⟩, b₁, hwrite, hrest⟩
        exact ⟨b₁, ⟨_, ⟨hx, rfl⟩, _, ⟨hy, rfl⟩, hwrite⟩, has, hrest⟩

/-- A difference that is cut off at a border of the map. -/
theorem cutOff_eq
    {start last border : Int}
    (hstart : IsInt start)
    (hborder : -1 ≤ border)
    (hdif : IsInt (last - start)) :
    (if border < start + (last - start) then checkInt (border - start)
      else pure (last - start)) =
      (.ok (min last border - start) : Except Fault Int) := by
  obtain ⟨_, hhigh⟩ := hstart
  obtain ⟨_, hhigh'⟩ := hdif
  split
  · rw [checkInt_of_range (by omega) (by omega)]
    congr 1
    omega
  · simp only [pure_eq_ok, Except.ok.injEq]
    omega

theorem bind_ite
    {α β : Type} {c : Prop} [Decidable c] {u v : Except Fault α}
    {f : α → Except Fault β} :
    (if c then u >>= f else v >>= f) = (if c then u else v) >>= f := by
  split <;> rfl

/-- `draw_line` with its start. -/
theorem drawLine_eq :
    m.drawLine x y w h symb b =
      (do
        let difX ← checkInt (w - MapConfig.lineX x w)
        let difY ← checkInt (h - MapConfig.lineY x y w h)
        let difX ←
          (if (m.config.width.toNat : Int) - 1 < MapConfig.lineX x w + difX then
            checkInt ((m.config.width.toNat : Int) - 1 - MapConfig.lineX x w)
          else pure difX)
        let difY ←
          (if (m.config.height.toNat : Int) - 1 <
              MapConfig.lineY x y w h + difY then
            checkInt
              ((m.config.height.toNat : Int) - 1 - MapConfig.lineY x y w h)
          else pure difY)
        let countX ← checkInt (difX + 1)
        let countY ← checkInt (difY + 1)
        let buffer ←
          (List.range countX.toNat).foldlM
            (fun b (r : Nat) => do
              let xpos ←
                checkInt (MapConfig.lineX x w + r + m.config.x.toNat)
              let ypos ←
                checkInt (MapConfig.lineY x y w h + m.config.y.toNat)
              b.writeCharacter (toSize xpos) (toSize ypos) symb)
            b
        (List.range countY.toNat).foldlM
          (fun b (c : Nat) => do
            let xpos ← checkInt (MapConfig.lineX x w + m.config.x.toNat)
            let ypos ←
              checkInt (MapConfig.lineY x y w h + c + m.config.y.toNat)
            b.writeCharacter (toSize xpos) (toSize ypos) symb)
          buffer) := by
  unfold drawLine
  dsimp only
  simp only [bind_ite, bind_pure_comp, List.map_eq_map, List.foldlM_map]
  rfl

/-- The loops of `draw_line` write the cells of the line. -/
theorem loops_eq_ok_iff
    (nx ny : Nat) (x₀ y₀ cx cy : Int) (symb : UInt8)
    (b b' : TSConsoleBuffer) :
    (do
      let buffer ←
        (List.range nx).foldlM
          (fun (b : TSConsoleBuffer) (r : Nat) => do
            let xpos ← checkInt (x₀ + r + cx)
            let ypos ← checkInt (y₀ + cy)
            b.writeCharacter (toSize xpos) (toSize ypos) symb)
          b
      (List.range ny).foldlM
        (fun (b : TSConsoleBuffer) (c : Nat) => do
          let xpos ← checkInt (x₀ + cx)
          let ypos ← checkInt (y₀ + c + cy)
          b.writeCharacter (toSize xpos) (toSize ypos) symb)
        buffer) = .ok b' ↔
      (∀ cell ∈
          (List.range nx).map (fun r : Nat => (x₀ + r, y₀)) ++
            (List.range ny).map (fun c : Nat => (x₀, y₀ + c)),
        IsInt (cell.1 + cx) ∧ IsInt (cell.2 + cy)) ∧
        b.writeAll
          (((List.range nx).map (fun r : Nat => (x₀ + r, y₀)) ++
              (List.range ny).map (fun c : Nat => (x₀, y₀ + c))).map
            fun cell =>
              ⟨toSize (cell.1 + cx), toSize (cell.2 + cy), symb⟩) =
          .ok b' := by
  simp only [bind_eq_ok_iff, foldlM_round_eq_ok_iff, List.map_append,
    TSConsoleBuffer.writeAll_append, List.forall_mem_append,
    List.forall_mem_map, List.map_map]
  constructor
  · rintro ⟨b₁, ⟨hrows, hwrite⟩, hcolumns, hwrite'⟩
    exact ⟨⟨hrows, hcolumns⟩, b₁, hwrite, hwrite'⟩
  · rintro ⟨⟨hrows, hcolumns⟩, b₁, hwrite, hwrite'⟩
    exact ⟨b₁, ⟨hrows, hwrite⟩, hcolumns, hwrite'⟩

/-- `draw_line` has a result if all numbers can be computed; it writes the cells
of the line. -/
theorem drawLine_eq_ok_iff
    (hx : IsInt x)
    (hy : IsInt y)
    (hw : IsInt w)
    (hh : IsInt h) :
    m.drawLine x y w h symb b = .ok b' ↔
      m.config.LineFits x y w h ∧
        b.writeAll (m.config.lineWrites x y w h symb) = .ok b' := by
  obtain ⟨hxle, hx₀⟩ := MapConfig.lineX_spec hx hw
  obtain ⟨hyle, hy₀⟩ := MapConfig.lineY_spec x w hy hh
  have hloops :=
    loops_eq_ok_iff
      (min w (m.config.width.toNat - 1) - MapConfig.lineX x w + 1).toNat
      (min h (m.config.height.toNat - 1) - MapConfig.lineY x y w h + 1).toNat
      (MapConfig.lineX x w) (MapConfig.lineY x y w h)
      m.config.x.toNat m.config.y.toNat symb b b'
  rw [drawLine_eq]
  constructor
  · intro hline
    obtain ⟨_, hcheckX, hline⟩ := exists_of_bind_ok hline
    obtain ⟨_, hcheckY, hline⟩ := exists_of_bind_ok hline
    obtain ⟨hdifX, rfl⟩ := checkInt_eq_ok_iff.mp hcheckX
    obtain ⟨hdifY, rfl⟩ := checkInt_eq_ok_iff.mp hcheckY
    rw [cutOff_eq hx₀ (by omega) hdifX, cutOff_eq hy₀ (by omega) hdifY,
      bind_ok, bind_ok] at hline
    obtain ⟨_, hcheckX, hline⟩ := exists_of_bind_ok hline
    obtain ⟨_, hcheckY, hline⟩ := exists_of_bind_ok hline
    obtain ⟨hcountX, rfl⟩ := checkInt_eq_ok_iff.mp hcheckX
    obtain ⟨hcountY, rfl⟩ := checkInt_eq_ok_iff.mp hcheckY
    obtain ⟨hcells, hwrites⟩ := hloops.mp hline
    refine ⟨⟨hdifX.2, hdifY.2, hcountX.2, hcountY.2, ?_⟩, hwrites⟩
    intro cell hcell
    have hcell' := hcells cell (MapConfig.mem_lineCells_iff.mpr hcell)
    exact ⟨hcell'.1.2, hcell'.2.2⟩
  · rintro ⟨hfits, hwrites⟩
    have hdifX : IsInt (w - MapConfig.lineX x w) :=
      ⟨by omega, hfits.difX⟩
    have hdifY : IsInt (h - MapConfig.lineY x y w h) :=
      ⟨by omega, hfits.difY⟩
    have hcountX := checkInt_of_range (by have := hx₀.2; omega) hfits.countX
    have hcountY := checkInt_of_range (by have := hy₀.2; omega) hfits.countY
    rw [checkInt_eq_ok_iff.mpr ⟨hdifX, rfl⟩, bind_ok,
      checkInt_eq_ok_iff.mpr ⟨hdifY, rfl⟩, bind_ok,
      cutOff_eq hx₀ (by omega) hdifX, cutOff_eq hy₀ (by omega) hdifY,
      bind_ok, bind_ok, hcountX, bind_ok, hcountY, bind_ok]
    refine hloops.mpr ⟨fun cell hcell => ?_, hwrites⟩
    exact hfits.isInt hx hy hw hh (MapConfig.mem_lineCells_iff.mp hcell)

end Line

section Rectangle

/-- The position of the buffer is in the rectangle of the map. -/
def InRectangle (config : MapConfig) (px py : Nat) : Prop :=
  config.x.toNat ≤ px ∧ px < config.x.toNat + config.width.toNat ∧
    config.y.toNat ≤ py ∧ py < config.y.toNat + config.height.toNat

instance (config : MapConfig) (px py : Nat) :
    Decidable (InRectangle config px py) :=
  inferInstanceAs (Decidable (_ ∧ _))

variable {config : MapConfig} {cell : Int × Int}

/-- A cell that is not one of the map has its place outside the rectangle. -/
theorem not_inRectangle
    (hfitsX : IsInt (cell.1 + config.x.toNat))
    (hfitsY : IsInt (cell.2 + config.y.toNat))
    (hcell : ¬ config.Contains cell) :
    ¬ InRectangle config (toSize (cell.1 + config.x.toNat))
        (toSize (cell.2 + config.y.toNat)) := by
  rintro ⟨hleft, hright, htop, hbottom⟩
  have hx := config.x.toNat_lt
  have hy := config.y.toNat_lt
  have hwidth := config.width.toNat_lt
  have hheight := config.height.toNat_lt
  have hsizeX := (toSize_eq_iff hfitsX (by omega)).mp rfl
  have hsizeY := (toSize_eq_iff hfitsY (by omega)).mp rfl
  refine hcell ⟨?_, ?_, ?_, ?_⟩ <;> omega

/-- A cell of the map has its place in the rectangle. -/
theorem inRectangle_of_contains
    (hcell : config.Contains cell) :
    InRectangle config (toSize (cell.1 + config.x.toNat))
      (toSize (cell.2 + config.y.toNat)) := by
  obtain ⟨hleft, hright, htop, hbottom⟩ := hcell
  have hx := config.x.toNat_lt
  have hy := config.y.toNat_lt
  have hwidth := config.width.toNat_lt
  have hheight := config.height.toNat_lt
  unfold InRectangle toSize
  refine ⟨?_, ?_, ?_, ?_⟩ <;> omega

end Rectangle

section Walls

variable {m : Map} {b b' : TSConsoleBuffer}

/-- The coordinates of a cell of the map are in the range of `int`. -/
theorem isInt_of_contains
    {config : MapConfig} {cell : Int × Int}
    (h : config.Contains cell) :
    IsInt cell.1 ∧ IsInt cell.2 := by
  obtain ⟨hleft, hright, htop, hbottom⟩ := h
  have hwidth := config.width.toNat_lt
  have hheight := config.height.toNat_lt
  exact ⟨⟨by omega, by omega⟩, by omega, by omega⟩

/-- A line between cells of the map can be drawn, and stays in the map. -/
theorem line_of_contains
    {config : MapConfig} {x y w h : Int}
    (hstart : config.Contains (x, y))
    (hend : config.Contains (w, h)) :
    config.LineFits x y w h ∧
      ∀ cell, config.OnLine x y w h cell → config.Contains cell := by
  obtain ⟨hx₀, hx, hy₀, hy⟩ := hstart
  obtain ⟨hw₀, hw, hh₀, hh⟩ := hend
  dsimp only at hx₀ hx hy₀ hy hw₀ hw hh₀ hh
  have hwidth := config.width.toNat_lt
  have hheight := config.height.toNat_lt
  have hoffsetX := config.x.toNat_lt
  have hoffsetY := config.y.toNat_lt
  have hcolumn : 0 ≤ MapConfig.lineX x w ∧ MapConfig.lineX x w ≤ w := by
    unfold MapConfig.lineX
    split <;> omega
  have hrow : 0 ≤ MapConfig.lineY x y w h ∧ MapConfig.lineY x y w h ≤ h := by
    unfold MapConfig.lineY
    dsimp only
    split_ifs <;> omega
  have hinside : ∀ cell, config.OnLine x y w h cell → config.Contains cell := by
    rintro cell (⟨hfirst, hlast, _, heq⟩ | ⟨hfirst, hlast, _, heq⟩)
    · exact ⟨by omega, by omega, by omega, by omega⟩
    · exact ⟨by omega, by omega, by omega, by omega⟩
  refine ⟨⟨by omega, by omega, by omega, by omega, ?_⟩, hinside⟩
  intro cell hcell
  obtain ⟨_, hright, _, hbottom⟩ := hinside cell hcell
  omega

/-- The calls that draw a wall. -/
def wallWrites (config : MapConfig) (wall : UInt16) :
    List TSConsoleBuffer.Write :=
  let right : Int := (config.width.toNat : Int) - 1
  let bottom : Int := (config.height.toNat : Int) - 1
  match MapType.ofCode wall with
  | some .rightWall => config.lineWrites right 0 right bottom 124
  | some .leftWall => config.lineWrites 0 0 0 bottom 124
  | some .topWall => config.lineWrites 0 0 right 0 45
  | some .bottomWall => config.lineWrites 0 bottom right bottom 45
  | some .noWalls => []
  | some .hasFill => []
  | none => []

/-- The calls that `start_up` makes. -/
def startUpWrites (config : MapConfig) : List TSConsoleBuffer.Write :=
  [config.wallOne, config.wallTwo, config.wallThree,
    config.wallFour].flatMap (wallWrites config)

theorem drawLine_of_contains
    {x y w h : Int} {symb : UInt8}
    (hstart : m.config.Contains (x, y))
    (hend : m.config.Contains (w, h)) :
    m.drawLine x y w h symb b = .ok b' ↔
      b.writeAll (m.config.lineWrites x y w h symb) = .ok b' := by
  obtain ⟨hx, hy⟩ := isInt_of_contains hstart
  obtain ⟨hw, hh⟩ := isInt_of_contains hend
  rw [drawLine_eq_ok_iff hx hy hw hh]
  exact and_iff_right (line_of_contains hstart hend).1

/-- The corners of a map are cells of it. -/
structure Corners (config : MapConfig) : Prop where
  topLeft : config.Contains (0, 0)
  topRight : config.Contains ((config.width.toNat : Int) - 1, 0)
  bottomLeft : config.Contains (0, (config.height.toNat : Int) - 1)
  bottomRight :
    config.Contains
      ((config.width.toNat : Int) - 1, (config.height.toNat : Int) - 1)

theorem corners_of_pos
    {config : MapConfig}
    (hwidth : 1 ≤ config.width.toNat)
    (hheight : 1 ≤ config.height.toNat) :
    Corners config := by
  constructor <;> unfold MapConfig.Contains <;> dsimp only <;> omega

theorem drawWall_eq_ok_iff
    {wall : UInt16}
    (hwidth : 1 ≤ m.config.width.toNat)
    (hheight : 1 ≤ m.config.height.toNat) :
    m.drawWall b wall = .ok b' ↔
      b.writeAll (wallWrites m.config wall) = .ok b' := by
  have hcorners := corners_of_pos hwidth hheight
  unfold drawWall wallWrites
  dsimp only
  cases MapType.ofCode wall with
  | none => rfl
  | some wall =>
      cases wall with
      | noWalls => rfl
      | rightWall =>
          exact drawLine_of_contains hcorners.topRight hcorners.bottomRight
      | leftWall =>
          exact drawLine_of_contains hcorners.topLeft hcorners.bottomLeft
      | topWall =>
          exact drawLine_of_contains hcorners.topLeft hcorners.topRight
      | bottomWall =>
          exact drawLine_of_contains hcorners.bottomLeft hcorners.bottomRight
      | hasFill => rfl

/-- A loop whose rounds are calls of `write_character`. -/
theorem foldlM_eq_ok_iff_writeAll
    {α : Type} {f : TSConsoleBuffer → α → Except Fault TSConsoleBuffer}
    {g : α → List TSConsoleBuffer.Write} {as : List α}
    (h : ∀ a b b', f b a = .ok b' ↔ b.writeAll (g a) = .ok b') :
    as.foldlM f b = .ok b' ↔ b.writeAll (as.flatMap g) = .ok b' := by
  induction as generalizing b with
  | nil => rfl
  | cons a as ih =>
      simp only [List.foldlM_cons, List.flatMap_cons,
        TSConsoleBuffer.writeAll_append, bind_eq_ok_iff, h, ih]

/-- `start_up` is a sequence of calls of `write_character`. -/
theorem startUp_eq_ok_iff
    (hwidth : 1 ≤ m.config.width.toNat)
    (hheight : 1 ≤ m.config.height.toNat) :
    m.startUp b = .ok b' ↔
      b.writeAll (startUpWrites m.config) = .ok b' :=
  foldlM_eq_ok_iff_writeAll fun _ _ _ => drawWall_eq_ok_iff hwidth hheight

/-- The walls of a map are drawn in its rectangle. -/
theorem inRectangle_of_mem_startUpWrites
    {config : MapConfig} {w : TSConsoleBuffer.Write}
    (hwidth : 1 ≤ config.width.toNat)
    (hheight : 1 ≤ config.height.toNat)
    (h : w ∈ startUpWrites config) :
    InRectangle config w.xpos w.ypos := by
  have hline :
      ∀ {x y w' h' : Int} {symb : UInt8},
        config.Contains (x, y) → config.Contains (w', h') →
          w ∈ config.lineWrites x y w' h' symb →
            InRectangle config w.xpos w.ypos := by
    intro x y w' h' symb hstart hend hw
    obtain ⟨cell, hcell, rfl⟩ := List.mem_map.mp hw
    have honLine := MapConfig.mem_lineCells_iff.mp hcell
    exact
      inRectangle_of_contains ((line_of_contains hstart hend).2 cell honLine)
  obtain ⟨wall, _, hw⟩ := List.mem_flatMap.mp h
  have hcorners := corners_of_pos hwidth hheight
  unfold wallWrites at hw
  dsimp only at hw
  split at hw
  · exact hline hcorners.topRight hcorners.bottomRight hw
  · exact hline hcorners.topLeft hcorners.bottomLeft hw
  · exact hline hcorners.topLeft hcorners.topRight hw
  · exact hline hcorners.bottomLeft hcorners.bottomRight hw
  · cases hw
  · cases hw
  · cases hw

/-- Writes to places of a map have a result, in which nothing outside the map is
changed. -/
theorem writeAll_inside
    {config : MapConfig} {ws : List TSConsoleBuffer.Write}
    (hsized : b.Sized)
    (h : ∀ w ∈ ws, InRectangle config w.xpos w.ypos) :
    ∃ b', b.writeAll ws = .ok b' ∧ TSConsoleBuffer.SameShape b b' ∧
      ∀ px py, ¬ InRectangle config px py →
        b'.charAt px py = b.charAt px py := by
  obtain ⟨b', hwrites, hshape, hchar⟩ := hsized.writeAll ws
  refine ⟨b', hwrites, hshape, fun px py hout => ?_⟩
  rw [hchar]
  refine TSConsoleBuffer.charAfter_of_forall_ne fun w hw => ?_
  rintro ⟨rfl, rfl⟩
  exact hout (h w hw)

/-- `start_up` has a result, in which nothing outside the map is changed. -/
theorem startUp_inside
    (hsized : b.Sized)
    (hwidth : 1 ≤ m.config.width.toNat)
    (hheight : 1 ≤ m.config.height.toNat) :
    ∃ b', m.startUp b = .ok b' ∧ TSConsoleBuffer.SameShape b b' ∧
      ∀ px py, ¬ InRectangle m.config px py →
        b'.charAt px py = b.charAt px py := by
  simp only [startUp_eq_ok_iff hwidth hheight]
  exact
    writeAll_inside hsized fun w hw =>
      inRectangle_of_mem_startUpWrites hwidth hheight hw

end Walls

section Inside

variable {m : Map} {x y w h : Int} {symb : UInt8} {b b' : TSConsoleBuffer}

/-- What a line leaves at each position of the buffer. -/
theorem charAt_drawLine
    (symb : UInt8)
    (hsized : b.Sized)
    (hx : IsInt x)
    (hy : IsInt y)
    (hw : IsInt w)
    (hh : IsInt h)
    (hfits : m.config.LineFits x y w h) :
    ∃ b', m.drawLine x y w h symb b = .ok b' ∧
      TSConsoleBuffer.SameShape b b' ∧
      ∀ px py,
        ((∃ cell, m.config.OnLine x y w h cell ∧
            toSize (cell.1 + m.config.x.toNat) = px ∧
            toSize (cell.2 + m.config.y.toNat) = py) →
          b'.charAt px py = (b.charAt px py).map fun _ => widen symb) ∧
        ((∀ cell, m.config.OnLine x y w h cell →
            ¬ (toSize (cell.1 + m.config.x.toNat) = px ∧
              toSize (cell.2 + m.config.y.toNat) = py)) →
          b'.charAt px py = b.charAt px py) := by
  obtain ⟨b', hwrites, hshape, hchar⟩ :=
    hsized.writeAll (m.config.lineWrites x y w h symb)
  have hline := (drawLine_eq_ok_iff hx hy hw hh).mpr ⟨hfits, hwrites⟩
  refine ⟨b', hline, hshape, fun px py => ⟨?_, ?_⟩⟩
  · rintro ⟨cell, hcell, htarget⟩
    rw [hchar]
    refine TSConsoleBuffer.charAfter_of_symb ?_ ?_
    · intro w' hw'
      obtain ⟨_, _, rfl⟩ := List.mem_map.mp hw'
      rfl
    · have hmem := MapConfig.mem_lineCells_iff.mpr hcell
      exact ⟨_, List.mem_map_of_mem hmem, htarget⟩
  · intro hnone
    rw [hchar]
    refine TSConsoleBuffer.charAfter_of_forall_ne fun w' hw' => ?_
    obtain ⟨cell, hcell, rfl⟩ := List.mem_map.mp hw'
    exact hnone cell (MapConfig.mem_lineCells_iff.mp hcell)

/-- The line has a result, in which nothing outside the map is changed. -/
def LineStaysInside
    (m : Map) (x y w h : Int) (symb : UInt8) (b : TSConsoleBuffer) : Prop :=
  ∃ b', m.drawLine x y w h symb b = .ok b' ∧
    ∀ px py, ¬ InRectangle m.config px py →
      b'.charAt px py = b.charAt px py

/-- Nothing outside the map is changed by a line, if and only if its numbers can
be computed and no cell of it that is not one of the map has a place in the
buffer where there is another character. -/
theorem drawLine_inside_iff
    (hsized : b.Sized)
    (hx : IsInt x)
    (hy : IsInt y)
    (hw : IsInt w)
    (hh : IsInt h) :
    m.LineStaysInside x y w h symb b ↔
      m.config.LineFits x y w h ∧
        ∀ cell, m.config.OnLine x y w h cell → ¬ m.config.Contains cell →
          ∀ ch,
            b.charAt (toSize (cell.1 + m.config.x.toNat))
                (toSize (cell.2 + m.config.y.toNat)) = some ch →
              ch = widen symb := by
  constructor
  · rintro ⟨b', hline, hinside⟩
    obtain ⟨hfits, _⟩ := (drawLine_eq_ok_iff hx hy hw hh).mp hline
    obtain ⟨b₁, hline₁, _, hchar⟩ :=
      charAt_drawLine symb hsized hx hy hw hh hfits
    obtain rfl : b₁ = b' := Except.ok.inj (hline₁.symm.trans hline)
    refine ⟨hfits, fun cell hcell hout ch hch => ?_⟩
    obtain ⟨hintX, hintY⟩ := hfits.isInt hx hy hw hh hcell
    have hdrawn := (hchar _ _).1 ⟨cell, hcell, rfl, rfl⟩
    rw [hinside _ _ (not_inRectangle hintX hintY hout), hch] at hdrawn
    exact Option.some.inj hdrawn
  · rintro ⟨hfits, hout⟩
    obtain ⟨b', hline, _, hchar⟩ :=
      charAt_drawLine symb hsized hx hy hw hh hfits
    refine ⟨b', hline, fun px py hrect => ?_⟩
    by_cases htarget :
        ∃ cell, m.config.OnLine x y w h cell ∧
          toSize (cell.1 + m.config.x.toNat) = px ∧
          toSize (cell.2 + m.config.y.toNat) = py
    · rw [(hchar px py).1 htarget]
      obtain ⟨cell, hcell, rfl, rfl⟩ := htarget
      have hcell' : ¬ m.config.Contains cell := by
        intro hcontains
        exact hrect (inRectangle_of_contains hcontains)
      cases hch :
          b.charAt (toSize (cell.1 + m.config.x.toNat))
            (toSize (cell.2 + m.config.y.toNat)) with
      | none => rfl
      | some ch => rw [hout cell hcell hcell' ch hch]; rfl
    · exact (hchar px py).2 fun cell hcell htarget' =>
        htarget ⟨cell, hcell, htarget'⟩

/-- Part of a row of a map in the middle of a buffer. -/
theorem drawLine_inside_iff_row :
    ∃ m b,
      Map.make ⟨{}⟩ { x := 1, width := 2, height := 2 } none = .ok m ∧
        TSConsoleBuffer.make 4 2 = .ok b ∧ m.LineStaysInside 0 0 1 0 45 b := by
  obtain ⟨m, b, hmake, hbuffer, hsized, hconfig⟩ :
      ∃ m b,
        Map.make ⟨{}⟩ { x := 1, width := 2, height := 2 } none = .ok m ∧
          TSConsoleBuffer.make 4 2 = .ok b ∧ b.Sized ∧
          m.config = { x := 1, width := 2, height := 2 } :=
    ⟨_, _, rfl, rfl, rfl, rfl⟩
  refine ⟨m, b, hmake, hbuffer, ?_⟩
  refine
    (drawLine_inside_iff hsized ⟨by decide, by decide⟩ ⟨by decide, by decide⟩
      ⟨by decide, by decide⟩ ⟨by decide, by decide⟩).mpr ?_
  rw [hconfig]
  have hinside :
      ∀ cell,
        MapConfig.OnLine { x := 1, width := 2, height := 2 } 0 0 1 0 cell →
          MapConfig.Contains { x := 1, width := 2, height := 2 } cell := by
    intro cell hcell
    rw [← MapConfig.mem_lineCells_iff] at hcell
    revert cell
    decide
  refine ⟨⟨by decide, by decide, by decide, by decide, ?_⟩, ?_⟩
  · intro cell hcell
    obtain ⟨-, hright, -, hbottom⟩ := hinside cell hcell
    simp at hright hbottom ⊢
    omega
  · exact fun cell hcell hout => absurd (hinside cell hcell) hout

/-- A line that starts to the left of the map. -/
theorem drawLine_inside_iff_fails_left :
    ∃ m b,
      Map.make ⟨{}⟩ { x := 1, width := 2, height := 2 } none = .ok m ∧
        TSConsoleBuffer.make 4 2 = .ok b ∧ Covers m.config b ∧
        ¬ m.LineStaysInside (-1) 0 0 0 45 b := by
  refine ⟨_, _, rfl, rfl, ⟨rfl, by decide, by decide⟩, ?_⟩
  rintro ⟨b', hline, hinside⟩
  cases hline
  have hleft := hinside 0 0 (by decide)
  revert hleft
  decide

end Inside

end Map

end SpeciesSimulator
