import SpeciesSimulator.EnvironmentPicture

/-!
# Painting side by side

Threads that draw maps into one buffer, one call of `write_character` at a time:
each of them first calls `start_up` and then `render` again and again.  The maps
are apart from each other, and no wall covers an entity.

Main facts:
* `Painting.write`: a call of one thread does not disturb the maps of the others;
* `Painting.startThread`, `Painting.wakeUp`: what a thread is about to draw completes
  the picture of its map;
* `Painting.shown`: so a map shows its picture whenever its thread waits.
-/

namespace SpeciesSimulator

open ListSlots

namespace Map

section Model

/-- Maps side by side with entities that no wall covers. -/
structure Board (maps : List Map) : Prop where
  placed : ∀ m ∈ maps, m.Placed
  clear : ∀ m ∈ maps, ∀ cell e, m.lookup cell = some e →
    wallAt m.config cell = none
  width : ∀ m ∈ maps, 1 ≤ m.config.width.toNat
  height : ∀ m ∈ maps, 1 ≤ m.config.height.toNat
  apart : ∀ (i j : Nat) (m m' : Map), maps[i]? = some m → maps[j]? = some m' → i ≠ j →
    MapThread.Apart m.config m'.config

/-- The entities of a map in front of its walls. -/
def front (m : Map) (cell : Int × Int) : UInt16 :=
  drawnOver m.lookup (walled m.config) cell

/-- The calls that a thread still makes draw inside of its map; where no wall is
they draw what is there already, and they complete the picture. -/
structure Drawing
    (m : Map) (ws : List TSConsoleBuffer.Write) (b : TSConsoleBuffer) :
    Prop where
  inside : ∀ w ∈ ws, InRectangle m.config w.xpos w.ypos
  symb : ∀ w ∈ ws, ∀ cell, m.config.Contains cell →
    place m.config cell = (w.xpos, w.ypos) → wallAt m.config cell = none →
      widen w.symb = m.front cell
  completes : ∀ cell, m.config.Contains cell →
    TSConsoleBuffer.charAfter ws (place m.config cell).1
        (place m.config cell).2 (shownAt m.config b cell) =
      some (m.front cell)

/-- The buffer of a board, with the calls that the threads of its first maps still
make. -/
structure Painting
    (maps : List Map) (threads : List (List TSConsoleBuffer.Write))
    (b : TSConsoleBuffer) : Prop where
  covers : ∀ m ∈ maps, Covers m.config b
  length : threads.length ≤ maps.length
  unwalled : ∀ m ∈ maps, ∀ cell, m.config.Contains cell →
    wallAt m.config cell = none →
      shownAt m.config b cell = some (m.front cell)
  waiting : ∀ (i : Nat) (m : Map), maps[i]? = some m → threads.length ≤ i →
    m.ShowsFront (fun _ => TSConsoleBuffer.blank) b
  drawing : ∀ (i : Nat) (m : Map) (ws : List TSConsoleBuffer.Write),
    maps[i]? = some m → threads[i]? = some ws → m.Drawing ws b

end Model

section Painting

variable {maps : List Map} {threads : List (List TSConsoleBuffer.Write)}
  {b : TSConsoleBuffer} {i : Nat} {m : Map} {cell : Int × Int}

theorem drawnOver_congr
    {grid : Int × Int → Option Entity} {under under' : Int × Int → UInt16}
    (h : under cell = under' cell) :
    drawnOver grid under cell = drawnOver grid under' cell := by
  simp only [drawnOver, h]

/-- Where no wall is, there is nothing behind the entities. -/
theorem front_of_open
    (hopen : wallAt m.config cell = none) :
    m.front cell =
      drawnOver m.lookup (fun _ => TSConsoleBuffer.blank) cell := by
  refine drawnOver_congr ?_
  rw [walled, hopen]
  rfl

/-- Only the first thread of all is about to be started. -/
theorem painting_of_sketched
    (h : Sketched maps b)
    (hcovers : ∀ m ∈ maps, Covers m.config b) :
    Painting maps [] b where
  covers := hcovers
  length := Nat.zero_le _
  unwalled := by
    intro m hm cell hcell hopen
    rw [front_of_open hopen]
    exact h.shown m hm cell hcell
  waiting := fun _ m hm _ => h.shown m (List.mem_of_getElem? hm)
  drawing := fun _ _ _ _ hws => by cases hws

/-- The walls do not hide an entity. -/
theorem drawing_startUp
    (hboard : Board maps)
    (hm : m ∈ maps)
    (hshown : m.ShowsFront (fun _ => TSConsoleBuffer.blank) b) :
    m.Drawing (startUpWrites m.config) b where
  inside := fun w hw =>
    inRectangle_of_mem_startUpWrites (hboard.width m hm) (hboard.height m hm) hw
  symb := by
    intro w hw cell hcell hplace hopen
    refine absurd hopen ?_
    exact
      wallAt_of_mem_startUpWrites (hboard.width m hm) (hboard.height m hm)
        hcell hw hplace
  completes := by
    intro cell hcell
    rw [hshown cell hcell,
      charAfter_startUpWrites (hboard.width m hm) (hboard.height m hm) hcell]
    unfold front drawnOver
    cases hlookup : m.lookup cell with
    | none => rfl
    | some e =>
        rw [hboard.clear m hm cell e hlookup]
        rfl

/-- Drawing the entities again changes nothing. -/
theorem drawing_render
    (hplaced : m.Placed)
    (hshown : ∀ cell, m.config.Contains cell →
      shownAt m.config b cell = some (m.front cell)) :
    m.Drawing m.renderWrites b where
  inside := fun w hw => hplaced.gridInside.inRectangle hw
  symb := by
    intro w hw cell hcell hplace _
    obtain ⟨e, hlookup, hsymb⟩ :=
      lookup_of_mem_renderWrites hplaced hcell hw hplace
    rw [hsymb, front, drawnOver, hlookup]
  completes := by
    intro cell hcell
    rw [hshown cell hcell, charAfter_renderWrites hplaced hcell]
    unfold front drawnOver
    cases m.lookup cell with
    | none => rfl
    | some e => rfl

/-- The next thread is started. -/
theorem Painting.startThread
    (h : Painting maps threads b)
    (hboard : Board maps)
    (hm : maps[threads.length]? = some m) :
    Painting maps (threads ++ [startUpWrites m.config]) b where
  covers := h.covers
  length := by
    have hlt := (List.getElem?_eq_some_iff.mp hm).1
    rw [List.length_append, List.length_singleton]
    exact hlt
  unwalled := h.unwalled
  waiting := by
    intro i m' hm' hle
    rw [List.length_append, List.length_singleton] at hle
    exact h.waiting i m' hm' (by omega)
  drawing := by
    intro i m' ws hm' hws
    rcases getElem?_concat_cases hws with hws | ⟨rfl, rfl⟩
    · exact h.drawing i m' ws hm' hws
    · obtain rfl := Option.some.inj (hm.symm.trans hm')
      exact
        drawing_startUp hboard (List.mem_of_getElem? hm)
          (h.waiting _ m hm (le_refl _))

/-- What one call does to a buffer. -/
theorem exists_write
    (hsized : b.Sized)
    (w : TSConsoleBuffer.Write) :
    ∃ b', b.write w = .ok b' ∧ TSConsoleBuffer.SameShape b b' ∧
      (∀ config cell, shownAt config b' cell =
        TSConsoleBuffer.charAfter [w] (place config cell).1
          (place config cell).2 (shownAt config b cell)) := by
  obtain ⟨b', hwrite, hshape, hchar⟩ := hsized.write w
  exact ⟨b', hwrite, hshape, fun config cell => hchar _ _⟩

/-- A call that is not for a cell does not change it. -/
theorem charAfter_of_place_ne
    {config : MapConfig} {w : TSConsoleBuffer.Write} {ch : Option UInt16}
    (hne : place config cell ≠ (w.xpos, w.ypos)) :
    TSConsoleBuffer.charAfter [w] (place config cell).1
        (place config cell).2 ch = ch := by
  refine TSConsoleBuffer.charAfter_of_forall_ne fun w' hw' hplace => hne ?_
  obtain rfl := List.mem_singleton.mp hw'
  exact Prod.ext hplace.1.symm hplace.2.symm

/-- A call inside of another map is not for a cell of this one. -/
theorem place_ne_of_apart
    {config config' : MapConfig} {w : TSConsoleBuffer.Write}
    (hapart : MapThread.Apart config config')
    (hcell : config.Contains cell)
    (hw : InRectangle config' w.xpos w.ypos) :
    place config cell ≠ (w.xpos, w.ypos) := by
  intro hplace
  have hrect := inRectangle_place hcell
  rw [hplace] at hrect
  exact hapart _ _ hrect hw

/-- A thread makes its next call. -/
theorem Painting.write
    {w : TSConsoleBuffer.Write} {ws : List TSConsoleBuffer.Write}
    (h : Painting maps threads b)
    (hboard : Board maps)
    (hws : threads[i]? = some (w :: ws)) :
    ∃ b', b.write w = .ok b' ∧ Painting maps (threads.set i ws) b' := by
  have hlt := (List.getElem?_eq_some_iff.mp hws).1
  obtain ⟨m, hm⟩ : ∃ m, maps[i]? = some m :=
    ⟨_, List.getElem?_eq_getElem (lt_of_lt_of_le hlt h.length)⟩
  have hdrawing := h.drawing i m (w :: ws) hm hws
  have hsized : b.Sized := (h.covers m (List.mem_of_getElem? hm)).sized
  obtain ⟨b', hwrite, hshape, hshown⟩ := exists_write hsized w
  have hother :
      ∀ (j : Nat) (m' : Map), maps[j]? = some m' → j ≠ i →
        ∀ cell, m'.config.Contains cell →
          shownAt m'.config b' cell = shownAt m'.config b cell := by
    intro j m' hm' hne cell hcell
    rw [hshown]
    refine charAfter_of_place_ne ?_
    exact place_ne_of_apart (hboard.apart j i m' m hm' hm hne) hcell
      (hdrawing.inside w (by simp))
  refine ⟨b', hwrite, ?_⟩
  refine
    { covers := fun m' hm' => (h.covers m' hm').of_sameShape hshape
      length := by
        rw [List.length_set]
        exact h.length
      unwalled := ?_
      waiting := ?_
      drawing := ?_ }
  · intro m' hm' cell hcell hopen
    obtain ⟨j, hj⟩ := List.mem_iff_getElem?.mp hm'
    have hbefore := h.unwalled m' hm' cell hcell hopen
    by_cases hji : j = i
    · obtain rfl := hji
      obtain rfl := Option.some.inj (hm.symm.trans hj)
      rw [hshown, hbefore]
      by_cases hplace : place m.config cell = (w.xpos, w.ypos)
      · have hsymb := hdrawing.symb w (by simp) cell hcell hplace hopen
        simp only [hplace, TSConsoleBuffer.charAfter, List.foldl_cons,
          List.foldl_nil, and_self, if_true, Option.map_some, hsymb]
      · exact charAfter_of_place_ne hplace
    · rw [hother j m' hj hji cell hcell, hbefore]
  · intro j m' hm' hle cell hcell
    rw [List.length_set] at hle
    rw [hother j m' hm' (by omega) cell hcell]
    exact h.waiting j m' hm' hle cell hcell
  · intro j m' ws' hm' hws'
    by_cases hji : j = i
    · obtain rfl := hji
      obtain rfl := Option.some.inj (hm.symm.trans hm')
      rw [List.getElem?_set_self hlt] at hws'
      obtain rfl := Option.some.inj hws'
      refine ⟨?_, ?_, fun cell hcell => ?_⟩
      · exact fun w' hw' => hdrawing.inside w' (List.mem_cons_of_mem w hw')
      · exact fun w' hw' => hdrawing.symb w' (List.mem_cons_of_mem w hw')
      · rw [hshown]
        exact hdrawing.completes cell hcell
    · rw [List.getElem?_set_ne (Ne.symm hji)] at hws'
      obtain ⟨hinside, hsymb, hcompletes⟩ := h.drawing j m' ws' hm' hws'
      refine ⟨hinside, hsymb, fun cell hcell => ?_⟩
      rw [hother j m' hm' hji cell hcell]
      exact hcompletes cell hcell

/-- A thread that waits has completed its picture. -/
theorem Painting.shown
    (h : Painting maps threads b)
    (hm : maps[i]? = some m)
    (hws : threads[i]? = some [])
    (hcell : m.config.Contains cell) :
    shownAt m.config b cell = some (m.front cell) :=
  (h.drawing i m [] hm hws).completes cell hcell

/-- A thread wakes up and finds its map as it was. -/
theorem Painting.wakeUp
    (h : Painting maps threads b)
    (hboard : Board maps)
    (hm : maps[i]? = some m)
    (hws : threads[i]? = some []) :
    Painting maps (threads.set i m.renderWrites) b where
  covers := h.covers
  length := by
    rw [List.length_set]
    exact h.length
  unwalled := h.unwalled
  waiting := by
    intro j m' hm' hle
    rw [List.length_set] at hle
    exact h.waiting j m' hm' hle
  drawing := by
    intro j m' ws' hm' hws'
    by_cases hji : j = i
    · obtain rfl := hji
      obtain rfl := Option.some.inj (hm.symm.trans hm')
      rw [List.getElem?_set_self (List.getElem?_eq_some_iff.mp hws).1] at hws'
      obtain rfl := Option.some.inj hws'
      exact
        drawing_render (hboard.placed m (List.mem_of_getElem? hm))
          fun cell hcell => h.shown hm hws hcell
    · rw [List.getElem?_set_ne (Ne.symm hji)] at hws'
      exact h.drawing j m' ws' hm' hws'

end Painting

end Map

end SpeciesSimulator
