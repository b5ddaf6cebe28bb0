import SpeciesSimulator.EnvironmentStartup
import SpeciesSimulator.MapAliases
import SpeciesSimulator.MapThreads
import SpeciesSimulator.MapWalls

/-!
# Updating a map again

The thread of a map is woken up by every change of its entity vector, and
possibly without one, and then updates the map with the whole vector.  So a map
is updated with the same entities more than once.

Main facts:
* `updateEntities_again`: a map that is updated with the entities that it was
  just updated with is left as it is, and so is the buffer it is drawn into;
* `exists_updateEntities_again`: and the map also when something else has been
  drawn into the buffer.
-/

namespace SpeciesSimulator

open PointMoves

namespace TSConsoleBuffer

section Again

variable {b b' : TSConsoleBuffer} {ws : List Write} {px py : Nat}

/-- The character that writes leave at a position that one of them writes. -/
theorem charAfter_of_mem
    {ch ch' : Option UInt16}
    (hsome : ch.isSome = ch'.isSome)
    (h : ∃ w ∈ ws, w.xpos = px ∧ w.ypos = py) :
    charAfter ws px py ch = charAfter ws px py ch' := by
  induction ws generalizing ch ch' with
  | nil =>
      obtain ⟨w, hw, _⟩ := h
      cases hw
  | cons w ws ih =>
      have hcons (ch : Option UInt16) :
          charAfter (w :: ws) px py ch =
            charAfter ws px py
              (if w.xpos = px ∧ w.ypos = py then ch.map (fun _ => widen w.symb)
              else ch) := by
        rfl
      rw [hcons, hcons]
      by_cases hw : w.xpos = px ∧ w.ypos = py
      · have hsame :
            (ch.map fun _ => widen w.symb) = ch'.map fun _ => widen w.symb := by
          cases ch with
          | none =>
              cases ch' with
              | none => rfl
              | some _ => cases hsome
          | some _ =>
              cases ch' with
              | none => cases hsome
              | some _ => rfl
        rw [if_pos hw, if_pos hw, hsame]
      · rw [if_neg hw, if_neg hw]
        refine ih hsome ?_
        obtain ⟨w', hw', hp⟩ := h
        rcases List.mem_cons.mp hw' with rfl | hw'
        · exact absurd hp hw
        · exact ⟨w', hw', hp⟩

/-- Writes do not make or unmake positions. -/
theorem isSome_charAfter (ws : List Write) (px py : Nat) (ch : Option UInt16) :
    (charAfter ws px py ch).isSome = ch.isSome := by
  induction ws generalizing ch with
  | nil => rfl
  | cons w ws ih =>
      have hcons :
          charAfter (w :: ws) px py ch =
            charAfter ws px py
              (if w.xpos = px ∧ w.ypos = py then ch.map (fun _ => widen w.symb)
              else ch) := by
        rfl
      rw [hcons, ih]
      split
      · rw [Option.isSome_map]
      · rfl

/-- The same writes once more leave the same character. -/
theorem charAfter_charAfter (ws : List Write) (px py : Nat) (ch : Option UInt16) :
    charAfter ws px py (charAfter ws px py ch) = charAfter ws px py ch := by
  by_cases h : ∃ w ∈ ws, w.xpos = px ∧ w.ypos = py
  · exact charAfter_of_mem (isSome_charAfter ws px py ch) h
  · exact charAfter_of_forall_ne fun w hw hp => h ⟨w, hw, hp⟩

/-- The same calls of `write_character` once more change nothing. -/
theorem writeAll_again
    (hsized : b.Sized)
    (h : b.writeAll ws = .ok b') :
    b'.writeAll ws = .ok b' := by
  obtain ⟨b₁, hwrite, hshape, hchar⟩ := hsized.writeAll ws
  obtain rfl := Except.ok.inj (hwrite.symm.trans h)
  obtain ⟨b₂, hwrite', hshape', hchar'⟩ := hshape.sized.writeAll ws
  have hsame : b₂ = b₁ := by
    refine Map.eq_of_charAt hshape' hshape.sized fun px py => ?_
    rw [hchar', hchar, charAfter_charAfter]
  rw [hwrite', hsame]

end Again

end TSConsoleBuffer

namespace Map

section Again

variable {m m' m₁ : Map} {es : List Entity}

/-- Maps with the same frame that hold the same are the same. -/
theorem SameFrame.eq_of_slot
    (h : SameFrame m m')
    (hslot : m'.slot = m.slot) :
    m' = m := by
  have hlen :
      m'.entitiesInternalMap.length = m.entitiesInternalMap.length := by
    rw [m'.length_eq, m.length_eq, h.config]
  have hcells : m'.entitiesInternalMap = m.entitiesInternalMap := by
    refine List.ext_getElem hlen fun i hi' hi => ?_
    have hi₀ := congrFun hslot i
    simpa [slot, List.getElem?_eq_getElem hi, List.getElem?_eq_getElem hi']
      using hi₀
  obtain ⟨config, conLay, vecptr, cells, _, _⟩ := m
  obtain ⟨config', conLay', vecptr', cells', _, _⟩ := m'
  obtain rfl : config' = config := h.config
  obtain rfl : conLay' = conLay := h.conLay
  obtain rfl : vecptr' = vecptr := h.entitiesExternal
  obtain rfl : cells' = cells := hcells
  rfl

/-- Which entities are accepted depends on the size of the map alone. -/
theorem exists_placeEntity
    {e : Entity}
    (hconfig : m₁.config = m.config)
    (h : m.placeEntity e = .ok m') :
    ∃ m₂, m₁.placeEntity e = .ok m₂ ∧ SameFrame m₁ m₂ := by
  have hgrid (i : Int) : m₁.gridAt i = m.gridAt i := by
    have hlen :
        m₁.entitiesInternalMap.length = m.entitiesInternalMap.length := by
      rw [m₁.length_eq, m.length_eq, hconfig]
    simp only [gridAt, hlen]
  obtain ⟨prev, hprev, h⟩ := exists_of_bind_ok h
  obtain ⟨prevPos, hprevPos, h⟩ := exists_of_bind_ok h
  obtain ⟨pos, hpos, h⟩ := exists_of_bind_ok h
  obtain ⟨newPos, hnewPos, _⟩ := exists_of_bind_ok h
  refine ⟨(m₁.setCell prevPos none).setCell newPos (some e), ?_, ⟨rfl, rfl, rfl⟩⟩
  simp only [placeEntity, hconfig, hgrid, hprev, hprevPos, hpos, hnewPos,
    bind_ok, pure_eq_ok]

theorem exists_placeEntities
    (hconfig : m₁.config = m.config)
    (h : es.foldlM placeEntity m = .ok m') :
    ∃ m₂, es.foldlM placeEntity m₁ = .ok m₂ ∧ SameFrame m₁ m₂ := by
  induction es generalizing m m₁ with
  | nil => exact ⟨m₁, rfl, ⟨rfl, rfl, rfl⟩⟩
  | cons e es ih =>
      rw [List.foldlM_cons] at h
      obtain ⟨m₃, hplace, hrest⟩ := exists_of_bind_ok h
      obtain ⟨m₄, hplace', hframe⟩ := exists_placeEntity hconfig hplace
      obtain ⟨hconfig', _⟩ := placeEntity_slots hplace
      have hsame : m₄.config = m₃.config := by
        rw [hframe.config, hconfig', hconfig]
      obtain ⟨m₅, hrest', hframe'⟩ := ih hsame hrest
      refine ⟨m₅, ?_, hframe.trans hframe'⟩
      rw [List.foldlM_cons, hplace', bind_ok, hrest']

/-- Placing the same entities once more changes nothing. -/
theorem placeEntities_again
    {vecptr : VecPtr}
    (h : placeEntities { m with entitiesExternal := some vecptr } es = .ok m') :
    placeEntities { m' with entitiesExternal := some vecptr } es = .ok m' := by
  obtain ⟨m₁, hfold, hshort⟩ := exists_of_bind_ok h
  split at hshort
  · next hlen =>
    cases hshort
    obtain ⟨hconfig, hslot⟩ := foldlM_placeEntity_slots hfold
    have hptr : m'.entitiesExternal = some vecptr :=
      foldlM_placeEntity_entitiesExternal hfold
    have hsame : ({ m' with entitiesExternal := some vecptr } : Map).config =
        ({ m with entitiesExternal := some vecptr } : Map).config := hconfig
    obtain ⟨m₂, hfold', hframe⟩ := exists_placeEntities hsame hfold
    have hback : m₂ = m' := by
      refine SameFrame.eq_of_slot ⟨hframe.config, hframe.conLay, ?_⟩ ?_
      · rw [hframe.entitiesExternal, hptr]
      · obtain ⟨_, hslot'⟩ := foldlM_placeEntity_slots hfold'
        rw [hslot']
        show applyAll m'.slot (es.map (Entity.flatMove m'.config)) = _
        rw [hconfig, hslot, applyAll_applyAll]
    rw [hback] at hfold'
    simp only [placeEntities, hfold', hlen, if_true, bind_ok, pure_eq_ok]
  · cases hshort

variable {vecptr : VecPtr} {b b' : TSConsoleBuffer}

/-- A map that is updated with the entities that it was just updated with stays
as it is, and so does the buffer. -/
theorem updateEntities_again
    (hsized : b.Sized)
    (h : m.updateEntities vecptr es b = .ok (m', b')) :
    m'.updateEntities vecptr es b' = .ok (m', b') := by
  obtain ⟨hplace, hwrites⟩ := updateEntities_eq_ok_iff.mp h
  refine updateEntities_eq_ok_iff.mpr ⟨placeEntities_again hplace, ?_⟩
  exact TSConsoleBuffer.writeAll_again hsized hwrites

/-- The map stays as it is whatever else is drawn into its buffer. -/
theorem exists_updateEntities_again
    {b₁ : TSConsoleBuffer}
    (hsized : b₁.Sized)
    (h : m.updateEntities vecptr es b = .ok (m', b')) :
    ∃ b₂, m'.updateEntities vecptr es b₁ = .ok (m', b₂) := by
  obtain ⟨hplace, _⟩ := updateEntities_eq_ok_iff.mp h
  obtain ⟨b₂, hwrites, _⟩ := hsized.writeAll m'.renderWrites
  exact ⟨b₂, updateEntities_eq_ok_iff.mpr ⟨placeEntities_again hplace, hwrites⟩⟩

/-- Two entities on a row of three cells, the second one leaves the first. -/
theorem updateEntities_again_row :
    ∃ m b m' b',
      makeWithBuffer ⟨{}⟩ { width := 3, height := 1 } none = .ok (m, b) ∧
        m.updateEntities 0 [firstStep, secondStep] b = .ok (m', b') ∧
        m'.updateEntities 0 [firstStep, secondStep] b' = .ok (m', b') := by
  obtain ⟨m, b, m', b', hmake, hupdate, hsized⟩ :
      ∃ m b m' b',
        makeWithBuffer ⟨{}⟩ { width := 3, height := 1 } none = .ok (m, b) ∧
          m.updateEntities 0 [firstStep, secondStep] b = .ok (m', b') ∧
          b.Sized :=
    ⟨_, _, _, _, rfl, rfl, rfl⟩
  exact ⟨m, b, m', b', hmake, hupdate, updateEntities_again hsized hupdate⟩

end Again

end Map

end SpeciesSimulator
