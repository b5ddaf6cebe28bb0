import SpeciesSimulator.EnvironmentFood
import SpeciesSimulator.MapPicture

/-!
# What the environment has drawn

The thread of the environment draws the walls of the environment, throws them away
with their buffer when it makes room for the maps, and then draws the food of
each map.  The walls of the maps are left to the threads of the maps.

Main facts:
* `DrawnInv.step`: at every moment the buffer shows the food that is on the maps,
  and nothing else;
* `DrawnInv.settled`: when the thread is done, each map has been updated with its
  vector, and no food stands where a wall is.
-/

namespace SpeciesSimulator

open ListSlots PointMoves Transition

namespace Map

section Sketch

/-- Maps side by side whose entities are drawn and nothing else. -/
structure Sketched (maps : List Map) (b : TSConsoleBuffer) : Prop where
  shown : ∀ m ∈ maps, m.ShowsFront (fun _ => TSConsoleBuffer.blank) b
  blank : ∀ px py, px < b.width → py < b.height →
    (∀ m ∈ maps, ¬ InRectangle m.config px py) →
      b.charAt px py = some TSConsoleBuffer.blank

variable {m m' : Map} {b b' : TSConsoleBuffer}

/-- A buffer without anything on it. -/
theorem sketched_nil
    {width height : Nat}
    (hmake : TSConsoleBuffer.make width height = .ok b) :
    Sketched [] b where
  shown := fun _ hm => by cases hm
  blank := fun _ _ hx hy _ => TSConsoleBuffer.charAt_of_make hmake hx hy

/-- A new map is blank where no other map is. -/
theorem Sketched.concat
    {maps : List Map}
    (h : Sketched maps b)
    (hcovers : Covers m.config b)
    (hempty : ∀ cell, m.lookup cell = none)
    (hapart : ∀ m' ∈ maps, MapThread.Apart m.config m'.config) :
    Sketched (maps ++ [m]) b := by
  refine ⟨fun m' hm' => ?_, fun px py hx hy hfree => ?_⟩
  · rcases List.mem_append.mp hm' with hm' | hm'
    · exact h.shown m' hm'
    · obtain rfl := List.mem_singleton.mp hm'
      intro cell hcell
      have hrect := inRectangle_place hcell
      have hcr := hcovers.right
      have hcb := hcovers.bottom
      have hblank :
          b.charAt (place m'.config cell).1 (place m'.config cell).2 =
            some TSConsoleBuffer.blank := by
        obtain ⟨hleft, hright, htop, hbottom⟩ := hcell
        refine h.blank _ _ ?_ ?_ fun m'' hm'' => hapart m'' hm'' _ _ hrect
        · simp only [place]
          omega
        · simp only [place]
          omega
      rw [shownAt_eq_charAt, hblank, drawnOver, hempty]
  · refine h.blank px py hx hy fun m' hm' => ?_
    exact hfree m' (List.mem_append_left _ hm')

/-- The first update of a map draws its entities. -/
theorem Sketched.set
    {maps : List Map} {i : Nat} {vecptr : VecPtr} {es : List Entity}
    (h : Sketched maps b)
    (hm : maps[i]? = some m)
    (hcovers : Covers m.config b)
    (hempty : ∀ cell, m.lookup cell = none)
    (hinside : ∀ e ∈ es, e.Inside m.config)
    (hapart : ∀ j m', maps[j]? = some m' → j ≠ i →
      MapThread.Apart m'.config m.config)
    (hupdate : m.updateEntities vecptr es b = .ok (m', b')) :
    Sketched (maps.set i m') b' := by
  obtain ⟨hconfig, _⟩ := lookup_of_updateEntities hinside hupdate
  have hsettled := settled_of_updateEntities hempty hinside hupdate
  have hbehind :
      m.ShowsBehind (fun _ => TSConsoleBuffer.blank) b := by
    refine ⟨placed_of_empty hempty, hcovers, fun cell hcell _ => ?_⟩
    have hshown := h.shown m (List.mem_of_getElem? hm) cell hcell
    rw [hshown, drawnOver, hempty]
  obtain ⟨_, hfront⟩ :=
    hbehind.updateEntities hinside (fun cell _ => hempty cell) hupdate
  obtain ⟨b'', hrender, hshape, houtside⟩ :=
    hsettled.placed.gridInside.render_inside hcovers.sized
  obtain rfl : b' = b'' :=
    Except.ok.inj
      ((Screen.render_of_updateEntities hupdate).symm.trans hrender)
  rw [hconfig] at houtside
  refine ⟨fun m₁ hm₁ => ?_, fun px py hx hy hfree => ?_⟩
  · obtain ⟨j, hj⟩ := List.mem_iff_getElem?.mp hm₁
    by_cases hji : j = i
    · obtain rfl := hji
      have hlt := (List.getElem?_eq_some_iff.mp hm).1
      rw [List.getElem?_set_self hlt] at hj
      obtain rfl := Option.some.inj hj
      exact hfront
    · rw [List.getElem?_set_ne (Ne.symm hji)] at hj
      intro cell hcell
      rw [← h.shown m₁ (List.mem_of_getElem? hj) cell hcell]
      exact houtside _ _ (hapart j m₁ hj hji _ _ (inRectangle_place hcell))
  · have hout : ∀ m₁ ∈ maps, ¬ InRectangle m₁.config px py := by
      intro m₁ hm₁
      obtain ⟨j, hj⟩ := List.mem_iff_getElem?.mp hm₁
      by_cases hji : j = i
      · obtain rfl := hji
        obtain rfl := Option.some.inj (hm.symm.trans hj)
        rw [← hconfig]
        have hlt := (List.getElem?_eq_some_iff.mp hm).1
        exact hfree m' (List.mem_of_getElem? (List.getElem?_set_self hlt))
      · have hj' : (maps.set i m')[j]? = some m₁ := by
          rw [List.getElem?_set_ne (Ne.symm hji), hj]
        exact hfree m₁ (List.mem_of_getElem? hj')
    rw [houtside px py (hout m (List.mem_of_getElem? hm))]
    rw [hshape.width] at hx
    rw [hshape.height] at hy
    exact h.blank px py hx hy hout

end Sketch

section Borders

variable {config : MapConfig} {cell : Int × Int}

/-- A wall covers cells at a border only. -/
theorem atBorder_of_wallChar
    {wall : UInt16} {ch : UInt16}
    (hcell : config.Contains cell)
    (h : wallChar config wall cell = some ch) :
    Environment.AtBorder config cell := by
  refine ⟨hcell, ?_⟩
  unfold wallChar at h
  split at h
  · split at h
    · next heq => exact Or.inr (Or.inl heq)
    · cases h
  · split at h
    · next heq => exact Or.inl heq
    · cases h
  · split at h
    · next heq => exact Or.inr (Or.inr (Or.inl heq))
    · cases h
  · split at h
    · next heq => exact Or.inr (Or.inr (Or.inr heq))
    · cases h
  · cases h
  · cases h
  · cases h

/-- Inside the walls there is no wall. -/
theorem wallAt_eq_none
    (hcell : config.Contains cell)
    (h : ¬ Environment.AtBorder config cell) :
    wallAt config cell = none := by
  rw [wallAt, List.findSome?_eq_none_iff]
  intro wall _
  by_contra hsome
  obtain ⟨ch, hch⟩ := Option.ne_none_iff_exists'.mp hsome
  exact h (atBorder_of_wallChar hcell hch)

end Borders

end Map

namespace Environment

section Model

/-- What the thread of the environment has drawn, and the maps that it is done
with. -/
structure DrawnInv
    (config : MapConfig) (nmaps : Nat)
    (p : Environment × List (List Entity)) : Prop where
  food : FoodInv config nmaps p
  sketched : p.1.pc ≠ .startUp → Map.Sketched p.1.maps p.1.buffer
  settled : Every
    (fun j m => p.1.pc.Updated j → ∀ vector, p.2[j]? = some vector →
      m.Settled j vector)
    p.1.maps

end Model

section Steps

variable {console : WinConsole} {config : MapConfig} {nmaps : Nat}
  {env env' : Environment} {vectors vectors' : List (List Entity)}
  {randx randy : Int}

theorem FoodInv.index_lt
    {p : Environment × List (List Entity)} {j : Nat} {m : Map}
    (h : FoodInv config nmaps p)
    (hj : p.1.maps[j]? = some m) :
    j < nmaps := by
  have hlt := (List.getElem?_eq_some_iff.mp hj).1
  have hlen := h.startup.maps_length
  have hle := h.startup.rounds_le
  have hcount := h.tiled.mapCount
  omega

/-- Two maps have nothing in common. -/
theorem FoodInv.apart
    {p : Environment × List (List Entity)} {i j : Nat} {m m' : Map}
    (h : FoodInv config nmaps p)
    (hfits : Tileable console config nmaps)
    (hi : p.1.maps[i]? = some m)
    (hj : p.1.maps[j]? = some m')
    (hne : i ≠ j) :
    MapThread.Apart m.config m'.config := by
  rw [h.tiled.tiles i m hi, h.tiled.tiles j m' hj]
  exact hfits.apart (h.index_lt hi) (h.index_lt hj) hne

theorem FoodInv.covers
    {p : Environment × List (List Entity)} {i : Nat} {m : Map}
    (h : FoodInv config nmaps p)
    (hi : p.1.maps[i]? = some m) :
    Map.Covers m.config p.1.buffer := by
  rw [h.tiled.tiles i m hi]
  exact h.tiled.covers (h.index_lt hi)

/-- The food of a vector is at cells of the map, inside its walls. -/
theorem FoodInv.inside
    {p : Environment × List (List Entity)} {i : Nat} {m : Map}
    {vector : List Entity}
    (h : FoodInv config nmaps p)
    (hi : p.1.maps[i]? = some m)
    (hv : p.2[i]? = some vector) :
    ∀ e ∈ vector, e.Inside m.config ∧ ¬ AtBorder m.config e.cell := by
  intro e he
  obtain ⟨k, hk⟩ := List.mem_iff_getElem?.mp he
  have hfood := h.food i vector hv k e hk
  rw [h.tiled.tiles i m hi]
  refine ⟨⟨hfood.contains, ?_⟩, hfood.not_atBorder⟩
  rw [hfood.still]
  exact hfood.contains

/-- Every step draws what it puts on the maps, and nothing else. -/
theorem DrawnInv.step
    (h : DrawnInv config nmaps (env, vectors))
    (hfits : Tileable console config nmaps)
    (hwide : 3 ≤ config.width.toNat / nmaps)
    (hhigh : 3 ≤ config.height.toNat)
    (hstep :
      env.step console vectors randx randy = some (.ok (env', vectors'))) :
    DrawnInv config nmaps (env', vectors') := by
  have hfood : FoodInv config nmaps (env', vectors') := by
    refine h.food.advance (r := (randx, randy)) hfits hwide hhigh ?_
    simp only [advance, hstep]
  have hsettled := h.settled
  have hsketched := h.sketched
  dsimp only at hsettled hsketched
  cases hpc : env.pc with
  | created => simp [Environment.step, hpc] at hstep
  | running => simp [Environment.step, hpc] at hstep
  | startUp =>
      have hlen := h.food.startup.maps_length
      simp only [rounds, hpc, EnvPc.rounds] at hlen
      have hnil := List.eq_nil_of_length_eq_zero hlen
      simp only [Environment.step, hpc, Option.some.injEq] at hstep
      obtain ⟨_, _, hrest⟩ := exists_of_bind_ok hstep
      obtain ⟨buffer, hbuffer, hrest⟩ := exists_of_bind_ok hrest
      cases hrest
      refine ⟨hfood, fun _ => ?_, ?_⟩
      · dsimp only
        rw [hnil]
        exact Map.sketched_nil hbuffer
      · dsimp only
        rw [hnil]
        exact every_nil
  | instanciateMaps i =>
      have hdrawn := hsketched (by simp [hpc])
      simp only [Environment.step, hpc] at hstep
      split at hstep
      · split at hstep
        · obtain ⟨env₁, hmap, hrest⟩ :=
            exists_of_bind_ok (Option.some.inj hstep)
          obtain ⟨config', _, hmap⟩ := exists_of_bind_ok hmap
          obtain ⟨map, hmake, hmap⟩ := exists_of_bind_ok hmap
          cases hmap
          cases hrest
          have hempty := Map.lookup_of_make hmake
          have hnew : (env.maps ++ [map])[env.maps.length]? = some map :=
            List.getElem?_concat_length
          refine ⟨hfood, fun _ => ?_, fun j m _ hupdated => hupdated.elim⟩
          refine hdrawn.concat (hfood.covers hnew) hempty fun m' hm' => ?_
          obtain ⟨j, hj⟩ := List.mem_iff_getElem?.mp hm'
          have hlt := (List.getElem?_eq_some_iff.mp hj).1
          have hj' : (env.maps ++ [map])[j]? = some m' := by
            rw [List.getElem?_append_left hlt, hj]
          exact hfood.apart hfits hnew hj' (Nat.ne_of_gt hlt)
        · cases hstep
      · cases hstep
        refine ⟨hfood, fun _ => hdrawn, hsettled.mono fun j m _ _ hupdated => ?_⟩
        exact absurd hupdated (Nat.not_lt_zero j)
  | createEntities mapCounter i =>
      have hdrawn := hsketched (by simp [hpc])
      rw [hpc] at hsettled
      simp only [Environment.step, hpc] at hstep
      split at hstep
      · split at hstep
        · split at hstep
          · cases hstep
            refine ⟨hfood, fun _ => hdrawn, ?_⟩
            refine hsettled.mono fun j m _ hm hupdated vector hvector => ?_
            refine hm hupdated vector ?_
            have hlt : j < mapCounter := hupdated
            rw [List.getElem?_modify] at hvector
            simpa [Nat.ne_of_gt hlt] using hvector
          · cases hstep
        · cases hstep
          exact ⟨hfood, fun _ => hdrawn, hsettled⟩
      · next hdone =>
        cases hstep
        have hlen := h.food.startup.vectors_length
        refine ⟨hfood, fun _ => hdrawn, ?_⟩
        refine hsettled.mono fun j m hj hm _ vector hvector => ?_
        refine hm ?_ vector hvector
        show j < mapCounter
        have hlt : j < vectors.length := by
          rw [hlen]
          exact h.food.index_lt hj
        omega
  | updateEntities mapCounter =>
      have hdrawn := hsketched (by simp [hpc])
      rw [hpc] at hsettled
      simp only [Environment.step, hpc] at hstep
      split at hstep
      · next m vector hm hvector =>
        obtain ⟨⟨m', buffer⟩, hupdate, hrest⟩ :=
          exists_of_bind_ok (Option.some.inj hstep)
        cases hrest
        have hempty := (h.food.grids mapCounter m hm).2 (by
          rw [hpc]
          exact Nat.lt_irrefl mapCounter)
        have hinside : ∀ e ∈ vector, e.Inside m.config :=
          fun e he => (h.food.inside hm hvector e he).1
        refine ⟨hfood, fun _ => ?_, ?_⟩
        · refine hdrawn.set hm (h.food.covers hm) hempty hinside ?_ hupdate
          exact fun j m₁ hj hne => h.food.apart hfits hj hm hne
        · refine hsettled.set_mono ?_ fun _ _ vector' hvector' => ?_
          · intro j m₁ hne hm₁ hupdated
            have hlt : j < mapCounter + 1 := hupdated
            exact hm₁ (show j < mapCounter by omega)
          · obtain rfl := Option.some.inj (hvector.symm.trans hvector')
            exact Map.settled_of_updateEntities hempty hinside hupdate
      · cases hstep

/-- Before the first step nothing is drawn that stays. -/
theorem drawnInv_start
    (hfood : FoodInv config nmaps (env, vectors))
    (hpc : env.pc = .startUp) :
    DrawnInv config nmaps (env, vectors) := by
  refine ⟨hfood, fun hne => absurd hpc hne, fun j m _ hupdated => ?_⟩
  rw [hpc] at hupdated
  exact hupdated.elim

end Steps

end Environment

end SpeciesSimulator
