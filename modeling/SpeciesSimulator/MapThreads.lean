import SpeciesSimulator.Lib.Interleaving
import SpeciesSimulator.MapLines

/-!
# Threads that draw into one buffer

The thread of a map calls `start_up` and then `update_entities` again and again.
All that these calls do to the buffer are calls of `write_character`, each of
which is atomic; which ones depends on the map and on the entities, not on what
the buffer shows.

Main facts:
* `MapThread.run_eq_ok_iff`: a thread on its own does its writes;
* `MapThread.inRectangle_of_mem_writes`: they stay in the rectangle of its map;
* `runInTurn_eq_of_interleaving`: threads of maps with disjoint rectangles leave
  the buffer that they leave one after the other, however they interleave.
-/

namespace SpeciesSimulator

open Interleaving Transition

namespace TSConsoleBuffer

section Atomic

/-- One call of `write_character` as a step. -/
def writeOp (b : TSConsoleBuffer) (w : Write) : Option TSConsoleBuffer :=
  (b.write w).toOption

theorem toOption_eq_some_iff
    {α : Type} {x : Except Fault α} {a : α} :
    x.toOption = some a ↔ x = .ok a := by
  cases x with
  | error e => simp [Except.toOption]
  | ok a' => simp [Except.toOption]

theorem run_writeOp_eq_some_iff
    {b b' : TSConsoleBuffer} {ws : List Write} :
    run writeOp b ws = some b' ↔ b.writeAll ws = .ok b' := by
  induction ws generalizing b with
  | nil =>
      simp [writeAll]
  | cons w ws ih =>
      simp only [writeAll, List.foldlM_cons, bind_eq_ok_iff]
      constructor
      · intro hrun
        obtain ⟨b₁, hwrite, hrest⟩ := run_cons_some hrun
        exact ⟨b₁, toOption_eq_some_iff.mp hwrite, ih.mp hrest⟩
      · rintro ⟨b₁, hwrite, hrest⟩
        rw [run_cons_of_step (toOption_eq_some_iff.mpr hwrite)]
        exact ih.mpr hrest

/-- What a write does to the memory. -/
theorem write_eq (b : TSConsoleBuffer) (w : Write) :
    b.write w =
      if w.xpos < b.width ∧ w.ypos < b.height then
        b.store (w.ypos * b.width + w.xpos) w.symb
      else .ok b := by
  rfl

/-- Stores to different places can be exchanged. -/
theorem store_comm
    {pos pos' : Nat}
    (hne : pos ≠ pos')
    (b : TSConsoleBuffer) (ch ch' : UInt8) :
    (do let b ← b.store pos ch; b.store pos' ch') =
      (do let b ← b.store pos' ch'; b.store pos ch) := by
  unfold store
  by_cases hlt : pos < b.charBuffer.length
  · by_cases hlt' : pos' < b.charBuffer.length
    · simp [hlt, hlt', List.set_comm _ _ hne]
    · simp [hlt, hlt']
  · by_cases hlt' : pos' < b.charBuffer.length
    · simp [hlt, hlt']
    · simp [hlt, hlt']

/-- A store does not change where a write goes. -/
theorem store_write (b : TSConsoleBuffer) (pos : Nat) (ch : UInt8) (w : Write) :
    (do let b ← b.store pos ch; b.write w) =
      if w.xpos < b.width ∧ w.ypos < b.height then do
        let b' ← b.store pos ch
        b'.store (w.ypos * b.width + w.xpos) w.symb
      else b.store pos ch := by
  by_cases hlt : pos < b.charBuffer.length
  · simp only [store, hlt, if_true, bind_ok, write_eq]
  · simp only [store, hlt, if_false, bind_error, ite_self]

/-- Writes to different positions can be exchanged. -/
theorem write_comm
    {w w' : Write}
    (hne : ¬ (w.xpos = w'.xpos ∧ w.ypos = w'.ypos))
    (b : TSConsoleBuffer) :
    (do let b ← b.write w; b.write w') =
      (do let b ← b.write w'; b.write w) := by
  by_cases hw : w.xpos < b.width ∧ w.ypos < b.height
  · by_cases hw' : w'.xpos < b.width ∧ w'.ypos < b.height
    · have hplaces :
          w.ypos * b.width + w.xpos ≠ w'.ypos * b.width + w'.xpos := by
        intro heq
        exact hne (index_inj hw.1 hw'.1 heq)
      rw [write_eq b w, write_eq b w', if_pos hw, if_pos hw', store_write,
        store_write, if_pos hw, if_pos hw']
      exact store_comm hplaces b w.symb w'.symb
    · rw [write_eq b w, write_eq b w', if_pos hw, if_neg hw', store_write,
        if_neg hw', bind_ok, write_eq b w, if_pos hw]
  · by_cases hw' : w'.xpos < b.width ∧ w'.ypos < b.height
    · rw [write_eq b w, write_eq b w', if_neg hw, if_pos hw', store_write,
        if_neg hw, bind_ok, write_eq b w', if_pos hw']
    · rw [write_eq b w, write_eq b w', if_neg hw, if_neg hw', bind_ok, bind_ok,
        write_eq b w, write_eq b w', if_neg hw, if_neg hw']

theorem commute_of_ne
    {w w' : Write}
    (hne : ¬ (w.xpos = w'.xpos ∧ w.ypos = w'.ypos)) :
    Interleaving.Commute writeOp w w' := by
  intro b
  have hpair (w w' : Write) :
      b.writeAll [w, w'] = (do let b ← b.write w; b.write w') := by
    simp only [writeAll, List.foldlM_cons, List.foldlM_nil, bind_pure]
  refine Option.ext fun b' => ?_
  rw [run_writeOp_eq_some_iff, run_writeOp_eq_some_iff, hpair, hpair,
    write_comm hne b]

end Atomic

end TSConsoleBuffer

namespace Map

section Writes

variable {m m' : Map} {b b' : TSConsoleBuffer}

/-- The call that draws an entity. -/
def entityWrite (config : MapConfig) (e : Entity) : TSConsoleBuffer.Write where
  xpos := e.x.toNat + config.x.toNat
  ypos := e.y.toNat + config.y.toNat
  symb := e.char.toByte

/-- The calls that `render` makes. -/
def renderWrites (m : Map) : List TSConsoleBuffer.Write :=
  m.entitiesInternalMap.flatMap fun cell =>
    (cell.map (entityWrite m.config)).toList

theorem render_eq_ok_iff :
    m.render b = .ok b' ↔ b.writeAll m.renderWrites = .ok b' := by
  refine foldlM_eq_ok_iff_writeAll fun cell b b' => ?_
  cases cell with
  | none => rfl
  | some e =>
      simp only [renderCell, Option.map_some, Option.toList_some,
        TSConsoleBuffer.writeAll, List.foldlM_cons, List.foldlM_nil,
        TSConsoleBuffer.write, entityWrite, bind_pure]

/-- `update_entities` changes the grid, and then makes the calls of `render`. -/
theorem updateEntities_eq_ok_iff
    {vecptr : VecPtr} {es : List Entity} :
    m.updateEntities vecptr es b = .ok (m', b') ↔
      placeEntities { m with entitiesExternal := some vecptr } es = .ok m' ∧
        b.writeAll m'.renderWrites = .ok b' := by
  simp only [updateEntities, bind_eq_ok_iff, render_eq_ok_iff, pure_eq_ok,
    Except.ok.injEq, Prod.mk.injEq]
  constructor
  · rintro ⟨m₁, hplace, b₁, hwrites, rfl, rfl⟩
    exact ⟨hplace, hwrites⟩
  · rintro ⟨hplace, hwrites⟩
    exact ⟨m', hplace, b', hwrites, rfl, rfl⟩

/-- The entities of the grid are at cells of the map. -/
def GridInside (m : Map) : Prop :=
  ∀ e, some e ∈ m.entitiesInternalMap → m.config.Contains e.cell

/-- The calls of `render` write places of the map. -/
theorem GridInside.inRectangle
    {w : TSConsoleBuffer.Write}
    (h : m.GridInside)
    (hw : w ∈ m.renderWrites) :
    InRectangle m.config w.xpos w.ypos := by
  obtain ⟨cell, hcell, hw⟩ := List.mem_flatMap.mp hw
  obtain ⟨e, rfl, rfl⟩ := by
    simpa only [Option.mem_toList, Option.map_eq_some_iff] using hw
  obtain ⟨_, hright, _, hbottom⟩ := h e hcell
  simp only [Entity.cell] at hright hbottom
  simp only [InRectangle, entityWrite]
  omega

/-- `render` has a result, in which nothing outside the map is changed. -/
theorem GridInside.render_inside
    (h : m.GridInside)
    (hsized : b.Sized) :
    ∃ b', m.render b = .ok b' ∧ TSConsoleBuffer.SameShape b b' ∧
      ∀ px py, ¬ InRectangle m.config px py →
        b'.charAt px py = b.charAt px py := by
  simp only [render_eq_ok_iff]
  exact writeAll_inside hsized fun w hw => h.inRectangle hw

theorem placeEntity_gridInside
    {e : Entity}
    (h : m.GridInside)
    (he : m.config.Contains e.cell)
    (hplace : m.placeEntity e = .ok m') :
    m'.config = m.config ∧ m'.GridInside := by
  obtain ⟨_, _, hplace⟩ := exists_of_bind_ok hplace
  obtain ⟨_, _, hplace⟩ := exists_of_bind_ok hplace
  obtain ⟨_, _, hplace⟩ := exists_of_bind_ok hplace
  obtain ⟨_, _, hplace⟩ := exists_of_bind_ok hplace
  cases hplace
  refine ⟨rfl, fun e' he' => ?_⟩
  rcases List.mem_or_eq_of_mem_set he' with hold | hnew
  · rcases List.mem_or_eq_of_mem_set hold with hold | hnone
    · exact h e' hold
    · cases hnone
  · cases hnew
    exact he

/-- Entities at cells of the map are put to cells of the map. -/
theorem foldlM_placeEntity_gridInside
    {es : List Entity}
    (h : m.GridInside)
    (hes : ∀ e ∈ es, m.config.Contains e.cell)
    (hfold : es.foldlM placeEntity m = .ok m') :
    m'.config = m.config ∧ m'.GridInside := by
  induction es generalizing m with
  | nil =>
      cases hfold
      exact ⟨rfl, h⟩
  | cons e es ih =>
      rw [List.foldlM_cons] at hfold
      obtain ⟨m₁, hplace, hrest⟩ := exists_of_bind_ok hfold
      obtain ⟨hconfig, h₁⟩ := placeEntity_gridInside h (hes e (by simp)) hplace
      have htail : ∀ e' ∈ es, m₁.config.Contains e'.cell := by
        rw [hconfig]
        exact fun e' he' => hes e' (List.mem_cons_of_mem e he')
      obtain ⟨hconfig', h'⟩ := ih h₁ htail hrest
      exact ⟨hconfig'.trans hconfig, h'⟩

theorem placeEntities_gridInside
    {es : List Entity} {vecptr : Option VecPtr}
    (h : m.GridInside)
    (hes : ∀ e ∈ es, m.config.Contains e.cell)
    (hplace :
      placeEntities { m with entitiesExternal := vecptr } es = .ok m') :
    m'.config = m.config ∧ m'.GridInside := by
  obtain ⟨m₁, hfold, hplace⟩ := exists_of_bind_ok hplace
  split at hplace
  · cases hplace
    exact
      foldlM_placeEntity_gridInside
        (m := { m with entitiesExternal := vecptr }) h hes hfold
  · cases hplace

end Writes

end Map

/-- The thread of a map, and the vectors that it calls `update_entities` with. -/
structure MapThread where
  map : Map
  calls : List (VecPtr × List Entity)

namespace MapThread

section Model

/-- The thread on its own. -/
def runAlone (t : MapThread) (b : TSConsoleBuffer) :
    Except Fault TSConsoleBuffer := do
  let b ← t.map.startUp b
  let s ←
    t.calls.foldlM
      (fun s call => s.1.updateEntities call.1 call.2 s.2) (t.map, b)
  pure s.2

/-- Threads one after the other. -/
def runInTurn (threads : List MapThread) (b : TSConsoleBuffer) :
    Except Fault TSConsoleBuffer :=
  threads.foldlM (fun b t => t.runAlone b) b

/-- The calls of `write_character` that the calls of `update_entities` make. -/
def callsWrites :
    Map → List (VecPtr × List Entity) →
      Except Fault (List TSConsoleBuffer.Write)
  | _, [] => .ok []
  | m, call :: calls => do
      let m' ←
        Map.placeEntities { m with entitiesExternal := some call.1 } call.2
      let ws ← callsWrites m' calls
      pure (m'.renderWrites ++ ws)

/-- The calls of `write_character` that the thread makes. -/
def writes (t : MapThread) : Except Fault (List TSConsoleBuffer.Write) := do
  let ws ← callsWrites t.map t.calls
  pure (Map.startUpWrites t.map.config ++ ws)

/-- The map has cells, and all entities are at cells of it. -/
structure InBounds (t : MapThread) : Prop where
  width : 1 ≤ t.map.config.width.toNat
  height : 1 ≤ t.map.config.height.toNat
  grid : t.map.GridInside
  calls : ∀ call ∈ t.calls, ∀ e ∈ call.2, t.map.config.Contains e.cell

end Model

section Alone

variable {t : MapThread} {b b' : TSConsoleBuffer}
  {ws : List TSConsoleBuffer.Write}

theorem calls_eq_ok_iff
    {m : Map} {calls : List (VecPtr × List Entity)} :
    (∃ m', calls.foldlM
        (fun s call => s.1.updateEntities call.1 call.2 s.2) (m, b) =
          .ok (m', b')) ↔
      ∃ ws, callsWrites m calls = .ok ws ∧ b.writeAll ws = .ok b' := by
  induction calls generalizing m b with
  | nil =>
      simp [callsWrites, TSConsoleBuffer.writeAll]
  | cons call calls ih =>
      simp only [List.foldlM_cons, callsWrites, bind_eq_ok_iff, pure_eq_ok,
        Except.ok.injEq]
      constructor
      · rintro ⟨m', ⟨m₁, b₁⟩, hupdate, hrest⟩
        obtain ⟨hplace, hrender⟩ := Map.updateEntities_eq_ok_iff.mp hupdate
        obtain ⟨ws, hws, hwrites⟩ := ih.mp ⟨m', hrest⟩
        refine ⟨_, ⟨m₁, hplace, ws, hws, rfl⟩, ?_⟩
        rw [TSConsoleBuffer.writeAll_append, hrender, bind_ok, hwrites]
      · rintro ⟨_, ⟨m₁, hplace, ws, hws, rfl⟩, hwrites⟩
        rw [TSConsoleBuffer.writeAll_append] at hwrites
        obtain ⟨b₁, hrender, hwrites⟩ := exists_of_bind_ok hwrites
        obtain ⟨m', hrest⟩ := ih.mpr ⟨ws, hws, hwrites⟩
        exact
          ⟨m', (m₁, b₁),
            Map.updateEntities_eq_ok_iff.mpr ⟨hplace, hrender⟩, hrest⟩

/-- On its own, a thread does its writes. -/
theorem runAlone_eq_ok_iff
    (h : t.InBounds) :
    t.runAlone b = .ok b' ↔
      ∃ ws, t.writes = .ok ws ∧ b.writeAll ws = .ok b' := by
  simp only [runAlone, writes, bind_eq_ok_iff, pure_eq_ok, Except.ok.injEq,
    Map.startUp_eq_ok_iff h.width h.height]
  constructor
  · rintro ⟨b₁, hstart, ⟨m', b₂⟩, hcalls, rfl⟩
    obtain ⟨ws, hws, hwrites⟩ := calls_eq_ok_iff.mp ⟨m', hcalls⟩
    refine ⟨_, ⟨ws, hws, rfl⟩, ?_⟩
    rw [TSConsoleBuffer.writeAll_append, hstart, bind_ok, hwrites]
  · rintro ⟨_, ⟨ws, hws, rfl⟩, hwrites⟩
    rw [TSConsoleBuffer.writeAll_append] at hwrites
    obtain ⟨b₁, hstart, hwrites⟩ := exists_of_bind_ok hwrites
    obtain ⟨m', hcalls⟩ := calls_eq_ok_iff.mpr ⟨ws, hws, hwrites⟩
    exact ⟨b₁, hstart, (m', b'), hcalls, rfl⟩

theorem inRectangle_of_mem_callsWrites
    {m : Map} {calls : List (VecPtr × List Entity)}
    {w : TSConsoleBuffer.Write}
    (hgrid : m.GridInside)
    (hcalls : ∀ call ∈ calls, ∀ e ∈ call.2, m.config.Contains e.cell)
    (hws : callsWrites m calls = .ok ws)
    (hw : w ∈ ws) :
    Map.InRectangle m.config w.xpos w.ypos := by
  induction calls generalizing m ws with
  | nil =>
      cases hws
      cases hw
  | cons call calls ih =>
      obtain ⟨m', hplace, hws⟩ := exists_of_bind_ok hws
      obtain ⟨ws', hws', hws⟩ := exists_of_bind_ok hws
      cases hws
      obtain ⟨hconfig, hgrid'⟩ :=
        Map.placeEntities_gridInside hgrid (hcalls call (by simp)) hplace
      rw [← hconfig]
      rcases List.mem_append.mp hw with hw | hw
      · exact hgrid'.inRectangle hw
      · refine ih hgrid' ?_ hws' hw
        rw [hconfig]
        exact fun call' hcall' =>
          hcalls call' (List.mem_cons_of_mem call hcall')

/-- A thread writes places of its map. -/
theorem inRectangle_of_mem_writes
    {w : TSConsoleBuffer.Write}
    (h : t.InBounds)
    (hws : t.writes = .ok ws)
    (hw : w ∈ ws) :
    Map.InRectangle t.map.config w.xpos w.ypos := by
  obtain ⟨ws', hws', hws⟩ := exists_of_bind_ok hws
  cases hws
  rcases List.mem_append.mp hw with hw | hw
  · exact Map.inRectangle_of_mem_startUpWrites h.width h.height hw
  · exact inRectangle_of_mem_callsWrites h.grid h.calls hws' hw

end Alone

section Together

variable {threads : List MapThread} {b : TSConsoleBuffer}
  {wss : List (List TSConsoleBuffer.Write)}

/-- The rectangles of two maps have nothing in common. -/
def Apart (config config' : MapConfig) : Prop :=
  ∀ px py, Map.InRectangle config px py → ¬ Map.InRectangle config' px py

theorem exists_of_mem_right
    {α β : Type} {R : α → β → Prop} {as : List α} {bs : List β} {b : β}
    (h : List.Forall₂ R as bs)
    (hb : b ∈ bs) :
    ∃ a ∈ as, R a b := by
  induction h with
  | nil => cases hb
  | @cons a b' as bs hhead _ ih =>
      rcases List.mem_cons.mp hb with rfl | hb
      · exact ⟨a, by simp, hhead⟩
      · obtain ⟨a', ha', hR⟩ := ih hb
        exact ⟨a', List.mem_cons_of_mem a ha', hR⟩

/-- Threads of maps that are apart write different places. -/
theorem independent_writes
    (hbounds : ∀ t ∈ threads, t.InBounds)
    (hapart : threads.Pairwise fun t t' => Apart t.map.config t'.map.config)
    (hwrites : List.Forall₂ (fun t ws => t.writes = .ok ws) threads wss) :
    Independent TSConsoleBuffer.writeOp wss := by
  induction hwrites with
  | nil => exact List.Pairwise.nil
  | @cons t ws threads wss hws hrest ih =>
      rw [List.pairwise_cons] at hapart
      obtain ⟨hhead, htail⟩ := hapart
      have hbounds' : ∀ t' ∈ threads, t'.InBounds :=
        fun t' ht' => hbounds t' (List.mem_cons_of_mem t ht')
      refine List.Pairwise.cons ?_ (ih hbounds' htail)
      intro ws' hws' w hw w' hw'
      obtain ⟨t', ht', hwrites'⟩ := exists_of_mem_right hrest hws'
      refine TSConsoleBuffer.commute_of_ne ?_
      rintro ⟨hx, hy⟩
      have hin := inRectangle_of_mem_writes (hbounds t (by simp)) hws hw
      have hin' := inRectangle_of_mem_writes (hbounds' t' ht') hwrites' hw'
      rw [← hx, ← hy] at hin'
      exact hhead t' ht' _ _ hin hin'

theorem runInTurn_eq_ok_iff
    {b' : TSConsoleBuffer}
    (hbounds : ∀ t ∈ threads, t.InBounds)
    (hwrites : List.Forall₂ (fun t ws => t.writes = .ok ws) threads wss) :
    runInTurn threads b = .ok b' ↔ b.writeAll wss.flatten = .ok b' := by
  unfold runInTurn
  induction hwrites generalizing b with
  | nil => rfl
  | @cons t ws threads wss hws hrest ih =>
      have hbounds' : ∀ t' ∈ threads, t'.InBounds :=
        fun t' ht' => hbounds t' (List.mem_cons_of_mem t ht')
      simp only [List.foldlM_cons, List.flatten_cons,
        TSConsoleBuffer.writeAll_append, bind_eq_ok_iff, ih hbounds',
        runAlone_eq_ok_iff (hbounds t (by simp)), hws, Except.ok.injEq,
        exists_eq_left']

/-- Threads of maps that are apart leave the buffer that they leave one after the
other. -/
theorem runInTurn_eq_of_interleaving
    {is : List Nat} {q : Pool TSConsoleBuffer TSConsoleBuffer.Write}
    (hbounds : ∀ t ∈ threads, t.InBounds)
    (hapart : threads.Pairwise fun t t' => Apart t.map.config t'.map.config)
    (hwrites : List.Forall₂ (fun t ws => t.writes = .ok ws) threads wss)
    (hrun : run (Pool.step TSConsoleBuffer.writeOp) ⟨b, wss⟩ is = some q)
    (hdone : q.Done) :
    runInTurn threads b = .ok q.shared := by
  have hindep := independent_writes hbounds hapart hwrites
  have hshared := run_shared_eq (p := ⟨b, wss⟩) hindep hrun hdone
  rw [runInTurn_eq_ok_iff hbounds hwrites]
  exact TSConsoleBuffer.run_writeOp_eq_some_iff.mp hshared

theorem exists_callsWrites
    {m : Map} {calls : List (VecPtr × List Entity)}
    (hcalls : ∀ call ∈ calls, call.2.length < 2 ^ 31 ∧
      ∀ e ∈ call.2, e.Inside m.config) :
    ∃ ws, callsWrites m calls = .ok ws := by
  induction calls generalizing m with
  | nil => exact ⟨[], rfl⟩
  | cons call calls ih =>
      obtain ⟨hlen, hinside⟩ := hcalls call (by simp)
      obtain ⟨m', hfold, hframe, _⟩ :=
        Map.foldlM_placeEntity_refines
          (m := { m with entitiesExternal := some call.1 }) hinside
      have htail : ∀ call' ∈ calls, call'.2.length < 2 ^ 31 ∧
          ∀ e ∈ call'.2, e.Inside m'.config := by
        rw [hframe.config]
        exact fun call' hcall' => hcalls call' (List.mem_cons_of_mem call hcall')
      obtain ⟨ws, hws⟩ := ih htail
      refine ⟨m'.renderWrites ++ ws, ?_⟩
      simp only [callsWrites, Map.placeEntities, hfold, hlen, hws, if_true,
        bind_ok, pure_eq_ok]

/-- Threads can do their calls, if the vectors can be counted and the entities have
come from cells of the maps. -/
theorem exists_writes
    (hcalls : ∀ t ∈ threads, ∀ call ∈ t.calls, call.2.length < 2 ^ 31 ∧
      ∀ e ∈ call.2, e.Inside t.map.config) :
    ∃ wss, List.Forall₂ (fun t ws => t.writes = .ok ws) threads wss := by
  induction threads with
  | nil => exact ⟨[], List.Forall₂.nil⟩
  | cons t threads ih =>
      obtain ⟨wss, hwss⟩ :=
        ih fun t' ht' => hcalls t' (List.mem_cons_of_mem t ht')
      obtain ⟨ws, hws⟩ := exists_callsWrites (hcalls t (by simp))
      refine
        ⟨(Map.startUpWrites t.map.config ++ ws) :: wss,
          List.Forall₂.cons ?_ hwss⟩
      simp only [writes, hws, bind_ok, pure_eq_ok]

end Together

end MapThread

end SpeciesSimulator
