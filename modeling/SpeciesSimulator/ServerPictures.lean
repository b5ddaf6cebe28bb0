import SpeciesSimulator.ServerThreads

/-!
# What the server shows

The threads of the maps draw while the server goes on.  They have nothing in common
with the other threads but the buffer, and the buffer is theirs; so each of their
steps is a step that the server does not notice.

Main facts:
* `step_simulates`: a step of a thread of a map is no step of the rest of the
  server, apart from the buffer, and it has no fault;
* `refines_server`: so the server goes on as if there were no such threads;
* `shows_maps`: each map shows its picture whenever its thread waits, and inside
  of its walls at every moment;
* `draws_maps`: the threads can always go on until every map shows its picture,
  without any wake-up.
-/

namespace SpeciesSimulator

open ListSlots Transition

/-- A thread of a map is started, or it draws. -/
def ProcessEvent.Paints : ProcessEvent → Prop
  | .server _ => False
  | .startThread => True
  | .write _ => True
  | .wakeUp _ => False

namespace ServerProcess

section Simulation

variable {p p' : ServerProcess} {s : Server} {n : UInt64}

/-- Clients are accepted once the environment is running and are still there, and
no handler of a refused client ends the process. -/
def Regular (p : ServerProcess) (e : ProcessEvent) : Prop :=
  ∀ e', e = .server e' → Server.Regular p.server e'

/-- A regular run of the process of a server for up to 40 maps. -/
structure RegularRun
    (n : UInt64) (s₀ : Server) (es : List ProcessEvent) (p : ServerProcess) :
    Prop where
  make : Server.make n = .ok s₀
  few : Server.FewMaps n
  regular : Meets step Regular (start s₀) es
  runs : run step (start s₀) es = some p

/-- The events that are not those of a thread of a map. -/
def serverEvent : ProcessEvent → List ServerEvent
  | .server e => [e]
  | _ => []

/-- The process is a server into whose buffer the threads of the maps draw. -/
structure Simulates (n : UInt64) (p : ServerProcess) (s : Server) : Prop where
  few : Server.FewMaps n
  world : Server.WorldInv s
  count : s.nMapsCount = n
  draws : Server.DrawsInv s
  server : p.server = s.setBuffer p.server.environment.buffer
  early : p.mapThreads = [] → p.server = s
  started : p.mapThreads ≠ [] → s.environment.pc = .running
  painting : s.environment.pc = .running →
    Map.Painting s.environment.maps p.mapThreads p.server.environment.buffer

/-- The thread of the environment is done and no thread of a map is there. -/
theorem painting_start
    (hdraws : Server.DrawsInv s)
    (hpc : s.environment.pc = .running) :
    Map.Painting s.environment.maps [] s.environment.buffer := by
  have hdrawn := hdraws (by simp [hpc])
  refine Map.painting_of_sketched (hdrawn.sketched (by simp [hpc])) ?_
  intro map hmap
  obtain ⟨i, hi⟩ := List.mem_iff_getElem?.mp hmap
  exact hdrawn.food.covers hi

theorem Simulates.pc_eq
    (h : Simulates n p s) :
    p.server.environment.pc = s.environment.pc := by
  rw [h.server]
  rfl

/-- What is regular for the process is regular for the server. -/
theorem Simulates.regular_iff
    {e : ServerEvent}
    (h : Simulates n p s) :
    Server.Regular p.server e ↔ Server.Regular s e := by
  have hlate : Server.AcceptsLate p.server e ↔ Server.AcceptsLate s e := by
    unfold Server.AcceptsLate
    rw [h.pc_eq]
  exact ⟨fun hr => { hr with late := hlate.mp hr.late },
    fun hr => { hr with late := hlate.mpr hr.late }⟩

/-- A step of another thread than those of the maps. -/
theorem Simulates.server_step
    {e : ServerEvent} {s₁ : Server}
    (h : Simulates n p s)
    (hregular : Server.Regular p.server e)
    (hstep : p.server.step e = some s₁) :
    ∃ s', s.step e = some s' ∧ Server.Regular s e ∧
      Simulates n { p with server := s₁ } s' := by
  have hregular' : Server.Regular s e := h.regular_iff.mp hregular
  obtain ⟨s', hstep', hs₁, hearly, hpainting, hstarted⟩ :
      ∃ s', s.step e = some s' ∧
        s₁ = s'.setBuffer s₁.environment.buffer ∧
        (p.mapThreads = [] → s₁ = s') ∧
        (s'.environment.pc = .running → Server.DrawsInv s' →
          Map.Painting s'.environment.maps p.mapThreads
            s₁.environment.buffer) ∧
        (p.mapThreads ≠ [] → s'.environment.pc = .running) := by
    by_cases hnone : p.mapThreads = []
    · rw [h.early hnone] at hstep
      refine ⟨s₁, hstep, rfl, fun _ => rfl, fun hrunning hdraws => ?_, ?_⟩
      · rw [hnone]
        exact painting_start hdraws hrunning
      · exact fun hne => absurd hnone hne
    · have hrunning := h.started hnone
      rw [h.server, Server.step_setBuffer hrunning, Option.map_eq_some_iff]
        at hstep
      obtain ⟨s', hstep', rfl⟩ := hstep
      obtain ⟨henv, _⟩ := Server.environment_of_running hrunning hstep'
      refine ⟨s', hstep', rfl, fun hnil => absurd hnil hnone, fun _ _ => ?_, ?_⟩
      · rw [henv]
        exact h.painting hrunning
      · intro _
        rw [henv]
        exact hrunning
  obtain ⟨hworld, hcount⟩ :=
    Server.step_worldInv h.few s e s' ⟨h.world, h.count⟩ hregular'
      hstep'
  have hdraws : Server.DrawsInv s' := by
    refine Server.step_drawsInv ?_ h.world h.draws hstep'
    rw [h.count]
    exact h.few
  exact ⟨s', hstep', hregular',
    { few := h.few
      world := hworld
      count := hcount
      draws := hdraws
      server := hs₁
      early := hearly
      started := hstarted
      painting := fun hrunning => hpainting hrunning hdraws }⟩

theorem Simulates.maps_eq
    (h : Simulates n p s) :
    p.server.environment.maps = s.environment.maps := by
  rw [h.server]
  rfl

theorem Simulates.board
    (h : Simulates n p s)
    (hpc : s.environment.pc = .running) :
    Map.Board s.environment.maps := by
  have hcount := h.count
  subst hcount
  exact h.draws.board h.few hpc

/-- A thread of a map is there. -/
theorem Simulates.running
    {i : Nat} {ws : List TSConsoleBuffer.Write}
    (h : Simulates n p s)
    (hws : p.mapThreads[i]? = some ws) :
    s.environment.pc = .running :=
  h.started (ne_nil_of_slot hws)

/-- The map of a thread points to the vector in its place. -/
theorem Simulates.pointer
    {i : Nat} {ws : List TSConsoleBuffer.Write} {map : Map}
    (h : Simulates n p s)
    (hws : p.mapThreads[i]? = some ws)
    (hmap : p.server.environment.maps[i]? = some map) :
    map.entitiesExternal = some i := by
  have hpc := h.running hws
  rw [h.maps_eq] at hmap
  exact (h.draws (by simp [hpc])).food.startup.pointers i map hmap

theorem Simulates.exists_vector
    {i : Nat} {ws : List TSConsoleBuffer.Write} {map : Map}
    (h : Simulates n p s)
    (hws : p.mapThreads[i]? = some ws)
    (hmap : p.server.environment.maps[i]? = some map) :
    ∃ vector, p.server.incommingEntities[i]? = some vector := by
  have hpc := h.running hws
  rw [h.maps_eq] at hmap
  rw [h.server]
  exact h.draws.exists_vector hpc hmap

/-- Nothing changes if the map is updated with its vector again. -/
theorem Simulates.again
    {i : Nat} {ws : List TSConsoleBuffer.Write} {map : Map} {vecptr : VecPtr}
    {vector : List Entity}
    (h : Simulates n p s)
    (hws : p.mapThreads[i]? = some ws)
    (hmap : p.server.environment.maps[i]? = some map)
    (hpointer : map.entitiesExternal = some vecptr)
    (hvector : p.server.incommingEntities[vecptr]? = some vector) :
    i = vecptr ∧
      Map.placeEntities { map with entitiesExternal := some vecptr } vector =
        .ok map := by
  obtain rfl := Option.some.inj ((h.pointer hws hmap).symm.trans hpointer)
  have hpc := h.running hws
  rw [h.maps_eq] at hmap
  rw [h.server] at hvector
  exact ⟨rfl, (h.draws.settled hpc hmap hvector).again⟩

/-- The thread of the environment starts the thread of the next map. -/
theorem Simulates.startThread_step
    (h : Simulates n p s)
    (hstep : p.ProcessStep .startThread p') :
    Simulates n p' s := by
  cases hstep with
  | startThread hpc hmap =>
      rw [h.pc_eq] at hpc
      rw [h.maps_eq] at hmap
      exact
        { h with
          early := by simp
          started := fun _ => hpc
          painting := fun _ =>
            (h.painting hpc).startThread (h.board hpc) hmap }
  | fault hcause => cases hcause

/-- A call of a thread of a map has no fault and changes the buffer only. -/
theorem Simulates.write_step
    {i : Nat}
    (h : Simulates n p s)
    (hstep : p.ProcessStep (.write i) p') :
    Simulates n p' s := by
  cases hstep with
  | @write _ w ws b hws hwrite =>
      have hpc := h.running hws
      obtain ⟨b', hwrite', hpainting⟩ :=
        (h.painting hpc).write (h.board hpc) hws
      obtain rfl := Except.ok.inj (hwrite.symm.trans hwrite')
      have hserver : p.server.setBuffer b = s.setBuffer b := by
        rw [h.server, Server.setBuffer_setBuffer]
      exact
        { h with
          server := hserver
          early := fun hnil =>
            absurd ((List.set_eq_nil_iff _ _).mp hnil) (ne_nil_of_slot hws)
          started := fun _ => hpc
          painting := fun _ => hpainting }
  | fault hcause =>
      cases hcause with
      | write hws hwrite =>
          have hpc := h.running hws
          obtain ⟨b', hwrite', _⟩ := (h.painting hpc).write (h.board hpc) hws
          rw [hwrite] at hwrite'
          cases hwrite'

/-- A thread of a map that wakes up finds nothing new and has no fault. -/
theorem Simulates.wakeUp_step
    {i : Nat}
    (h : Simulates n p s)
    (hstep : p.ProcessStep (.wakeUp i) p') :
    Simulates n p' s := by
  cases hstep with
  | @wakeUp _ map map' vecptr vector hws hmap hpointer hvector hplace =>
      obtain ⟨rfl, hagain⟩ := h.again hws hmap hpointer hvector
      obtain rfl := Except.ok.inj (hagain.symm.trans hplace)
      have hpc := h.running hws
      rw [h.maps_eq] at hmap
      -- the thread puts every entity where it is already
      have hsame : p.server.setMap i map = p.server := by
        unfold Server.setMap
        rw [h.maps_eq]
        obtain ⟨hlt, rfl⟩ := List.getElem?_eq_some_iff.mp hmap
        rw [List.set_getElem_self hlt, ← h.maps_eq]
      rw [hsame]
      exact
        { h with
          early := fun hnil =>
            absurd ((List.set_eq_nil_iff _ _).mp hnil) (ne_nil_of_slot hws)
          started := fun _ => hpc
          painting := fun _ =>
            (h.painting hpc).wakeUp (h.board hpc) hmap hws }
  | fault hcause =>
      cases hcause with
      | noVector hws hmap hpointer =>
          rw [h.pointer hws hmap] at hpointer
          cases hpointer
      | strayVector hws hmap hpointer hvector =>
          obtain rfl := Option.some.inj ((h.pointer hws hmap).symm.trans hpointer)
          obtain ⟨vector, hvector'⟩ := h.exists_vector hws hmap
          rw [hvector] at hvector'
          cases hvector'
      | place hws hmap hpointer hvector hplace =>
          rw [(h.again hws hmap hpointer hvector).2] at hplace
          cases hplace

/-- A step of the process is a step of the server, or none if a thread of a map
takes it. -/
theorem step_simulates
    (p : ServerProcess) (e : ProcessEvent) (p' : ServerProcess) (s : Server)
    (h : Simulates n p s)
    (hregular : Regular p e)
    (hstep : p.step e = some p') :
    ∃ s', run Server.step s (serverEvent e) = some s' ∧
      Meets Server.step Server.Regular s (serverEvent e) ∧
      Simulates n p' s' := by
  have hcases := step_cases hstep
  cases e with
  | server e =>
      cases hcases with
      | server hserver =>
          obtain ⟨s', hstep', hregular', hsim⟩ :=
            h.server_step (hregular e rfl) hserver
          refine ⟨s', ?_, meets_cons hregular' fun _ _ => trivial, hsim⟩
          exact (run_singleton s e).trans hstep'
      | fault hcause => cases hcause
  | startThread => exact ⟨s, rfl, trivial, h.startThread_step hcases⟩
  | write i => exact ⟨s, rfl, trivial, h.write_step hcases⟩
  | wakeUp i => exact ⟨s, rfl, trivial, h.wakeUp_step hcases⟩

/-- A new server has no threads of maps. -/
theorem simulates_start
    {s₀ : Server}
    (hmake : Server.make n = .ok s₀)
    (hfew : Server.FewMaps n) :
    Simulates n (start s₀) s₀ := by
  have hworld := Server.worldInv_of_make hmake hfew
  have hcount : s₀.nMapsCount = n := by
    obtain ⟨environment, _, rfl⟩ := Server.exists_of_make hmake
    rfl
  have hpc : s₀.environment.pc = .created := by
    obtain ⟨environment, henv, rfl⟩ := Server.exists_of_make hmake
    exact Environment.pc_of_make henv
  exact
    { few := hfew
      world := hworld
      count := hcount
      draws := fun hne => absurd hpc hne
      server := rfl
      early := fun _ => rfl
      started := fun hne => absurd rfl hne
      painting := fun hrunning => by
        rw [hpc] at hrunning
        cases hrunning }

/-- What a server process is after a run. -/
theorem RegularRun.simulates
    {s₀ : Server} {es : List ProcessEvent}
    (h : RegularRun n s₀ es p) :
    ∃ s, run Server.step s₀ (es.flatMap serverEvent) = some s ∧
      Meets Server.step Server.Regular s₀ (es.flatMap serverEvent) ∧
      Simulates n p s :=
  exists_run_of_simulation serverEvent step_simulates
    (simulates_start h.make h.few) h.regular h.runs

/-- What a map shows: inside of its walls at every moment, and at all of its cells
when its thread waits. -/
theorem Simulates.shown
    {i : Nat} {map : Map} {vector : List Entity} {cell : Int × Int}
    (h : Simulates n p s)
    (hpc : p.server.environment.pc = .running)
    (hmap : p.server.environment.maps[i]? = some map)
    (hvector : p.server.incommingEntities[i]? = some vector)
    (hcell : map.config.Contains cell)
    (hdrawn :
      Map.wallAt map.config cell = none ∨ p.mapThreads[i]? = some []) :
    Map.shownAt map.config p.server.environment.buffer cell =
      some (Map.picture map.config vector cell) := by
  rw [h.pc_eq] at hpc
  rw [h.maps_eq] at hmap
  have hvector' : s.incommingEntities[i]? = some vector := by
    rw [h.server] at hvector
    exact hvector
  have hsettled := h.draws.settled hpc hmap hvector'
  have hfront : map.front cell = Map.picture map.config vector cell := by
    unfold Map.front Map.picture
    rw [hsettled.lookup]
  rw [← hfront]
  have hpainting := h.painting hpc
  rcases hdrawn with hopen | hwaits
  · exact
      hpainting.unwalled map (List.mem_of_getElem? hmap) cell hcell hopen
  · exact hpainting.shown hmap hwaits hcell

end Simulation

section Progress

variable {p p' : ServerProcess} {s : Server} {n : UInt64}

/-- Every map has a thread, and all of them wait. -/
def AllWait (p : ServerProcess) : Prop :=
  p.mapThreads.length = p.server.environment.maps.length ∧
    ∀ ws ∈ p.mapThreads, ws = []

/-- How many calls there are until all threads wait, and how many threads until all
of them are started. -/
def undrawn (p : ServerProcess) : Nat :=
  ((p.server.environment.maps.drop p.mapThreads.length).map fun map =>
      (Map.startUpWrites map.config).length + 1).sum +
    (p.mapThreads.map List.length).sum

theorem exists_startThread
    (hpc : p.server.environment.pc = .running)
    (hlt : p.mapThreads.length < p.server.environment.maps.length) :
    ∃ p', p.startThread = some p' ∧ p'.undrawn < p.undrawn := by
  have hmap := List.getElem?_eq_getElem hlt
  unfold startThread
  rw [if_pos hpc, hmap]
  refine ⟨_, rfl, ?_⟩
  simp only [undrawn, List.length_append, List.length_singleton,
    List.map_append, List.map_cons, List.map_nil, List.sum_append,
    List.sum_cons, List.sum_nil]
  rw [List.drop_eq_getElem_cons hlt, List.map_cons, List.sum_cons]
  omega

theorem exists_write
    {i : Nat} {w : TSConsoleBuffer.Write} {ws : List TSConsoleBuffer.Write}
    (h : Simulates n p s)
    (hws : p.mapThreads[i]? = some (w :: ws)) :
    ∃ p', p.write i = some p' ∧ p'.undrawn < p.undrawn := by
  have hpc := h.running hws
  obtain ⟨b', hwrite, _⟩ :=
    (h.painting hpc).write (h.board hpc) hws
  unfold write
  simp only [hws, hwrite]
  refine ⟨_, rfl, ?_⟩
  have hsum :
      ((p.mapThreads.set i ws).map List.length).sum <
        (p.mapThreads.map List.length).sum := by
    obtain ⟨before, after, hsplit, _, hset⟩ := exists_split hws
    rw [hset, hsplit]
    simp only [List.map_append, List.map_cons, List.sum_append, List.sum_cons,
      List.length_cons]
    omega
  simp only [undrawn, List.length_set]
  exact Nat.add_lt_add_left hsum _

/-- As long as not all threads wait, one of them can go on drawing. -/
theorem Simulates.progress
    (h : Simulates n p s)
    (hpc : s.environment.pc = .running)
    (hwait : ¬ p.AllWait) :
    ∃ e p', p.step e = some p' ∧ e.Paints ∧ Simulates n p' s ∧
      p'.undrawn < p.undrawn := by
  have halive : p.server.crash = none := by
    rw [h.server]
    exact h.world.crash
  by_cases hlt : p.mapThreads.length < p.server.environment.maps.length
  · rw [← h.pc_eq] at hpc
    obtain ⟨p', hstart, hdecreases⟩ := exists_startThread hpc hlt
    have hstep : p.step .startThread = some p' := by
      simp only [step, halive, Option.isSome_none, Bool.false_eq_true, if_false,
        hstart]
    exact ⟨.startThread, p', hstep, trivial, h.startThread_step (step_cases hstep),
      hdecreases⟩
  · have hlength : p.mapThreads.length = p.server.environment.maps.length := by
      have hle' := (h.painting hpc).length
      rw [← h.maps_eq] at hle'
      omega
    obtain ⟨ws, hmem, hne⟩ : ∃ ws ∈ p.mapThreads, ws ≠ [] := by
      by_contra hall
      refine hwait ⟨hlength, fun ws hws => ?_⟩
      by_contra hne
      exact hall ⟨ws, hws, hne⟩
    obtain ⟨w, rest, rfl⟩ := List.exists_cons_of_ne_nil hne
    obtain ⟨i, hi⟩ := List.mem_iff_getElem?.mp hmem
    obtain ⟨p', hwrite, hdecreases⟩ := exists_write h hi
    have hstep : p.step (.write i) = some p' := by
      simp only [step, halive, Option.isSome_none, Bool.false_eq_true, if_false,
        hwrite]
    exact ⟨.write i, p', hstep, trivial, h.write_step (step_cases hstep),
      hdecreases⟩

/-- The threads can go on until all of them wait. -/
theorem Simulates.exists_allWait
    (h : Simulates n p s)
    (hpc : s.environment.pc = .running) :
    ∃ p', ReachableBy step (fun _ e => e.Paints) p p' ∧
      Simulates n p' s ∧ p'.AllWait := by
  refine exists_reachableBy_of_progress undrawn (fun q hq hwait => ?_) h
  exact hq.progress hpc hwait

theorem AllWait.getElem?
    {i : Nat} {map : Map}
    (h : p.AllWait)
    (hmap : p.server.environment.maps[i]? = some map) :
    p.mapThreads[i]? = some [] := by
  have hlt := (List.getElem?_eq_some_iff.mp hmap).1
  rw [← h.1] at hlt
  have hws := List.getElem?_eq_getElem hlt
  rw [hws, h.2 _ (List.getElem_mem hlt)]

end Progress

section Sample

variable {p p' : ServerProcess} {s s' s₀ : Server} {n : UInt64}

/-- The threads of the maps do nothing irregular. -/
theorem regular_of_paints
    {e : ProcessEvent}
    (h : e.Paints) :
    Regular p e := by
  rintro e' rfl
  cases h

/-- What the server does, the process does. -/
theorem run_server
    {es : List ServerEvent}
    (hrun : run Server.step s es = some s') :
    run step (start s) (es.map ProcessEvent.server) = some (start s') := by
  refine run_map start ProcessEvent.server (fun s e s' hstep => ?_) hrun
  simp only [step, start, hstep]

/-- The environment starts up before any thread of a map is there. -/
theorem exists_run_startup
    (hmake : Server.make n = .ok s₀)
    (hfew : Server.FewMaps n) :
    ∃ es s, RegularRun n s₀ es (start s) ∧ Simulates n (start s) s ∧
      s.environment.pc = .running ∧ s.environment.maps.length = n.toNat := by
  obtain ⟨rs, environment, vectors, hstartup, _, hpc, hlength⟩ :=
    Server.exists_startup hmake hfew.pos (by have hle := hfew.le; omega)
  have hrun := run_server hstartup
  have hregular :
      Meets step Regular (start s₀)
        ((Server.startup rs).map ProcessEvent.server) := by
    refine meets_of_forall (fun p e he => ?_) _
    obtain ⟨e, hmem, rfl⟩ := List.mem_map.mp he
    rintro e' heq
    obtain rfl := ProcessEvent.server.inj heq
    exact Server.regular_of_startup hmem
  have hruns : RegularRun n s₀ _ _ := ⟨hmake, hfew, hregular, hrun⟩
  obtain ⟨s, _, _, hsim⟩ := hruns.simulates
  obtain rfl : Server.started n environment vectors = s := hsim.early rfl
  exact ⟨_, _, hruns, hsim, hpc, hlength⟩

/-- The environment starts up, and then the threads of the maps draw until all of
them wait. -/
theorem exists_run_allWait
    (hmake : Server.make n = .ok s₀)
    (hfew : Server.FewMaps n) :
    ∃ es p s, RegularRun n s₀ es p ∧ Simulates n p s ∧ p.AllWait ∧
      s.environment.pc = .running ∧ s.environment.maps.length = n.toNat := by
  obtain ⟨es, s, hruns, hsim, hpc, hlength⟩ := exists_run_startup hmake hfew
  obtain ⟨p, hreached, hsim', hwait⟩ := hsim.exists_allWait hpc
  obtain ⟨es', hmeets, hrun'⟩ := hreached.mono fun p e he =>
    regular_of_paints (p := p) he
  exact ⟨es ++ es', p, s,
    { hruns with
      regular := meets_append hruns.regular hruns.runs hmeets
      runs := (run_append hruns.runs es').trans hrun' },
    hsim', hwait, hpc, hlength⟩

/-- The first map has a corner. -/
theorem Simulates.exists_first
    (h : Simulates n p s)
    (hpc : s.environment.pc = .running)
    (hlength : s.environment.maps.length = n.toNat) :
    ∃ map vector, p.server.environment.maps[0]? = some map ∧
      p.server.incommingEntities[0]? = some vector ∧
      map.config.Contains (0, 0) := by
  have hpos := h.few.pos
  have hmap : s.environment.maps[0]? = some s.environment.maps[0] :=
    List.getElem?_eq_getElem (by omega)
  obtain ⟨vector, hvector⟩ := h.draws.exists_vector hpc hmap
  have hboard := h.board hpc
  have hmem := List.mem_of_getElem? hmap
  have hwidth := hboard.width _ hmem
  have hheight := hboard.height _ hmem
  refine ⟨s.environment.maps[0], vector, ?_, ?_, ?_⟩
  · rw [h.maps_eq]
    exact hmap
  · rw [h.server]
    exact hvector
  · exact ⟨le_refl _, by omega, le_refl _, by omega⟩

end Sample

section Theorems

variable {p : ServerProcess} {s s₀ : Server} {n : UInt64}
  {es : List ProcessEvent}

/-- In every state, each map shows its picture at all cells without a wall, and at all
of its cells when its thread waits. -/
theorem shows_maps
    {i : Nat} {map : Map} {vector : List Entity} {cell : Int × Int}
    (h : RegularRun n s₀ es p)
    (hpc : p.server.environment.pc = .running)
    (hmap : p.server.environment.maps[i]? = some map)
    (hvector : p.server.incommingEntities[i]? = some vector)
    (hcell : map.config.Contains cell)
    (hdrawn :
      Map.wallAt map.config cell = none ∨ p.mapThreads[i]? = some []) :
    Map.shownAt map.config p.server.environment.buffer cell =
      some (Map.picture map.config vector cell) := by
  obtain ⟨s, _, _, hsim⟩ := h.simulates
  exact hsim.shown hpc hmap hvector hcell hdrawn

/-- The corner of the only map of a server shows a wall or some food. -/
theorem shows_maps_one :
    ∃ s₀ p es map vector, Server.make 1 = .ok s₀ ∧
      run step (start s₀) es = some p ∧
      p.server.environment.maps[0]? = some map ∧
      p.server.incommingEntities[0]? = some vector ∧
      Map.shownAt map.config p.server.environment.buffer (0, 0) =
        some (Map.picture map.config vector (0, 0)) := by
  obtain ⟨s₀, hmake⟩ : ∃ s₀, Server.make 1 = .ok s₀ := ⟨_, rfl⟩
  obtain ⟨es, p, s, hruns, hsim, hwait, hpc, hlength⟩ :=
    exists_run_allWait hmake ⟨by decide, by decide⟩
  obtain ⟨map, vector, hmap, hvector, hcell⟩ :=
    hsim.exists_first hpc hlength
  refine ⟨s₀, p, es, map, vector, hmake, hruns.runs, hmap, hvector, ?_⟩
  exact
    shows_maps hruns (hsim.pc_eq.trans hpc) hmap hvector hcell
      (Or.inr (hwait.getElem? hmap))

/-- Once the environment is running, the threads of the maps alone can always go on
until every map shows its picture, and none of them has to be woken up for that. -/
theorem draws_maps
    (h : RegularRun n s₀ es p)
    (hpc : p.server.environment.pc = .running) :
    ∃ p' b, ReachableBy step (fun _ e => e.Paints) p p' ∧
      p'.server = p.server.setBuffer b ∧
      ∀ (i : Nat) (map : Map) (vector : List Entity) (cell : Int × Int),
        p.server.environment.maps[i]? = some map →
          p.server.incommingEntities[i]? = some vector →
            map.config.Contains cell →
              Map.shownAt map.config b cell =
                some (Map.picture map.config vector cell) := by
  obtain ⟨s, _, _, hsim⟩ := h.simulates
  have hrunning := hpc
  rw [hsim.pc_eq] at hrunning
  obtain ⟨p', hreached, hsim', hwait⟩ :=
    hsim.exists_allWait hrunning
  have hserver : p'.server = p.server.setBuffer p'.server.environment.buffer := by
    rw [hsim.server, Server.setBuffer_setBuffer]
    exact hsim'.server
  refine ⟨p', _, hreached, hserver, fun i map vector cell hmap hvector hcell => ?_⟩
  have hmap' : p'.server.environment.maps[i]? = some map := by
    rw [hserver]
    exact hmap
  refine hsim'.shown ?_ hmap' ?_ hcell (Or.inr (hwait.getElem? hmap'))
  · rw [hsim'.pc_eq]
    exact hrunning
  · rw [hserver]
    exact hvector

/-- The thread of the only map of a server is started and draws the corner of it. -/
theorem draws_maps_one :
    ∃ s₀ s p es map vector, Server.make 1 = .ok s₀ ∧
      run step (start s₀) es = some (start s) ∧
      ReachableBy step (fun _ e => e.Paints) (start s) p ∧
      p.server.environment.maps[0]? = some map ∧
      p.server.incommingEntities[0]? = some vector ∧
      Map.shownAt map.config p.server.environment.buffer (0, 0) =
        some (Map.picture map.config vector (0, 0)) := by
  obtain ⟨s₀, hmake⟩ : ∃ s₀, Server.make 1 = .ok s₀ := ⟨_, rfl⟩
  obtain ⟨es, s, hruns, hsim, hpc, hlength⟩ :=
    exists_run_startup hmake ⟨by decide, by decide⟩
  obtain ⟨map, vector, hmap, hvector, hcell⟩ :=
    hsim.exists_first hpc hlength
  obtain ⟨p, b, hreached, hserver, hshown⟩ :=
    draws_maps hruns hpc
  refine ⟨s₀, s, p, es, map, vector, hmake, hruns.runs, hreached, ?_, ?_, ?_⟩
  · rw [hserver]
    exact hmap
  · rw [hserver]
    exact hvector
  · rw [hserver]
    exact hshown 0 map vector (0, 0) hmap hvector hcell

end Theorems

end ServerProcess

end SpeciesSimulator
