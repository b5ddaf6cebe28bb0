import SpeciesSimulator.ClientProcess
import SpeciesSimulator.MapPicture

/-!
# What a client shows

The map of a client has a buffer of its own.  `m_start` draws the entities into it,
the thread of the map draws the walls over them, and then, whenever it wakes up,
the entities again.

Main facts:
* `Draws.startUpMap`, `Draws.runMap`: what the thread of the map has drawn so far;
* `step_screenInv`: in every order of the threads of a client the screen is in line
  with the thread of the map;
* `client_draws`: so it shows the picture of the map that the client is given, as soon
  as the thread of the map has drawn it, and at all cells once this thread has gone
  round.
-/

namespace SpeciesSimulator

open ByteLayout Transition Message

/-- `start_up` of the map lies behind its thread. -/
def MapPc.startedUp : MapPc → Bool
  | .created => false
  | .startUp => false
  | .run => true
  | .wait _ => true
  | .update => true
  | .push _ _ => true
  | .returned => false

namespace Client

section Model

/-- What was drawn last: the entities by `m_start`, the walls over them by
`start_up`, or the entities over the walls. -/
inductive Drawing where
  | entities
  | walls
  | picture
deriving DecidableEq

/-- What is behind the entities. -/
def Drawing.behind (config : MapConfig) : Drawing → Int × Int → UInt16
  | .entities => fun _ => TSConsoleBuffer.blank
  | .walls => Map.walled config
  | .picture => Map.walled config

/-- The picture of a map is complete at a cell. -/
def Drawing.Completes
    (config : MapConfig) (es : List Entity) (cell : Int × Int) : Drawing → Prop
  | .entities => False
  | .walls => Map.gridOf es cell = none ∨ Map.wallAt config cell = none
  | .picture => True

/-- The map of a client is a map of the server at the left edge of the console, and
its buffer shows what was drawn last. -/
structure Draws (sm : ServerMap) (d : Drawing) (cm : ClientMap) : Prop where
  config : cm.map.config = { sm.config with x := 0 }
  settled : cm.map.Settled entitiesAddress sm.entities
  behind : cm.map.ShowsBehind (d.behind cm.map.config) cm.buffer
  front :
    ∀ cell, cm.map.config.Contains cell →
      (d = .walls → Map.wallAt cm.map.config cell = none) →
        Map.shownAt cm.map.config cm.buffer cell =
          some (Map.drawnOver cm.map.lookup (d.behind cm.map.config) cell)

end Model

section Drawing

variable {sm : ServerMap} {d : Drawing} {cm : ClientMap}
  {m' : Map} {b' : TSConsoleBuffer}

/-- Where the picture is complete, the buffer shows it. -/
theorem Draws.shown
    {cell : Int × Int}
    (h : Draws sm d cm)
    (hcell : cm.map.config.Contains cell)
    (hdrawn : d.Completes cm.map.config sm.entities cell) :
    Map.shownAt cm.map.config cm.buffer cell =
      some (Map.picture sm.config sm.entities cell) := by
  have hpicture :
      Map.picture sm.config sm.entities cell =
        Map.drawnOver cm.map.lookup (Map.walled cm.map.config) cell := by
    rw [h.settled.lookup, h.config]
    rfl
  rw [hpicture]
  cases d with
  | entities => exact hdrawn.elim
  | walls =>
      rcases hdrawn with hnone | hopen
      · rw [← h.settled.lookup] at hnone
        rw [h.behind.behind cell hcell hnone, Map.drawnOver, hnone]
        rfl
      · exact h.front cell hcell fun _ => hopen
  | picture => exact h.front cell hcell fun hwalls => by cases hwalls

/-- `start_up` draws the walls. -/
theorem Draws.startUp
    (h : Draws sm .entities cm)
    (hstart : cm.map.startUp cm.buffer = .ok b') :
    Draws sm .walls { cm with buffer := b' } := by
  have hwidth : 1 ≤ cm.map.config.width.toNat := by
    rw [h.config]
    exact sm.width_pos
  have hheight : 1 ≤ cm.map.config.height.toNat := by
    rw [h.config]
    exact sm.height_pos
  refine ⟨h.config, h.settled, h.behind.startUp hwidth hheight hstart, ?_⟩
  intro cell hcell hopen
  obtain ⟨b'', hstart', hshown⟩ :=
    Map.exists_startUp hwidth hheight h.behind.covers
  obtain rfl : b' = b'' := Except.ok.inj (hstart.symm.trans hstart')
  have hnone := hopen rfl
  have hfront := h.front cell hcell fun hwalls => by cases hwalls
  have hsame :
      Drawing.behind cm.map.config .walls cell =
        Drawing.behind cm.map.config .entities cell := by
    show Map.walled cm.map.config cell = TSConsoleBuffer.blank
    rw [Map.walled, hnone]
    rfl
  rw [hshown cell hcell, hnone, Option.none_or, hfront]
  simp only [Map.drawnOver, hsame]

/-- Updating the map draws the entities over the walls. -/
theorem Draws.updateEntities
    (h : Draws sm d cm)
    (hd : d ≠ .entities)
    (hupdate :
      cm.map.updateEntities entitiesAddress sm.entities cm.buffer =
        .ok (m', b')) :
    Draws sm .picture { cm with map := m', buffer := b' } := by
  obtain ⟨hplace, _⟩ := Map.updateEntities_eq_ok_iff.mp hupdate
  obtain rfl : cm.map = m' :=
    Except.ok.inj (h.settled.again.symm.trans hplace)
  have hinside : ∀ e ∈ sm.entities, e.Inside cm.map.config := by
    rw [h.config]
    exact sm.inside
  have hwalled : d.behind cm.map.config = Map.walled cm.map.config := by
    cases d with
    | entities => exact absurd rfl hd
    | walls => rfl
    | picture => rfl
  have hbefore := h.behind
  rw [hwalled] at hbefore
  obtain ⟨hbehind, hfront⟩ :=
    hbefore.updateEntities hinside (fun _ hnone => hnone) hupdate
  exact ⟨h.config, h.settled, hbehind, fun cell hcell _ => hfront cell hcell⟩

/-- The messages of the server draw the entities on a blank buffer. -/
theorem draws_of_process
    {c : Client} {flags flags' : StartFlags}
    {msgs : List (Message MessageType)}
    (hmsgs :
      Server.startupMessages sm.layout sm.config sm.entities = some msgs)
    (hprocess : Starting.process (make, flags) msgs = .ok (c, flags')) :
    ∃ cm, c.map = some cm ∧ Draws sm .entities cm := by
  obtain ⟨c₁, flags₁, cm, m₀, buffer, hprocess₁, hcm, hmake, hupdate, _⟩ :=
    exists_process_startupMessages sm flags hmsgs
  cases hprocess.symm.trans hprocess₁
  have hconfig : m₀.config = { sm.config with x := 0 } := by
    rw [← sm.clampTo_withStats]
    obtain ⟨_, _, hrest⟩ := exists_of_bind_ok hmake
    obtain ⟨map, hmap, hrest⟩ := exists_of_bind_ok hrest
    cases hrest
    exact (Map.frame_of_make hmap).1
  have hempty : ∀ cell, m₀.lookup cell = none := by
    obtain ⟨_, _, hrest⟩ := exists_of_bind_ok hmake
    obtain ⟨map, hmap, hrest⟩ := exists_of_bind_ok hrest
    cases hrest
    exact Map.lookup_of_make hmap
  have hinside : ∀ e ∈ sm.entities, e.Inside m₀.config := by
    rw [hconfig]
    exact sm.inside
  have hblank : m₀.ShowsBehind (fun _ => TSConsoleBuffer.blank) buffer := by
    refine Map.showsBehind_of_makeWithBuffer hmake ?_ ?_
    · rw [hconfig]
    · rw [hconfig]
      exact sm.y_eq
  obtain ⟨hbehind, hfront⟩ :=
    hblank.updateEntities hinside (fun cell _ => hempty cell) hupdate
  obtain ⟨hconfig', _⟩ := Map.lookup_of_updateEntities hinside hupdate
  exact ⟨cm, hcm,
    { config := hconfig'.trans hconfig
      settled := Map.settled_of_updateEntities hempty hinside hupdate
      behind := hbehind
      front := fun cell hcell _ => hfront cell hcell }⟩

end Drawing

end Client

namespace ClientProcess

section Screen

variable {flags : StartFlags} {challenge : UInt64} {sm : Client.ServerMap}
variable {msgs sent : List (Message MessageType)} {p p' : ClientProcess}

/-- What the thread of the map has drawn. -/
def drawing (p : ClientProcess) : Client.Drawing :=
  if p.rounds = 0 then
    if p.mapPc.startedUp then .walls else .entities
  else .picture

/-- The picture of a map is complete at a cell: everywhere since the thread of the map
has gone round once, and since `start_up` where no entity is in front of a wall. -/
def Drawn
    (p : ClientProcess) (config : MapConfig) (es : List Entity)
    (cell : Int × Int) : Prop :=
  p.rounds ≠ 0 ∨
    p.mapPc.startedUp = true ∧
      (Map.gridOf es cell = none ∨ Map.wallAt config cell = none)

theorem Drawn.completes
    {config : MapConfig} {es : List Entity} {cell : Int × Int}
    (h : p.Drawn config es cell) :
    p.drawing.Completes config es cell := by
  unfold drawing
  by_cases hnone : p.rounds = 0
  · rcases h with hround | ⟨hstarted, hopen⟩
    · exact absurd hnone hround
    · rw [if_pos hnone, if_pos hstarted]
      exact hopen
  · rw [if_neg hnone]
    trivial

/-- The thread of the map goes round behind `start_up` only. -/
def Early (p : ClientProcess) : Prop :=
  p.mapPc.startedUp = false → p.rounds = 0

/-- The buffer of the map shows what was drawn last. -/
def OnScreen (sm : Client.ServerMap) (p : ClientProcess) : Prop :=
  ∃ cm, p.starting.client.map = some cm ∧ Client.Draws sm p.drawing cm

/-- After start-up the buffer of the map shows what was drawn last. -/
def Screened (sm : Client.ServerMap) (p : ClientProcess) : Prop :=
  p.starting.client.startupOkay = true → OnScreen sm p

/-- A client process with its screen, whatever map it is sent. -/
structure ScreenInv (flags : StartFlags) (p : ClientProcess) : Prop where
  client : ClientInv flags p
  early : Early p
  screen :
    ∀ (challenge : UInt64) (sm : Client.ServerMap)
      (msgs sent : List (Message MessageType)),
      Serves sm msgs sent →
        p.connection.received <+: toBytes challenge ++ frames sent →
          Screened sm p

theorem Early.congr
    (h : Early p)
    (hrounds : p'.rounds = p.rounds)
    (hstarted : p'.mapPc.startedUp = false → p.mapPc.startedUp = false) :
    Early p' :=
  fun hnot => hrounds.trans (h (hstarted hnot))

theorem early_of_startedUp
    (hstarted : p.mapPc.startedUp = true) :
    Early p := by
  intro hnot
  rw [hstarted] at hnot
  cases hnot

theorem Early.settle
    {pc : MapPc} {result : Except Fault Client}
    (h : Early p)
    (hstarted : pc.startedUp = false → p.mapPc.startedUp = false) :
    Early (p.settle pc result) := by
  cases result with
  | ok client => exact h.congr rfl hstarted
  | error fault => exact h.congr rfl id

theorem Early.withVector
    {f : List Entity → MapPc}
    (h : Early p)
    (hf : ∀ vector, (f vector).startedUp = true) :
    Early (p.withVector f) := by
  unfold ClientProcess.withVector
  split
  · exact h.congr rfl id
  · split
    · exact h.congr rfl id
    · exact early_of_startedUp (hf _)

/-- A notification does not move the thread of the map. -/
theorem startedUp_notifyOne (pc : MapPc) :
    pc.notifyOne.startedUp = pc.startedUp := by
  cases pc with
  | wait customCond => rfl
  | created => rfl
  | startUp => rfl
  | run => rfl
  | update => rfl
  | push vector counted => rfl
  | returned => rfl

theorem Early.map
    {e : ClientEvent}
    (h : Early p)
    (hstep : MapStep p e p') :
    Early p' := by
  cases hstep with
  | startUp => exact h.settle fun hnot => by cases hnot
  | wait => exact early_of_startedUp rfl
  | wakeUp => exact early_of_startedUp rfl
  | waitEnd => exact early_of_startedUp rfl
  | updateEntities hpc =>
      refine Early.settle (early_of_startedUp ?_) fun hnot => by cases hnot
      show p.mapPc.startedUp = true
      rw [hpc]
      rfl
  | getVector => exact h.withVector fun _ => rfl
  | getSize => exact h.withVector fun _ => rfl
  | send =>
      unfold ClientProcess.send
      split
      · exact h.congr rfl id
      · split
        · exact h.congr rfl id
        · exact early_of_startedUp rfl

theorem Early.step
    {e : ClientEvent}
    (h : Early p)
    (hstep : p.step e = some p') :
    Early p' := by
  cases (step_cases hstep).2 with
  | @io e c u hio =>
      cases u with
      | none => exact h.congr rfl id
      | incoming msg => exact h.congr rfl id
      | validated => exact h.congr rfl id
  | iterate => exact h.congr rfl id
  | startMap hpc hokay =>
      refine h.congr rfl fun _ => ?_
      rw [hpc]
      rfl
  | update hpc hupdate =>
      unfold ClientProcess.update at hupdate
      split at hupdate
      · cases hupdate
      · cases hupdate
        refine Early.settle (h.congr rfl id) fun hnot => ?_
        split at hnot
        · rwa [startedUp_notifyOne] at hnot
        · exact hnot
  | map hmap => exact h.map hmap

/-- The thread of the map comes to a statement where nothing else is drawn. -/
theorem OnScreen.move
    (h : OnScreen sm p)
    (hmap : p'.starting.client.map = p.starting.client.map)
    (hrounds : p'.rounds = p.rounds)
    (hstarted : p'.mapPc.startedUp = p.mapPc.startedUp) :
    OnScreen sm p' := by
  obtain ⟨cm, hcm, hdraws⟩ := h
  refine ⟨cm, hmap.trans hcm, ?_⟩
  unfold drawing at hdraws ⊢
  rw [hrounds, hstarted]
  exact hdraws

/-- `m_start` leaves the map to its thread. -/
theorem drawing_early
    (hrounds : p.rounds = 0)
    (hstarted : p.mapPc.startedUp = false) :
    p.drawing = .entities := by
  simp [drawing, hrounds, hstarted]

/-- An iteration that completes start-up has processed all messages. -/
theorem screened_iterate
    {connected : Bool} {starting : Starting}
    (h : View flags challenge sm msgs sent p)
    (hserves : Serves sm msgs sent)
    (hearly : Early p)
    (hstep : p.starting.step (.iterate connected) = some starting) :
    Screened sm { p with starting := starting } := by
  intro hokay
  have hafter := h.iterate hserves hstep
  cases h.progress with
  | playing hplays =>
      simp [Starting.step, hplays.replica.okay] at hstep
  | starting hnot hpc hsends hprocessed =>
      have hrun : run Starting.step p.starting [.iterate connected] = some starting :=
        (run_singleton _ _).trans hstep
      have hprocessed' := Starting.run_processed hprocessed hrun
      obtain ⟨done, hsplit, hdone⟩ := hprocessed'.split
      cases hafter.progress with
      | starting hnot' =>
          rw [hokay] at hnot'
          cases hnot'
      | playing hplays hincoming hdelivered =>
          have hall : done = msgs := by
            have hnil : starting.incoming = [] := hincoming
            rw [hnil, List.append_nil] at hsplit
            rw [← hsplit, ← hdelivered]
            exact List.append_nil _
          have hfault : starting.fault = none := hafter.fault
          rw [hall, hfault] at hdone
          have hstarted : p.mapPc.startedUp = false := by
            rw [hpc]
            rfl
          have hdrawing :
              ({ p with starting := starting } : ClientProcess).drawing =
                .entities :=
            drawing_early (hearly hstarted) hstarted
          obtain ⟨cm, hcm, hdraws⟩ :=
            Client.draws_of_process hserves.startup hdone
          refine ⟨cm, hcm, ?_⟩
          rw [hdrawing]
          exact hdraws

/-- A step of the thread of the map. -/
theorem screened_map
    {e : ClientEvent}
    (h : View flags challenge sm msgs sent p)
    (hearly : Early p)
    (hscreen : Screened sm p)
    (hstep : MapStep p e p') :
    Screened sm p' := by
  intro _
  have hplays (hpc : p.mapPc ≠ .created) : p.starting.client.Plays sm :=
    (h.plays hpc).1
  have hdrawn (hpc : p.mapPc ≠ .created) : OnScreen sm p :=
    hscreen (hplays hpc).replica.okay
  cases hstep with
  | startUp hpc =>
      obtain ⟨cm, hcm, hdraws⟩ := hdrawn (by simp [hpc])
      obtain ⟨c', hstart, _⟩ := (hplays (by simp [hpc])).startUpMap
      rw [hstart]
      simp only [Client.startUpMap, Client.onMap, hcm] at hstart
      obtain ⟨cm', hcm', hrest⟩ := exists_of_bind_ok hstart
      obtain ⟨b', hbuffer, hcm'⟩ := exists_of_bind_ok hcm'
      cases hcm'
      cases hrest
      have hstarted : p.mapPc.startedUp = false := by
        rw [hpc]
        rfl
      have hrounds := hearly hstarted
      rw [drawing_early hrounds hstarted] at hdraws
      refine ⟨_, rfl, ?_⟩
      simp only [drawing, settle, hrounds, MapPc.startedUp, if_true]
      exact hdraws.startUp hbuffer
  | wait hpc =>
      exact (hdrawn (by simp [hpc])).move rfl rfl (by rw [hpc]; rfl)
  | wakeUp hpc =>
      exact (hdrawn (by simp [hpc])).move rfl rfl (by rw [hpc]; rfl)
  | waitEnd hpc =>
      exact (hdrawn (by simp [hpc])).move rfl rfl (by rw [hpc]; rfl)
  | updateEntities hpc =>
      obtain ⟨cm, hcm, hdraws⟩ := hdrawn (by simp [hpc])
      obtain ⟨b', hupdate, hrun, _⟩ := (hplays (by simp [hpc])).runMap hcm
      rw [hrun]
      have hwalls : p.drawing ≠ .entities := by
        simp only [drawing, hpc, MapPc.startedUp, if_true]
        split
        · simp
        · simp
      refine ⟨_, rfl, ?_⟩
      simp only [drawing, settle, Nat.add_one_ne_zero, if_false]
      exact hdraws.updateEntities hwalls hupdate
  | @getVector counted hpc =>
      rw [withVector_of_plays _ (hplays (by simp [hpc]))]
      exact (hdrawn (by simp [hpc])).move rfl rfl (by rw [hpc]; rfl)
  | @getSize vector hpc =>
      rw [withVector_of_plays _ (hplays (by simp [hpc]))]
      exact (hdrawn (by simp [hpc])).move rfl rfl (by rw [hpc]; rfl)
  | @send vector counted hpc =>
      obtain ⟨cm, hcm, hdraws⟩ := hdrawn (by simp [hpc])
      unfold ClientProcess.send
      rw [hcm]
      dsimp only
      split
      · exact ⟨cm, hcm, hdraws⟩
      · refine ⟨_, rfl, ?_⟩
        simp only [drawing, hpc, MapPc.startedUp, if_true] at hdraws ⊢
        exact { hdraws with }

/-- Every step of a client process keeps its screen in line with its thread. -/
theorem step_screenInv
    (p : ClientProcess) (e : ClientEvent) (p' : ClientProcess)
    (h : ScreenInv flags p)
    (hconnects : Connects p e)
    (hstep : p.step e = some p') :
    ScreenInv flags p' := by
  refine
    ⟨step_clientInv p e p' h.client hconnects hstep, h.early.step hstep, ?_⟩
  intro challenge sm msgs sent hserves hpre
  have hbefore : p.connection.received <+: toBytes challenge ++ frames sent :=
    (step_grows p e p' hstep).2.trans hpre
  have hview := h.client.view challenge sm msgs sent hserves hbefore
  have hscreen := h.screen challenge sm msgs sent hserves hbefore
  cases (step_cases hstep).2 with
  | @io e c u hio =>
      cases u with
      | none => exact hscreen
      | incoming msg => exact hscreen
      | validated => exact hscreen
  | iterate hiterate =>
      exact screened_iterate hview hserves h.early hiterate
  | startMap hpc hokay =>
      intro _
      obtain ⟨cm, hcm, hdraws⟩ := hscreen hokay
      have hsome : p.starting.client.map.isSome = true := by
        rw [hcm]
        rfl
      refine OnScreen.move ⟨cm, hcm, hdraws⟩ rfl rfl ?_
      simp only [hsome, if_true, hpc]
      rfl
  | update hpc hupdate =>
      -- there is no message that `on_message` could be called for
      obtain ⟨_, hincoming, _⟩ := hview.plays hpc
      simp [ClientProcess.update, hincoming] at hupdate
  | map hmap => exact screened_map hview h.early hscreen hmap

/-- A client that has not started up yet shows nothing. -/
theorem screenInv_start (flags : StartFlags) :
    ScreenInv (Starting.start flags).flags (start flags) := by
  refine ⟨clientInv_start flags, fun _ => rfl, ?_⟩
  intro challenge sm msgs sent _ _ hokay
  cases hokay

theorem run_screenInv
    {flags : StartFlags} {es : List ClientEvent}
    (hconnects : Meets step Connects (start flags) es)
    (hrun : run step (start flags) es = some p) :
    ScreenInv (Starting.start flags).flags p :=
  run_invariant step_screenInv (screenInv_start flags) hconnects hrun

/-- A client that is given a challenge and start-up messages of a map, in every order
of its three threads: after its start-up the buffer of its map shows the picture of the
map that it is given, at the left edge of the console; where no entity is in front of a
wall it does so as soon as `start_up` has drawn the walls, and at all cells, for ever,
as soon as the thread of the map has gone round once. -/
theorem client_draws
    {flags : StartFlags} {es : List ClientEvent}
    (hconnects : Meets step Connects (start flags) es)
    (hrun : run step (start flags) es = some p)
    (hmsgs :
      Server.startupMessages sm.layout sm.config sm.entities = some msgs)
    (hsent : sent <+: msgs)
    (hgiven : p.connection.received <+: toBytes challenge ++ frames sent)
    (hokay : p.starting.client.startupOkay = true) :
    ∃ cm, p.starting.client.map = some cm ∧
      cm.map.config = { sm.config with x := 0 } ∧
      ∀ cell, sm.config.Contains cell → p.Drawn sm.config sm.entities cell →
        Map.shownAt cm.map.config cm.buffer cell =
          some (Map.picture sm.config sm.entities cell) := by
  obtain ⟨cm, hcm, hdraws⟩ :=
    (run_screenInv hconnects hrun).screen challenge sm msgs sent
      ⟨hmsgs, hsent⟩ hgiven hokay
  refine ⟨cm, hcm, hdraws.config, fun cell hcell hdrawn => ?_⟩
  refine hdraws.shown ?_ ?_
  · rw [hdraws.config]
    exact hcell
  · rw [hdraws.config]
    exact hdrawn.completes

/-- The small map is drawn when the thread of the map has gone round once. -/
theorem client_draws_standing :
    ∃ p cm, run step (start ⟨true, false, true, true⟩) standingRun = some p ∧
      p.starting.client.map = some cm ∧
      Map.shownAt cm.map.config cm.buffer (1, 0) =
        some
          (Map.picture Client.standingMap.config Client.standingMap.entities
            (1, 0)) := by
  have hrun :
      run step (start ⟨true, false, true, true⟩) standingRun = some _ := rfl
  obtain ⟨cm, hcm, _, hshown⟩ :=
    @client_draws 1 Client.standingMap Client.standingMessages
      Client.standingMessages _ _ _ meets_standingRun hrun rfl List.prefix_rfl
      List.prefix_rfl rfl
  exact ⟨_, cm, hrun, hcm,
    hshown (1, 0) (by decide) (Or.inl Nat.one_ne_zero)⟩

end Screen

end ClientProcess

end SpeciesSimulator
