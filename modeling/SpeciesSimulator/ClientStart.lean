import SpeciesSimulator.Client
import SpeciesSimulator.NetFraming
import SpeciesSimulator.ServerMessages

/-!
# Start-up of a client

What `m_start` does with the messages that come in is a fold over them: in
whatever order messages come in and iterations go round, the state is that of
the fold over the messages processed so far, and the rest is in the queue
(`run_processed`).  Once all messages are there, as many more iterations as
messages are left in the queue bring the loop to its end (`run_drain`).

For the messages that the server sends to a client, the fold ends with a
replica of the server's map.

Main fact: `start_replicates`, a client whose reader decoded the messages of
the server leaves `m_start` with the layout, the configuration, the entities
and the grid of the server's map.
-/

namespace SpeciesSimulator

open ByteLayout Transition Message

namespace Starting

section Loop

/-- What the loop makes of a list of messages. -/
def process (s : Client × StartFlags) (msgs : List (Message MessageType)) :
    Except Fault (Client × StartFlags) :=
  msgs.foldlM Client.startMessage s

/-- The loop has processed `done` and has the rest of the messages left. -/
structure Processed
    (s₀ : Client × StartFlags) (msgs : List (Message MessageType))
    (s : Starting) : Prop where
  split :
    ∃ done, msgs = done ++ s.incoming ∧
      process s₀ done =
        match s.fault with
        | none => .ok (s.client, s.flags)
        | some fault => .error fault

theorem process_snoc
    {s₀ s : Client × StartFlags} {done : List (Message MessageType)}
    (h : process s₀ done = .ok s)
    (msg : Message MessageType) :
    process s₀ (done ++ [msg]) = Client.startMessage s msg := by
  unfold process at h ⊢
  rw [List.foldlM_append, h, bind_ok, List.foldlM_cons]
  exact bind_pure _

/-- One message after the other. -/
theorem process_cons
    {s s₁ s₂ : Client × StartFlags} {msg : Message MessageType}
    {msgs : List (Message MessageType)}
    (hmsg : Client.startMessage s msg = .ok s₁)
    (hrest : process s₁ msgs = .ok s₂) :
    process s (msg :: msgs) = .ok s₂ := by
  unfold process at hrest ⊢
  rw [List.foldlM_cons, hmsg, bind_ok, hrest]

/-- The messages that are no longer in the queue are related to what the loop
has made of them. -/
def Took
    (R : List (Message MessageType) → Client → StartFlags → Option Fault → Prop)
    (msgs : List (Message MessageType)) (s : Starting) : Prop :=
  ∃ done, msgs = done ++ s.incoming ∧ R done s.client s.flags s.fault

section Took

variable
  {R : List (Message MessageType) → Client → StartFlags → Option Fault → Prop}
variable {msgs : List (Message MessageType)} {s s' : Starting}

/-- A message that comes in goes to the end of the queue. -/
theorem took_push
    (h : Took R msgs s)
    (msg : Message MessageType) :
    Took R (msgs ++ [msg]) { s with incoming := s.incoming ++ [msg] } := by
  obtain ⟨done, hmsgs, hdone⟩ := h
  refine ⟨done, ?_, hdone⟩
  rw [hmsgs, List.append_assoc]

variable
  (hmsg :
    ∀ done client flags msg,
      client.startupOkay = false → R done client flags none →
        match Client.startMessage (client, flags) msg with
        | .ok (client', flags') => R (done ++ [msg]) client' flags' none
        | .error fault => R (done ++ [msg]) client flags (some fault))

include hmsg

/-- An iteration processes the front message, if it does anything. -/
theorem took_iterate
    {connected : Bool}
    (h : Took R msgs s)
    (hstep : s.step (.iterate connected) = some s') :
    Took R msgs s' := by
  simp only [step] at hstep
  split at hstep
  · cases hstep
  · next hguard =>
    simp only [not_or, Bool.not_eq_true, Option.isSome_eq_false_iff,
      Option.isNone_iff_eq_none] at hguard
    obtain ⟨hokay, hfault⟩ := hguard
    split at hstep
    · split at hstep
      · cases hstep
        exact h
      · next msg rest hincoming =>
        obtain ⟨done, hmsgs, hdone⟩ := h
        rw [hincoming] at hmsgs
        rw [hfault] at hdone
        have hnext := hmsg done s.client s.flags msg hokay hdone
        have hmsgs' : msgs = (done ++ [msg]) ++ rest := by
          simpa using hmsgs
        split at hstep
        · next client flags hstart =>
          cases hstep
          rw [hstart] at hnext
          refine ⟨done ++ [msg], hmsgs', ?_⟩
          simpa only [hfault] using hnext
        · next fault hstart =>
          cases hstep
          rw [hstart] at hnext
          exact ⟨done ++ [msg], hmsgs', hnext⟩
    · cases hstep
      exact h

/-- What one message keeps, the loop keeps. -/
theorem run_took
    {es : List StartEvent}
    (h : Took R msgs s)
    (hrun : run step s es = some s') :
    Took R (msgs ++ arrivals es) s' := by
  induction es generalizing s msgs with
  | nil =>
      simp only [run_nil, Option.some.injEq] at hrun
      subst hrun
      simpa [arrivals] using h
  | cons e es ih =>
      obtain ⟨s₁, hstep, htail⟩ := run_cons_some hrun
      cases e with
      | push msg =>
          cases hstep
          have h₁ := ih (took_push h msg) htail
          simpa [arrivals] using h₁
      | iterate connected =>
          have h₁ := ih (took_iterate hmsg h hstep) htail
          simpa [arrivals] using h₁

end Took

/-- Every run of the loop is a fold over the messages that came in. -/
theorem run_processed
    {s₀ : Client × StartFlags} {msgs : List (Message MessageType)}
    {s s' : Starting} {es : List StartEvent}
    (h : Processed s₀ msgs s)
    (hrun : run step s es = some s') :
    Processed s₀ (msgs ++ arrivals es) s' := by
  refine ⟨run_took (s := s) (R := fun done client flags fault =>
    process s₀ done =
      match fault with
      | none => .ok (client, flags)
      | some fault => .error fault) ?_ h.split hrun⟩
  intro done client flags msg _ hdone
  have hsnoc := process_snoc hdone msg
  split
  · next hmsg => rw [hsnoc, hmsg]
  · next hmsg => rw [hsnoc, hmsg]

/-- Only `Send_Entities` can complete start-up. -/
theorem startMessage_startupOkay
    {c c' : Client} {flags flags' : StartFlags}
    {msg : Message MessageType}
    (hid : msg.header.id ≠ .sendEntities)
    (h : Client.startMessage (c, flags) msg = .ok (c', flags')) :
    c'.startupOkay = c.startupOkay := by
  simp only [Client.startMessage] at h
  split at h
  · obtain ⟨c₁, hc₁, hpure⟩ := exists_of_bind_ok h
    obtain ⟨⟨layout, msg'⟩, _, hlayout⟩ := exists_of_bind_ok hc₁
    cases hlayout
    cases hpure
    rfl
  · obtain ⟨c₁, hc₁, hpure⟩ := exists_of_bind_ok h
    obtain ⟨⟨config, msg'⟩, _, hconfig⟩ := exists_of_bind_ok hc₁
    obtain ⟨map, _, hmap⟩ := exists_of_bind_ok hconfig
    cases hmap
    cases hpure
    rfl
  · obtain ⟨c₁, hc₁, hpure⟩ := exists_of_bind_ok h
    obtain ⟨⟨size, msg'⟩, _, hsize⟩ := exists_of_bind_ok hc₁
    obtain ⟨entities, _, hentities⟩ := exists_of_bind_ok hsize
    obtain ⟨entBuffer, _, hbuffer⟩ := exists_of_bind_ok hentities
    cases hbuffer
    cases hpure
    rfl
  · next hent => exact absurd hent hid
  · cases h
    rfl

theorem process_append
    {s s₂ : Client × StartFlags}
    {done rest : List (Message MessageType)}
    (h : process s (done ++ rest) = .ok s₂) :
    ∃ s₁, process s done = .ok s₁ ∧ process s₁ rest = .ok s₂ := by
  unfold process at h
  rw [List.foldlM_append] at h
  exact exists_of_bind_ok h

theorem process_startupOkay
    {s s' : Client × StartFlags} {msgs : List (Message MessageType)}
    (hids : ∀ msg ∈ msgs, msg.header.id ≠ .sendEntities)
    (h : process s msgs = .ok s') :
    s'.1.startupOkay = s.1.startupOkay := by
  induction msgs generalizing s with
  | nil =>
      cases h
      rfl
  | cons msg msgs ih =>
      unfold process at h
      rw [List.foldlM_cons] at h
      obtain ⟨s₁, hmsg, hrest⟩ := exists_of_bind_ok h
      have htail := ih (fun m hm => hids m (List.mem_cons_of_mem _ hm)) hrest
      exact htail.trans (startMessage_startupOkay (hids msg (by simp)) hmsg)

/-- As long as only the last message can complete start-up, each iteration on
a live connection takes one message off the queue. -/
theorem run_drain
    {s : Starting} {c : Client} {flags : StartFlags}
    (hfault : s.fault = none)
    (hokay : s.incoming ≠ [] → s.client.startupOkay = false)
    (hids : ∀ msg ∈ s.incoming.dropLast, msg.header.id ≠ .sendEntities)
    (hfold : process (s.client, s.flags) s.incoming = .ok (c, flags)) :
    run step s (List.replicate s.incoming.length (.iterate true)) =
      some { s with client := c, flags := flags, incoming := [] } := by
  generalize hincoming : s.incoming = rest at hokay hids hfold ⊢
  induction rest generalizing s with
  | nil =>
      obtain ⟨client, flags', incoming, fault⟩ := s
      cases hincoming
      cases hfold
      rfl
  | cons msg rest ih =>
      have hokay' : s.client.startupOkay = false := hokay (by simp)
      unfold process at hfold
      rw [List.foldlM_cons] at hfold
      obtain ⟨⟨c₁, flags₁⟩, hmsg, hrest⟩ := exists_of_bind_ok hfold
      have hstep :
          s.step (.iterate true) =
            some
              { s with
                client := c₁
                flags := flags₁
                incoming := rest } := by
        simp [step, hokay', hfault, hincoming, hmsg]
      rw [List.length_cons, List.replicate_succ, run_cons_of_step hstep]
      refine ih hfault rfl ?_ ?_ hrest
      · intro hne
        have hid : msg.header.id ≠ .sendEntities :=
          hids msg (by rw [List.dropLast_cons_of_ne_nil hne]; simp)
        exact (startMessage_startupOkay hid hmsg).trans hokay'
      · intro m hm
        refine hids m ?_
        cases rest with
        | nil => cases hm
        | cons next rest => exact List.mem_cons_of_mem _ hm

end Loop

end Starting

namespace Client

section Replica

/-- The layout of the console with space for stats. -/
def withStats (layout : WinConsoleLayout) : WinConsoleLayout :=
  { layout with nScreenHeight := layout.nScreenHeight + 5 }

/-- The server's map, its layout and the entities on it. -/
structure ServerMap where
  layout : WinConsoleLayout
  config : MapConfig
  entities : List Entity
  width_pos : 0 < config.width.toNat
  height_pos : 0 < config.height.toNat
  area_lt : config.width.toNat * config.height.toNat < 2 ^ 31
  height_le : config.height.toNat ≤ 65530
  y_eq : config.y = 0
  layout_width : layout.nScreenWidth = config.width
  layout_height : layout.nScreenHeight = config.height
  inside : ∀ e ∈ entities, e.Inside config
  bytes_lt : byteSize Entity * entities.length + 8 < 2 ^ 32

/-- The client shows the server's map: in a larger console, at its left upper
corner, and as an empty map of its size after `update_entities`. -/
structure Replicates (c : Client) (sm : ServerMap) : Prop where
  okay : c.startupOkay = true
  layout : c.consoleLayout = withStats sm.layout
  height :
    c.consoleLayout.nScreenHeight.toNat = sm.layout.nScreenHeight.toNat + 5
  config : c.mapConfig = sm.config
  entities : c.entities = sm.entities
  map :
    ∃ (cm : ClientMap) (m₀ : Map) (buffer buffer' : TSConsoleBuffer),
      c.map = some cm ∧
      cm.map.config.x = 0 ∧
      cm.map.config.y = 0 ∧
      m₀.config.width = sm.config.width ∧
      m₀.config.height = sm.config.height ∧
      m₀.entitiesInternalMap =
        List.replicate
          (sm.config.width.toNat * sm.config.height.toNat) none ∧
      m₀.updateEntities entitiesAddress sm.entities buffer =
        .ok (cm.map, buffer')

variable (sm : ServerMap)

theorem ServerMap.length_lt :
    sm.entities.length < 2 ^ 27 := by
  have h := sm.bytes_lt
  have hsize : byteSize Entity = 32 := rfl
  rw [hsize] at h
  omega

theorem ServerMap.withStats_height :
    (withStats sm.layout).nScreenHeight.toNat =
      sm.layout.nScreenHeight.toNat + 5 := by
  have h := sm.height_le
  rw [← sm.layout_height] at h
  simp only [withStats, UInt16.toNat_add, UInt16.reduceToNat]
  omega

/-- The constructor moves the map to the left edge of the console. -/
theorem ServerMap.clampTo_withStats :
    sm.config.clampTo (withStats sm.layout) = { sm.config with x := 0 } := by
  have hheight := sm.withStats_height
  rw [sm.layout_height] at hheight
  have hwidth : (withStats sm.layout).nScreenWidth = sm.config.width :=
    sm.layout_width
  have hy : sm.config.y.toNat = 0 := by
    rw [sm.y_eq]
    rfl
  have hfits :
      ¬ (withStats sm.layout).nScreenHeight.toNat <
        sm.config.height.toNat + sm.config.y.toNat := by
    omega
  have hfirst :
      (if sm.config.width.toNat < sm.config.width.toNat + sm.config.x.toNat then
        { sm.config with x := sm.config.width - sm.config.width }
      else sm.config) = { sm.config with x := 0 } := by
    by_cases hx : sm.config.x.toNat = 0
    · have hzero : sm.config.x = 0 := UInt16.toNat_inj.mp hx
      rw [if_neg (by omega), ← hzero]
    · rw [if_pos (by omega), UInt16.sub_self]
  simp only [MapConfig.clampTo, hwidth]
  rw [hfirst]
  exact if_neg hfits

theorem startMessage_accept (s : Client × StartFlags) :
    startMessage s Server.acceptMessage = .ok s := by
  rfl

theorem startMessage_layout
    (c : Client) (flags : StartFlags) (layout : WinConsoleLayout) :
    startMessage (c, flags) (Server.layoutMessage layout) =
      .ok
        ({ c with
            consoleLayout := withStats layout
            console := ⟨withStats layout⟩ },
          { flags with gotConsole := true }) := by
  have hextract :
      (Server.layoutMessage layout).extract WinConsoleLayout =
        some (layout, (Server.layoutMessage layout).setBody []) :=
    extract_of_body_eq rfl
  have hlayout :
      c.onConsoleLayout (Server.layoutMessage layout) =
        .ok
          { c with
            consoleLayout := withStats layout
            console := ⟨withStats layout⟩ } := by
    simp only [onConsoleLayout, hextract, orWild, bind_ok, pure_eq_ok]
    rfl
  show (c.onConsoleLayout (Server.layoutMessage layout) >>= _) = _
  rw [hlayout, bind_ok]
  rfl

theorem startMessage_config
    {c : Client} {config : MapConfig} {cm : ClientMap}
    (flags : StartFlags)
    (hmake : ClientMap.make c.console config entitiesAddress = .ok cm) :
    startMessage (c, flags) (Server.configMessage config) =
      .ok
        ({ c with mapConfig := config, map := some cm },
          { flags with gotMap := true }) := by
  have hextract :
      (Server.configMessage config).extract MapConfig =
        some (config, (Server.configMessage config).setBody []) :=
    extract_of_body_eq rfl
  have hconfig :
      c.onMapLayout (Server.configMessage config) =
        .ok { c with mapConfig := config, map := some cm } := by
    simp only [onMapLayout, hextract, orWild, hmake, bind_ok, pure_eq_ok]
  show (c.onMapLayout (Server.configMessage config) >>= _) = _
  rw [hconfig, bind_ok]
  rfl

theorem startMessage_entitiesSize
    (c : Client) (flags : StartFlags) {size : UInt64}
    (hsize : helperSize * size.toNat < 2 ^ 63) :
    startMessage (c, flags) (Server.entitiesSizeMessage size) =
      .ok
        ({ c with
            nentitiesSize := size
            entities := c.entities.takeD size.toNat default
            entBuffer := c.entBuffer.takeD size.toNat default },
          { flags with gotEntitiesSize := true }) := by
  have hextract :
      (Server.entitiesSizeMessage size).extract UInt64 =
        some (size, (Server.entitiesSizeMessage size).setBody []) :=
    extract_of_body_eq rfl
  have hresized :
      c.onEntitiesSize (Server.entitiesSizeMessage size) =
        .ok
          { c with
            nentitiesSize := size
            entities := c.entities.takeD size.toNat default
            entBuffer := c.entBuffer.takeD size.toNat default } := by
    have hbuffer : byteSize Entity * size.toNat < 2 ^ 63 :=
      lt_of_le_of_lt (Nat.mul_le_mul_right _ (by decide)) hsize
    simp only [onEntitiesSize, hextract, orWild, resize, hsize, hbuffer,
      if_true, bind_ok, pure_eq_ok]
  show (c.onEntitiesSize (Server.entitiesSizeMessage size) >>= _) = _
  rw [hresized, bind_ok]
  rfl

/-- The entities come off the body, the announced number stays under them. -/
theorem pullEntities_of_body_eq
    {c : Client} {msg : Message MessageType} {under : List UInt8}
    {es : List Entity}
    (hbody : msg.body = under ++ serialize es)
    (hsize : c.nentitiesSize.toNat = es.length)
    (hroom : c.entBuffer.length = es.length)
    (hlen : es.length < 2 ^ 32) :
    c.pullEntities msg = .ok { c with entBuffer := es, entities := es } := by
  have hlt : byteSize Entity * es.length < 2 ^ 64 := by
    have hsize : byteSize Entity = 32 := rfl
    rw [hsize]
    omega
  have hpull :
      msg.pullComplex Entity c.nentitiesSize.toNat =
        some (es, msg.setBody under) := by
    rw [hsize]
    exact pullComplex_of_body_eq hbody hlt
  have hdrop : c.entBuffer.drop es.length = [] := by
    rw [← hroom, List.drop_length]
  simp only [pullEntities, hpull, orWild, bind_ok, pure_eq_ok]
  rw [if_pos (le_of_eq hroom.symm), hdrop, List.append_nil, if_pos hlen]

/-- The entities that are pulled are written over the first ones of the
buffer. -/
theorem exists_of_pullEntities
    {c c' : Client} {msg : Message MessageType}
    (h : c.pullEntities msg = .ok c') :
    ∃ es, es.length = c.entBuffer.length ∧
      c' = { c with entBuffer := es, entities := es } := by
  obtain ⟨⟨pulled, msg'⟩, _, hwrite⟩ := exists_of_bind_ok h
  dsimp only at hwrite
  split at hwrite
  · rename_i hle
    split at hwrite
    · cases hwrite
      refine ⟨_, ?_, rfl⟩
      rw [List.length_append, List.length_drop]
      omega
    · cases hwrite
  · cases hwrite

theorem updateMap_of_eq
    {c : Client} {cm : ClientMap} {m' : Map} {buffer' : TSConsoleBuffer}
    (hmap : c.map = some cm)
    (hupdate :
      cm.map.updateEntities entitiesAddress c.entities cm.buffer =
        .ok (m', buffer')) :
    c.updateMap =
      .ok { c with map := some { cm with map := m', buffer := buffer' } } := by
  have hwrapped := Map.updateEntitiesWrapped_of_updateEntities hupdate
  simp only [updateMap, hmap, hwrapped, bind_ok, pure_eq_ok]

/-- The message that carries the entities. -/
theorem startMessage_entities
    {c : Client} {flags : StartFlags} {msg : Message MessageType}
    {cm : ClientMap} {m' : Map} {buffer' : TSConsoleBuffer}
    {under : List UInt8} {es : List Entity}
    (hflags : flags.gotConsole ∧ flags.gotMap ∧ flags.gotEntitiesSize)
    (hid : msg.header.id = .sendEntities)
    (hbody : msg.body = under ++ serialize es)
    (hsize : c.nentitiesSize.toNat = es.length)
    (hroom : c.entBuffer.length = es.length)
    (hlen : es.length < 2 ^ 32)
    (hmap : c.map = some cm)
    (hupdate :
      cm.map.updateEntities entitiesAddress es cm.buffer =
        .ok (m', buffer')) :
    startMessage (c, flags) msg =
      .ok
        ({ c with
            startupOkay := true
            entBuffer := es
            entities := es
            map := some { cm with map := m', buffer := buffer' } },
          { flags with gotEntities := true }) := by
  have hpull := pullEntities_of_body_eq hbody hsize hroom hlen
  have hshow :
      ({ c with entBuffer := es, entities := es }).updateMap =
        .ok
          { c with
            entBuffer := es
            entities := es
            map := some { cm with map := m', buffer := buffer' } } :=
    updateMap_of_eq hmap hupdate
  simp only [startMessage, hid, hpull, hshow, bind_ok]
  rw [if_pos ⟨hflags.1, hflags.2.1, hflags.2.2, trivial⟩]
  rfl

/-- The messages of the server make a map and update it. -/
theorem exists_process_startupMessages
    (flags : StartFlags) {msgs : List (Message MessageType)}
    (hmsgs :
      Server.startupMessages sm.layout sm.config sm.entities = some msgs) :
    ∃ (c : Client) (flags' : StartFlags) (cm : ClientMap) (m₀ : Map)
      (buffer : TSConsoleBuffer),
      Starting.process (make, flags) msgs = .ok (c, flags') ∧
      c.map = some cm ∧
      Map.makeWithBuffer ⟨withStats sm.layout⟩ sm.config
          (some entitiesAddress) = .ok (m₀, buffer) ∧
      m₀.updateEntities entitiesAddress sm.entities buffer =
        .ok (cm.map, cm.buffer) ∧
      c.Replicates sm := by
  have hlen := sm.length_lt
  have hn : (UInt64.ofNat sm.entities.length).toNat = sm.entities.length :=
    UInt64.toNat_ofNat_of_lt' (lt_of_lt_of_le hlen (by decide))
  have hentry : helperSize = 40 := rfl
  obtain ⟨m₀, buffer, hmake, hsized, hconfig, hgrid⟩ :=
    Map.exists_makeWithBuffer ⟨withStats sm.layout⟩ (some entitiesAddress)
      sm.area_lt
  rw [sm.clampTo_withStats] at hconfig
  have hinside : ∀ e ∈ sm.entities, e.Inside m₀.config := by
    rw [hconfig]
    exact sm.inside
  obtain ⟨m', buffer', hupdate, hconfig', _⟩ :=
    Map.updateEntities_refines entitiesAddress hsized hinside (by omega)
  have hcm :
      ClientMap.make ⟨withStats sm.layout⟩ sm.config entitiesAddress =
        .ok ⟨m₀, buffer, Message.fresh.setId .sendEntities⟩ := by
    simp only [ClientMap.make, hmake, bind_ok, pure_eq_ok]
  obtain ⟨sizeMsg, entMsg, rfl, rfl, rfl⟩ :=
    Server.startupMessages_eq hmsgs
  refine
    ⟨{ startupOkay := true
       consoleLayout := withStats sm.layout
       console := ⟨withStats sm.layout⟩
       mapConfig := sm.config
       map := some ⟨m', buffer', Message.fresh.setId .sendEntities⟩
       entBuffer := sm.entities
       nentitiesSize := UInt64.ofNat sm.entities.length
       entities := sm.entities }, ⟨true, true, true, true⟩, _, m₀, buffer, ?_,
      rfl, hmake, hupdate, ?_⟩
  · refine Starting.process_cons (startMessage_accept _) ?_
    refine Starting.process_cons (startMessage_layout _ _ _) ?_
    refine Starting.process_cons (startMessage_config _ hcm) ?_
    refine Starting.process_cons (startMessage_entitiesSize _ _ ?_) ?_
    · rw [hn, hentry]
      omega
    refine
      Starting.process_cons
        (startMessage_entities ⟨rfl, rfl, rfl⟩ rfl rfl hn ?_ (by omega) rfl
          hupdate) rfl
    simp [List.takeD_length, hn]
  · refine ⟨rfl, rfl, sm.withStats_height, rfl, rfl, ?_⟩
    refine ⟨_, m₀, buffer, buffer', rfl, ?_, ?_, ?_, ?_, hgrid, hupdate⟩
    · rw [hconfig', hconfig]
    · rw [hconfig', hconfig]
      exact sm.y_eq
    · rw [hconfig]
    · rw [hconfig]

/-- The messages of the server make a replica, whatever the flags were. -/
theorem process_startupMessages
    (flags : StartFlags) {msgs : List (Message MessageType)}
    (hmsgs :
      Server.startupMessages sm.layout sm.config sm.entities = some msgs) :
    ∃ c flags',
      Starting.process (make, flags) msgs = .ok (c, flags') ∧
      c.Replicates sm := by
  obtain ⟨c, flags', _, _, _, hprocess, _, _, _, hreplica⟩ :=
    exists_process_startupMessages sm flags hmsgs
  exact ⟨c, flags', hprocess, hreplica⟩

/-- The client's reader delivers the messages of the server as they are. -/
theorem deliveries_startupMessages
    {msgs : List (Message MessageType)}
    (hmsgs :
      Server.startupMessages sm.layout sm.config sm.entities = some msgs) :
    deliveries [] msgs = msgs := by
  have hbody := Server.startupMessages_body hmsgs
  obtain ⟨sizeMsg, entMsg, rfl, rfl, rfl⟩ :=
    Server.startupMessages_eq hmsgs
  rw [deliveries_eq_iff]
  refine ⟨fun hne => absurd rfl hne, ?_⟩
  unfold EmptyFirst
  rw [List.pairwise_cons]
  refine ⟨fun later _ hne => absurd rfl hne, ?_⟩
  exact List.pairwise_of_forall_mem_list
    fun earlier _ later hlater _ => hbody later hlater

/-- A client decodes the messages that the server sends it, and its `m_start`
goes round while they come in.  Once they are all there, at most as many more
iterations on a live connection as messages are left bring `m_start` to its
end, with a replica of the server's map. -/
theorem start_replicates
    (flags : StartFlags) (now : UInt64)
    {msgs : List (Message MessageType)}
    {rs : List (ConnEvent MessageType)} {reader : Connection MessageType}
    {es : List StartEvent} {s : Starting}
    (hmsgs :
      Server.startupMessages sm.layout sm.config sm.entities = some msgs)
    (hreader :
      run Connection.step (Connection.established .client now) rs =
        some reader)
    (hstream : reader.received = frames msgs)
    (hconsumed :
      reader.reads =
        [⟨.header, byteSize (MessageHeader MessageType), []⟩])
    (hrun : run Starting.step (Starting.start flags) es = some s)
    (harrived : Starting.arrivals es = reader.delivered) :
    ∃ s',
      run Starting.step s
          (List.replicate s.incoming.length (.iterate true)) = some s' ∧
      s'.fault = none ∧
      s'.client.Replicates sm := by
  have hall : Connection.Announced msgs :=
    Server.startupMessages_size sm.bytes_lt hmsgs
  have hinv : Connection.ReaderInv msgs reader :=
    reachable_invariant (Connection.step_readerInv hall)
      (Connection.readerInv_established msgs .client now) ⟨rs, hreader⟩
  have hdelivered : Starting.arrivals es = msgs := by
    rw [harrived, hinv.delivered_eq_deliveries hstream hconsumed,
      deliveries_startupMessages sm hmsgs]
  have hstart :
      Starting.Processed (make, (Starting.start flags).flags) []
        (Starting.start flags) :=
    ⟨[], rfl, rfl⟩
  obtain ⟨done, hsplit, hdone⟩ := (Starting.run_processed hstart hrun).split
  rw [List.nil_append, hdelivered] at hsplit
  obtain ⟨c, flags', hprocess, hreplica⟩ :=
    process_startupMessages sm (Starting.start flags).flags hmsgs
  rw [hsplit] at hprocess
  obtain ⟨s₁, hfirst, hrest⟩ := Starting.process_append hprocess
  have hfault : s.fault = none := by
    cases hf : s.fault with
    | none => rfl
    | some fault =>
        rw [hfirst, hf] at hdone
        cases hdone
  rw [hfirst, hfault] at hdone
  cases hdone
  have hids := Server.startupMessages_id hmsgs
  rw [hsplit] at hids
  refine ⟨_, Starting.run_drain hfault ?_ ?_ hrest, hfault, hreplica⟩
  · intro hne
    rw [List.dropLast_append_of_ne_nil hne] at hids
    exact Starting.process_startupOkay
      (fun msg hmsg => hids msg (List.mem_append_left _ hmsg)) hfirst
  · intro msg hmsg
    have hne : s.incoming ≠ [] := by
      intro hnil
      rw [hnil] at hmsg
      cases hmsg
    rw [List.dropLast_append_of_ne_nil hne] at hids
    exact hids msg (List.mem_append_right _ hmsg)

end Replica

section Sample

/-- A map of three cells with one entity, in the middle of the server's
console. -/
def standingMap : ServerMap where
  layout := { nScreenWidth := 3, nScreenHeight := 1 }
  config := { x := 60, width := 3, height := 1 }
  entities := [ClientMap.standing]
  width_pos := by decide
  height_pos := by decide
  area_lt := by decide
  height_le := by decide
  y_eq := by decide
  layout_width := by decide
  layout_height := by decide
  inside := by decide
  bytes_lt := by decide

/-- The messages of the server for this map. -/
def standingMessages : List (Message MessageType) :=
  (Server.startupMessages standingMap.layout standingMap.config
    standingMap.entities).getD []

/-- The loop goes round before, between and after the messages. -/
def standingEvents : List StartEvent :=
  [.iterate false, .iterate true] ++
    (standingMessages.take 2).map .push ++
    [.iterate true, .iterate true, .iterate true] ++
    (standingMessages.drop 2).map .push ++
    [.iterate true]

theorem start_replicates_standing :
    ∃ s s',
      run Starting.step (Starting.start ⟨true, false, true, true⟩)
          standingEvents = some s ∧
      s.incoming.length = 2 ∧
      run Starting.step s
          (List.replicate s.incoming.length (.iterate true)) = some s' ∧
      s'.fault = none ∧
      s'.client.Replicates standingMap := by
  have hreader :
      run Connection.step (Connection.established .client 0)
          (standingMessages.flatMap Connection.readFrame) = some _ := rfl
  have hrun :
      run Starting.step (Starting.start ⟨true, false, true, true⟩)
          standingEvents = some _ := rfl
  obtain ⟨s', hs', hfault, hreplica⟩ :=
    @start_replicates standingMap ⟨true, false, true, true⟩ 0
      standingMessages _ _ _ _ rfl hreader rfl rfl hrun rfl
  exact ⟨_, s', hrun, rfl, hs', hfault, hreplica⟩

end Sample

end Client

end SpeciesSimulator
