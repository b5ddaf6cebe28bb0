import SpeciesSimulator.ClientMessages
import SpeciesSimulator.EnvironmentStartup
import SpeciesSimulator.Lib.CondVar
import SpeciesSimulator.MapAgain
import SpeciesSimulator.NetLinkProgress

/-!
# The process of a client

`Client::run`, with everything that runs concurrently in a client process: the
main thread in `m_start` and then in `update`, the io thread with the handlers of
the connection, and the thread of the map.

The map thread waits for the entities to be replaced, without a condition.  The
assignment in `on_message` wakes it, if it is asleep by then; otherwise it sleeps
on, or wakes up for no reason.  When it goes on it updates the map, puts the
entities into its message, a copy of the vector and its size in either order, and
sends the message.  A fault on any thread ends the process.

The last two fields of `ClientProcess` record the history of a run.

Main facts:
* `step_clientInv`: as long as what comes in is a challenge and a beginning of
  the start-up messages of a map, no thread of the client has a fault, and after
  start-up it shows a replica of this map;
* `client_replicates`: the same for whole runs.
-/

namespace SpeciesSimulator

open ByteLayout CondVar Transition Message

/-- The next statement of the thread of the map. -/
inductive MapPc where
  /-- The thread has not been started. -/
  | created
  | startUp
  /-- In `Map::run`, before `wait`. -/
  | run
  /-- In `wait`. -/
  | wait (customCond : Waiter)
  /-- In `Map::run`, behind `wait`. -/
  | update
  /-- Before `push_back_complex` and `send`. -/
  | push (vector : Option (List Entity)) (counted : Option Nat)
  /-- There is no map. -/
  | returned

/-- `notify_one` on the variable that the thread of the map sleeps on. -/
def MapPc.notifyOne : MapPc → MapPc
  | .wait customCond => .wait customCond.notifyOne
  | pc => pc

structure ClientProcess where
  connection : Connection MessageType
  starting : Starting
  mapPc : MapPc := .created
  /-- How often the thread of the map has come to `update_entities`. -/
  rounds : Nat := 0
  /-- How often it has woken up for no reason. -/
  wakeUps : Nat := 0

/-- What can happen next in a client process. -/
inductive ClientEvent where
  | io (e : IoEvent)
  | iterate
  | startMap
  | update
  | startUp
  | wait
  | wakeUp
  | waitEnd
  | updateEntities
  | getVector
  | getSize
  | send

namespace Client

/-- The vector that the map points to. -/
def external (c : Client) (cm : ClientMap) : Except Fault (List Entity) :=
  match cm.map.entitiesExternal with
  | none => .error .nullPointer
  | some vecptr =>
      if vecptr = entitiesAddress then .ok c.entities else .error .wildAccess

/-- What the thread of the map does with it. -/
def onMap
    (c : Client) (f : ClientMap → Except Fault ClientMap) :
    Except Fault Client :=
  match c.map with
  | none => .error .nullPointer
  | some cm => do
      let cm ← f cm
      pure { c with map := some cm }

/-- `start_up`. -/
def startUpMap (c : Client) : Except Fault Client :=
  c.onMap fun cm => do
    let buffer ← cm.map.startUp cm.buffer
    pure { cm with buffer := buffer }

/-- `update_entities`, which `Map::run` calls. -/
def runMap (c : Client) : Except Fault Client :=
  c.onMap fun cm => do
    let entities ← c.external cm
    let (map, buffer) ←
      cm.map.updateEntitiesWrapped entitiesAddress entities cm.buffer
    pure { cm with map := map, buffer := buffer }

end Client

namespace ClientProcess

section Model

/-- A client that has asked for a connection. -/
def start (flags : StartFlags) : ClientProcess where
  connection := Connection.newClient
  starting := Starting.start flags

/-- What a handler of the connection leaves behind. -/
def afterIo
    (p : ClientProcess) (c : Connection MessageType) :
    Upcall MessageType → ClientProcess
  | .incoming msg =>
      { p with
        connection := c
        starting :=
          { p.starting with incoming := p.starting.incoming ++ [msg] } }
  | _ => { p with connection := c }

def fail (p : ClientProcess) (fault : Fault) : ClientProcess :=
  { p with starting := { p.starting with fault := some fault } }

/-- The result of a computation on the client. -/
def settle (p : ClientProcess) (pc : MapPc) :
    Except Fault Client → ClientProcess
  | .ok client =>
      { p with
        starting := { p.starting with client := client }
        mapPc := pc }
  | .error fault => p.fail fault

/-- `on_message` for the next message of the queue.  New entities come with a
notification. -/
def update (p : ClientProcess) : Option ClientProcess :=
  match p.starting.incoming with
  | [] => none
  | msg :: rest =>
      let pc :=
        if msg.header.id = .sendEntities then p.mapPc.notifyOne else p.mapPc
      some
        (({ p with
            starting := { p.starting with incoming := rest } }).settle pc
          (p.starting.client.onMessage msg))

/-- `mptr_entities_external`, used by `f`. -/
def withVector
    (p : ClientProcess) (f : List Entity → MapPc) : ClientProcess :=
  match p.starting.client.map with
  | none => p.fail .nullPointer
  | some cm =>
      match p.starting.client.external cm with
      | .error fault => p.fail fault
      | .ok vector => { p with mapPc := f vector }

/-- `push_back_complex` and `send`. -/
def send (p : ClientProcess) (vector : List Entity) (counted : Nat) :
    ClientProcess :=
  match p.starting.client.map with
  | none => p.fail .nullPointer
  | some cm =>
      match cm.entityMessage.pushBackComplex vector counted with
      | none => p.fail .wildAccess
      | some msg =>
          { p with
            connection := p.connection.send msg
            starting :=
              { p.starting with
                client :=
                  { p.starting.client with
                    map := some { cm with entityMessage := msg } } }
            mapPc := .run }

/-- The next step of the thread of the map. -/
def mapStep (p : ClientProcess) : ClientEvent → Option ClientProcess
  | .startUp =>
      match p.mapPc with
      | .startUp => some (p.settle .run p.starting.client.startUpMap)
      | _ => none
  | .wait =>
      match p.mapPc with
      | .run => some { p with mapPc := .wait .blocked }
      | _ => none
  | .wakeUp =>
      match p.mapPc with
      | .wait customCond =>
          match customCond.wakeUp with
          | some customCond =>
              some
                { p with
                  mapPc := .wait customCond
                  wakeUps := p.wakeUps + 1 }
          | none => none
      | _ => none
  | .waitEnd =>
      match p.mapPc with
      | .wait .woken => some { p with mapPc := .update }
      | _ => none
  | .updateEntities =>
      match p.mapPc with
      | .update =>
          some
            (({ p with rounds := p.rounds + 1 }).settle (.push none none)
              p.starting.client.runMap)
      | _ => none
  | .getVector =>
      match p.mapPc with
      | .push none counted =>
          some (p.withVector fun vector => .push (some vector) counted)
      | _ => none
  | .getSize =>
      match p.mapPc with
      | .push vector none =>
          some (p.withVector fun entities => .push vector (some entities.length))
      | _ => none
  | .send =>
      match p.mapPc with
      | .push (some vector) (some counted) => some (p.send vector counted)
      | _ => none
  | _ => none

def step (p : ClientProcess) (e : ClientEvent) : Option ClientProcess :=
  if p.starting.fault.isSome then none
  else
    match e with
    | .io e =>
        match p.connection.ioStep e with
        | none => none
        | some (c, u) => some (p.afterIo c u)
    | .iterate =>
        match p.starting.step (.iterate p.connection.isOpen) with
        | none => none
        | some starting => some { p with starting := starting }
    | .startMap =>
        match p.mapPc with
        | .created =>
            if p.starting.client.startupOkay then
              some
                { p with
                  mapPc :=
                    if p.starting.client.map.isSome then .startUp
                    else .returned }
            else none
        | _ => none
    | .update =>
        match p.mapPc with
        | .created => none
        | _ => p.update
    | e => p.mapStep e

end Model

section Connections

theorem afterIo_connection
    (p : ClientProcess) (c : Connection MessageType) (u : Upcall MessageType) :
    (p.afterIo c u).connection = c := by
  cases u with
  | none => rfl
  | incoming msg => rfl
  | validated => rfl

@[simp] theorem settle_connection
    (p : ClientProcess) (pc : MapPc) (result : Except Fault Client) :
    (p.settle pc result).connection = p.connection := by
  cases result with
  | ok client => rfl
  | error fault => rfl

@[simp] theorem withVector_connection
    (p : ClientProcess) (f : List Entity → MapPc) :
    (p.withVector f).connection = p.connection := by
  unfold withVector
  split
  · rfl
  · split
    · rfl
    · rfl

theorem send_connection
    (p : ClientProcess) (vector : List Entity) (counted : Nat) :
    (p.send vector counted).connection = p.connection ∨
      ∃ msg, (p.send vector counted).connection = p.connection.send msg := by
  unfold send
  split
  · exact Or.inl rfl
  · split
    · exact Or.inl rfl
    · exact Or.inr ⟨_, rfl⟩

theorem update_connection
    {p p' : ClientProcess}
    (h : p.update = some p') :
    p'.connection = p.connection := by
  unfold ClientProcess.update at h
  split at h
  · cases h
  · cases h
    rw [settle_connection]

end Connections

section Inversion

/-- The thread of the map comes to its next statement. -/
inductive MapStep (p : ClientProcess) : ClientEvent → ClientProcess → Prop
  | startUp
      (hpc : p.mapPc = .startUp) :
      MapStep p .startUp (p.settle .run p.starting.client.startUpMap)
  | wait
      (hpc : p.mapPc = .run) :
      MapStep p .wait { p with mapPc := .wait .blocked }
  | wakeUp
      (hpc : p.mapPc = .wait .blocked) :
      MapStep p .wakeUp
        { p with mapPc := .wait .woken, wakeUps := p.wakeUps + 1 }
  | waitEnd
      (hpc : p.mapPc = .wait .woken) :
      MapStep p .waitEnd { p with mapPc := .update }
  | updateEntities
      (hpc : p.mapPc = .update) :
      MapStep p .updateEntities
        (({ p with rounds := p.rounds + 1 }).settle (.push none none)
          p.starting.client.runMap)
  | getVector {counted : Option Nat}
      (hpc : p.mapPc = .push none counted) :
      MapStep p .getVector
        (p.withVector fun vector => .push (some vector) counted)
  | getSize {vector : Option (List Entity)}
      (hpc : p.mapPc = .push vector none) :
      MapStep p .getSize
        (p.withVector fun entities => .push vector (some entities.length))
  | send {vector : List Entity} {counted : Nat}
      (hpc : p.mapPc = .push (some vector) (some counted)) :
      MapStep p .send (p.send vector counted)

/-- What a step of a client process does, event by event. -/
inductive ClientStep (p : ClientProcess) : ClientEvent → ClientProcess → Prop
  | io {e : IoEvent} {c : Connection MessageType} {u : Upcall MessageType}
      (hio : Connection.IoStep p.connection e c u) :
      ClientStep p (.io e) (p.afterIo c u)
  | iterate {starting : Starting}
      (hstep :
        p.starting.step (.iterate p.connection.isOpen) = some starting) :
      ClientStep p .iterate { p with starting := starting }
  | startMap
      (hpc : p.mapPc = .created)
      (hokay : p.starting.client.startupOkay = true) :
      ClientStep p .startMap
        { p with
          mapPc :=
            if p.starting.client.map.isSome then .startUp else .returned }
  | update {p' : ClientProcess}
      (hpc : p.mapPc ≠ .created)
      (hupdate : p.update = some p') :
      ClientStep p .update p'
  | map {e : ClientEvent} {p' : ClientProcess}
      (hstep : MapStep p e p') :
      ClientStep p e p'

theorem mapStep_cases
    {p p' : ClientProcess} {e : ClientEvent}
    (h : p.mapStep e = some p') :
    MapStep p e p' := by
  cases e with
  | startUp =>
      simp only [mapStep] at h
      split at h
      · next hpc =>
        cases h
        exact .startUp hpc
      · cases h
  | wait =>
      simp only [mapStep] at h
      split at h
      · next hpc =>
        cases h
        exact .wait hpc
      · cases h
  | wakeUp =>
      simp only [mapStep] at h
      split at h
      · next hpc =>
        split at h
        · next customCond hwake =>
          obtain ⟨rfl, rfl⟩ := Waiter.wakeUp_eq_some.mp hwake
          cases h
          exact .wakeUp hpc
        · cases h
      · cases h
  | waitEnd =>
      simp only [mapStep] at h
      split at h
      · next hpc =>
        cases h
        exact .waitEnd hpc
      · cases h
  | updateEntities =>
      simp only [mapStep] at h
      split at h
      · next hpc =>
        cases h
        exact .updateEntities hpc
      · cases h
  | getVector =>
      simp only [mapStep] at h
      split at h
      · next hpc =>
        cases h
        exact .getVector hpc
      · cases h
  | getSize =>
      simp only [mapStep] at h
      split at h
      · next hpc =>
        cases h
        exact .getSize hpc
      · cases h
  | send =>
      simp only [mapStep] at h
      split at h
      · next hpc =>
        cases h
        exact .send hpc
      · cases h
  | io e => cases h
  | iterate => cases h
  | startMap => cases h
  | update => cases h

theorem step_cases
    {p p' : ClientProcess} {e : ClientEvent}
    (h : p.step e = some p') :
    p.starting.fault = none ∧ ClientStep p e p' := by
  unfold step at h
  split at h
  · cases h
  · next hfault =>
    refine ⟨by simpa using hfault, ?_⟩
    cases e with
    | io e =>
        simp only at h
        split at h
        · cases h
        · next c u hio =>
          cases h
          exact .io (Connection.ioStep_cases hio)
    | iterate =>
        simp only at h
        split at h
        · cases h
        · next starting hstep =>
          cases h
          exact .iterate hstep
    | startMap =>
        simp only at h
        split at h
        · next hpc =>
          split at h
          · next hokay =>
            cases h
            exact .startMap hpc hokay
          · cases h
        · cases h
    | update =>
        simp only at h
        split at h
        · cases h
        · next hpc => exact .update hpc h
    | startUp => exact .map (mapStep_cases h)
    | wait => exact .map (mapStep_cases h)
    | wakeUp => exact .map (mapStep_cases h)
    | waitEnd => exact .map (mapStep_cases h)
    | updateEntities => exact .map (mapStep_cases h)
    | getVector => exact .map (mapStep_cases h)
    | getSize => exact .map (mapStep_cases h)
    | send => exact .map (mapStep_cases h)

end Inversion

end ClientProcess

namespace Client

section Playing

/-- A replica whose map the thread of the map keeps up to date. -/
structure Plays (c : Client) (sm : ServerMap) : Prop where
  replica : c.Replicates sm
  roomy : c.Roomy

variable {c : Client} {sm : ServerMap} {cm cm' : ClientMap}

/-- What is drawn and what is sent does not matter. -/
theorem Plays.setMap
    (h : c.Plays sm)
    (hcm : c.map = some cm)
    (hmap : cm'.map = cm.map)
    (hsized : cm'.buffer.Sized) :
    ({ c with map := some cm' }).Plays sm := by
  obtain ⟨⟨hokay, hlayout, hheight, hconfig, hentities, hshown⟩, hroomy⟩ := h
  obtain ⟨cm₀, m₀, b, b', hcm₀, hx, hy, hwidth, hheight', hgrid, hupdate⟩ :=
    hshown
  obtain rfl := Option.some.inj (hcm.symm.trans hcm₀)
  rw [← hmap] at hx hy hupdate
  refine
    ⟨⟨hokay, hlayout, hheight, hconfig, hentities, ?_⟩,
      hroomy.room, hroomy.small, ?_⟩
  · exact ⟨cm', m₀, b, b', rfl, hx, hy, hwidth, hheight', hgrid, hupdate⟩
  · rintro _ ⟨⟩
    exact hsized

/-- There is a map with a buffer, which is as large as the server's and was
updated with the entities of the server. -/
theorem Plays.exists_map
    (h : c.Plays sm) :
    ∃ (cm : ClientMap) (m₀ : Map) (b b' : TSConsoleBuffer),
      c.map = some cm ∧ cm.buffer.Sized ∧
      cm.map.config.width = sm.config.width ∧
      cm.map.config.height = sm.config.height ∧
      c.external cm = .ok sm.entities ∧
      m₀.updateEntities entitiesAddress sm.entities b = .ok (cm.map, b') := by
  obtain ⟨cm, m₀, b, b', hcm, _, _, hwidth, hheight, _, hupdate⟩ :=
    h.replica.map
  obtain ⟨hconfig, _⟩ := Map.slots_of_updateEntities hupdate
  have hptr := Map.entitiesExternal_of_updateEntities hupdate
  refine ⟨cm, m₀, b, b', hcm, h.roomy.sized cm hcm, ?_, ?_, ?_, hupdate⟩
  · rw [hconfig, hwidth]
  · rw [hconfig, hheight]
  · simp only [external, hptr, if_true, h.replica.entities]

/-- The walls are drawn. -/
theorem Plays.startUpMap
    (h : c.Plays sm) :
    ∃ c', c.startUpMap = .ok c' ∧ c'.Plays sm := by
  obtain ⟨cm, _, _, _, hcm, hsized, hwidth, hheight, _⟩ := h.exists_map
  obtain ⟨b', hstart, hshape, _⟩ :=
    cm.map.startUp_inside hsized
      (by rw [hwidth]; exact sm.width_pos) (by rw [hheight]; exact sm.height_pos)
  refine ⟨{ c with map := some { cm with buffer := b' } }, ?_, ?_⟩
  · simp only [Client.startUpMap, onMap, hcm, hstart, bind_ok, pure_eq_ok]
  · exact h.setMap hcm rfl hshape.sized

/-- The map is updated with the entities that it shows already. -/
theorem Plays.runMap
    (h : c.Plays sm)
    (hcm : c.map = some cm) :
    ∃ b', cm.map.updateEntities entitiesAddress sm.entities cm.buffer =
        .ok (cm.map, b') ∧
      c.runMap = .ok { c with map := some { cm with buffer := b' } } ∧
      ({ c with map := some { cm with buffer := b' } }).Plays sm := by
  obtain ⟨cm₁, _, _, _, hcm₁, hsized, _, _, hexternal, hupdate⟩ := h.exists_map
  obtain rfl := Option.some.inj (hcm.symm.trans hcm₁)
  obtain ⟨b', hagain⟩ := Map.exists_updateEntities_again hsized hupdate
  have hwrapped := Map.updateEntitiesWrapped_of_updateEntities hagain
  refine ⟨b', hagain, ?_, ?_⟩
  · simp only [Client.runMap, onMap, hcm, hexternal, hwrapped, bind_ok,
      pure_eq_ok]
  · exact h.setMap hcm rfl (Map.sized_of_updateEntitiesWrapped hsized hwrapped)

end Playing

section StartUp

variable {c c' : Client} {flags flags' : StartFlags} {sm : ServerMap}
variable {done rest msgs : List (Message MessageType)} {msg : Message MessageType}

/-- The buffer has room whatever has been processed. -/
theorem roomy_process
    (h : c.Roomy)
    (hprocess : Starting.process (c, flags) msgs = .ok (c', flags')) :
    c'.Roomy := by
  induction msgs generalizing c flags with
  | nil =>
      cases hprocess
      exact h
  | cons msg msgs ih =>
      unfold Starting.process at hprocess
      rw [List.foldlM_cons] at hprocess
      obtain ⟨⟨c₁, flags₁⟩, hmsg, hrest⟩ := exists_of_bind_ok hprocess
      exact ih (h.startMessage hmsg) hrest

/-- The next message of the server has no fault, and completes start-up with a
replica if and only if it is the last one. -/
theorem startMessage_startupMessages
    (hmsgs :
      Server.startupMessages sm.layout sm.config sm.entities = some msgs)
    (hsplit : msgs = done ++ msg :: rest)
    (hdone : Starting.process (make, flags) done = .ok (c, flags')) :
    ∃ c₁ flags₁,
      startMessage (c, flags') msg = .ok (c₁, flags₁) ∧
        (rest ≠ [] → c₁.startupOkay = false) ∧
        (rest = [] → c₁.Plays sm) := by
  obtain ⟨c₂, flags₂, hall, hreplica⟩ := process_startupMessages sm flags hmsgs
  have hsnoc := Starting.process_snoc hdone msg
  rw [hsplit, List.append_cons] at hall
  obtain ⟨⟨c₁, flags₁⟩, hfirst, hrest⟩ := Starting.process_append hall
  rw [hsnoc] at hfirst
  refine ⟨c₁, flags₁, hfirst, ?_, ?_⟩
  · intro hne
    have hids := Server.startupMessages_id hmsgs
    rw [hsplit, List.append_cons, List.dropLast_append_of_ne_nil hne] at hids
    have hokay :=
      Starting.process_startupOkay
        (fun m hm => hids m (List.mem_append_left _ hm))
        (hsnoc.trans hfirst)
    exact hokay
  · rintro rfl
    cases hrest
    exact ⟨hreplica, roomy_process roomy_make (hsnoc.trans hfirst)⟩

end StartUp

end Client

namespace ClientProcess

section Invariant

/-- The thread of the map has read these entities and no others, and it has not
returned. -/
def ReadsOnly (es : List Entity) : MapPc → Prop
  | .push vector counted =>
      (∀ es', vector = some es' → es' = es) ∧
        ∀ n, counted = some n → n = es.length
  | .created => True
  | .startUp => True
  | .run => True
  | .wait customCond => customCond ≠ .away
  | .update => True
  | .returned => False

/-- How far a client has come that is given the start-up messages of a map. -/
inductive Progress
    (flags : StartFlags) (sm : Client.ServerMap)
    (msgs : List (Message MessageType)) (p : ClientProcess) : Prop
  | starting
      (hokay : p.starting.client.startupOkay = false)
      (hpc : p.mapPc = .created)
      (hsends : p.connection.sends = [])
      (hprocessed :
        Starting.Processed (Client.make, flags) p.connection.delivered
          p.starting)
  | playing
      (hplays : p.starting.client.Plays sm)
      (hincoming : p.starting.incoming = [])
      (hdelivered : p.connection.delivered = msgs)
      (hreads : ReadsOnly sm.entities p.mapPc)

/-- A client that is given a challenge and some of the start-up messages of a
map. -/
structure View
    (flags : StartFlags) (challenge : UInt64) (sm : Client.ServerMap)
    (msgs sent : List (Message MessageType)) (p : ClientProcess) : Prop where
  phase : Connection.ClientPhase challenge sent p.connection
  progress : Progress flags sm msgs p
  fault : p.starting.fault = none

/-- The messages that a client is sent are start-up messages of a map. -/
structure Serves
    (sm : Client.ServerMap) (msgs sent : List (Message MessageType)) :
    Prop where
  startup :
    Server.startupMessages sm.layout sm.config sm.entities = some msgs
  sent : sent <+: msgs

/-- A client process, whatever map it is sent. -/
structure ClientInv (flags : StartFlags) (p : ClientProcess) : Prop where
  owner : p.connection.nowner = .client
  unbroken : Connection.Unbroken p.connection
  view :
    ∀ challenge sm msgs sent,
      Serves sm msgs sent →
        p.connection.received <+: toBytes challenge ++ frames sent →
          View flags challenge sm msgs sent p

variable {flags : StartFlags} {challenge : UInt64} {sm : Client.ServerMap}
variable {msgs sent : List (Message MessageType)} {p p' : ClientProcess}

/-- The client's reader delivers what is sent as it is. -/
theorem Serves.deliveries
    (h : Serves sm msgs sent) :
    Message.deliveries [] sent = sent :=
  deliveries_eq_of_prefix h.sent
    (Client.deliveries_startupMessages sm h.startup)

theorem Serves.announced
    (h : Serves sm msgs sent) :
    Connection.Announced sent := by
  intro msg hmsg
  exact Server.startupMessages_size sm.bytes_lt h.startup msg
    (h.sent.subset hmsg)

/-- What is delivered is a beginning of what is sent. -/
theorem View.delivered
    (h : View flags challenge sm msgs sent p)
    (hserves : Serves sm msgs sent) :
    p.connection.delivered <+: sent := by
  have hpre := h.phase.delivered
  rwa [hserves.deliveries] at hpre

/-- Start-up is complete only if everything was sent. -/
theorem View.replicates
    (h : View flags challenge sm msgs sent p)
    (hserves : Serves sm msgs sent)
    (hokay : p.starting.client.startupOkay = true) :
    sent = msgs ∧ p.starting.client.Replicates sm := by
  cases h.progress with
  | starting hnot =>
      rw [hokay] at hnot
      cases hnot
  | playing hplays _ hall =>
      have hle := (h.delivered hserves).length_le
      rw [hall] at hle
      exact ⟨hserves.sent.eq_of_length_le hle, hplays.replica⟩

/-- A client that has sent a message has replied. -/
theorem View.hasReplied
    (h : View flags challenge sm msgs sent p)
    (hserves : Serves sm msgs sent)
    (hsends : p.connection.sends ≠ []) :
    p.connection.HasReplied := by
  refine h.phase.hasReplied ?_
  cases h.progress with
  | starting _ _ hnone => exact absurd hnone hsends
  | playing _ _ hdelivered =>
      rw [hdelivered]
      rintro rfl
      obtain ⟨_, _, _, _, hnil⟩ := Server.startupMessages_eq hserves.startup
      cases hnil

/-- A handler of the connection. -/
theorem View.io
    {e : IoEvent} {c : Connection MessageType} {u : Upcall MessageType}
    (h : View flags challenge sm msgs sent p)
    (hserves : Serves sm msgs sent)
    (howner : p.connection.nowner = .client)
    (hunbroken : Connection.Unbroken p.connection)
    (hconn : ∀ isOpen, e ≠ .connectFailed isOpen)
    (hio : Connection.IoStep p.connection e c u)
    (hpre : c.received <+: toBytes challenge ++ frames sent) :
    View flags challenge sm msgs sent (p.afterIo c u) := by
  have hpre₀ := (Connection.ioStep_received hio).trans hpre
  have hfollows : Connection.Follows p.connection e := by
    refine ⟨hconn, ?_⟩
    rintro i rfl
    refine h.hasReplied hserves fun hnone => ?_
    cases hio with
    | runSend hmsg => simp [(List.append_eq_nil_iff.mp hnone).2] at hmsg
  have hphase :=
    Connection.ioStep_clientPhase hserves.announced hio hfollows howner
      hunbroken hpre₀ h.phase
  have hdelivered := Connection.ioStep_delivered hio
  refine ⟨by rw [afterIo_connection]; exact hphase, ?_, ?_⟩
  · cases h.progress with
    | starting hokay hpc hsends hprocessed =>
        have hsends' : c.sends = [] := by
          rw [Connection.ioStep_sends hio, hsends]
          rintro i rfl
          cases hio with
          | runSend hmsg => simp [(List.append_eq_nil_iff.mp hsends).2] at hmsg
        obtain ⟨done, hsplit, hdone⟩ := hprocessed.split
        cases u with
        | none =>
            rw [Upcall.delivers, List.append_nil] at hdelivered
            refine .starting hokay hpc hsends' ⟨done, ?_, hdone⟩
            exact hdelivered.trans hsplit
        | incoming msg =>
            refine .starting hokay hpc hsends' ⟨done, ?_, hdone⟩
            show c.delivered = done ++ (p.starting.incoming ++ [msg])
            rw [hdelivered, hsplit, List.append_assoc]
            rfl
        | validated =>
            exact absurd rfl (Connection.ioStep_client hio howner).2
    | playing hplays hincoming hall hreads =>
        have hle := hphase.delivered.length_le
        rw [hserves.deliveries, hdelivered, hall, List.length_append] at hle
        have hsent := hserves.sent.length_le
        cases u with
        | none =>
            rw [Upcall.delivers, List.append_nil] at hdelivered
            exact .playing hplays hincoming (hdelivered.trans hall) hreads
        | incoming msg =>
            -- everything that was sent has been delivered
            simp only [Upcall.delivers, List.length_singleton] at hle
            omega
        | validated =>
            exact absurd rfl (Connection.ioStep_client hio howner).2
  · cases u with
    | none => exact h.fault
    | incoming msg => exact h.fault
    | validated => exact h.fault

/-- An iteration of `m_start`. -/
theorem View.iterate
    {connected : Bool} {starting : Starting}
    (h : View flags challenge sm msgs sent p)
    (hserves : Serves sm msgs sent)
    (hstep : p.starting.step (.iterate connected) = some starting) :
    View flags challenge sm msgs sent { p with starting := starting } := by
  have hpre := (h.delivered hserves).trans hserves.sent
  cases h.progress with
  | playing hplays =>
      simp [Starting.step, hplays.replica.okay] at hstep
  | starting hokay hpc hsends hprocessed =>
      obtain ⟨done, hsplit, hdone⟩ := hprocessed.split
      rw [h.fault] at hdone
      simp only [Starting.step, hokay, h.fault, Bool.false_eq_true,
        Option.isSome_none, or_self, if_false] at hstep
      split at hstep
      · split at hstep
        · cases hstep
          exact h
        · next msg rest hincoming =>
          -- the rest of the messages may still be on the way
          rw [hincoming] at hsplit
          obtain ⟨ahead, hahead⟩ := hpre
          have hall : msgs = done ++ msg :: (rest ++ ahead) := by
            rw [← hahead, hsplit, List.append_assoc, List.cons_append]
          obtain ⟨c₁, flags₁, hmsg, hnext, hlast⟩ :=
            Client.startMessage_startupMessages hserves.startup hall hdone
          rw [hmsg] at hstep
          cases hstep
          refine ⟨h.phase, ?_, rfl⟩
          by_cases hend : rest ++ ahead = []
          · obtain ⟨rfl, rfl⟩ := List.append_eq_nil_iff.mp hend
            rw [List.append_nil] at hahead
            refine .playing (hlast hend) rfl hahead ?_
            show ReadsOnly _ p.mapPc
            rw [hpc]
            trivial
          · refine .starting (hnext hend) hpc hsends ⟨done ++ [msg], ?_, ?_⟩
            · rw [hsplit, List.append_cons]
            · have hsnoc := Starting.process_snoc hdone msg
              rw [hsnoc, hmsg]
      · cases hstep
        exact h

/-- The thread of the map is started after start-up only. -/
theorem View.plays
    (h : View flags challenge sm msgs sent p)
    (hpc : p.mapPc ≠ .created) :
    p.starting.client.Plays sm ∧ p.starting.incoming = [] ∧
      p.connection.delivered = msgs ∧ ReadsOnly sm.entities p.mapPc := by
  cases h.progress with
  | starting _ hcreated => exact absurd hcreated hpc
  | playing hplays hincoming hdelivered hreads =>
      exact ⟨hplays, hincoming, hdelivered, hreads⟩

/-- The vector that the map points to is the entities of the server. -/
theorem withVector_of_plays
    (f : List Entity → MapPc)
    (h : p.starting.client.Plays sm) :
    p.withVector f = { p with mapPc := f sm.entities } := by
  obtain ⟨cm, _, _, _, hcm, _, _, _, hexternal, _⟩ := h.exists_map
  simp only [withVector, hcm, hexternal]

/-- The entities of the server are sent. -/
theorem exists_send_of_plays
    (h : p.starting.client.Plays sm) :
    ∃ msg client,
      p.send sm.entities sm.entities.length =
          { p with
            connection := p.connection.send msg
            starting := { p.starting with client := client }
            mapPc := .run } ∧
        client.Plays sm := by
  obtain ⟨cm, _, _, _, hcm, hsized, _⟩ := h.exists_map
  obtain ⟨msg, hmsg⟩ :
      ∃ msg, cm.entityMessage.pushBackComplex sm.entities sm.entities.length =
        some msg :=
    ⟨_, pushBackComplex_length _ _⟩
  refine ⟨msg, { p.starting.client with
    map := some { cm with entityMessage := msg } }, ?_, ?_⟩
  · simp only [send, hcm, hmsg]
  · exact h.setMap hcm rfl hsized

/-- A step of the thread of the map. -/
theorem View.map
    {e : ClientEvent}
    (h : View flags challenge sm msgs sent p)
    (hstep : MapStep p e p') :
    View flags challenge sm msgs sent p' := by
  have hphase := h.phase
  have hfault := h.fault
  cases hstep with
  | startUp hpc =>
      obtain ⟨hplays, hincoming, hdelivered, _⟩ := h.plays (by simp [hpc])
      obtain ⟨c', hstart, hplays'⟩ := hplays.startUpMap
      rw [hstart]
      exact ⟨hphase, .playing hplays' hincoming hdelivered trivial, hfault⟩
  | wait hpc =>
      obtain ⟨hplays, hincoming, hdelivered, _⟩ := h.plays (by simp [hpc])
      exact ⟨hphase, .playing hplays hincoming hdelivered (by simp [ReadsOnly]),
        hfault⟩
  | wakeUp hpc =>
      obtain ⟨hplays, hincoming, hdelivered, _⟩ := h.plays (by simp [hpc])
      exact ⟨hphase, .playing hplays hincoming hdelivered (by simp [ReadsOnly]),
        hfault⟩
  | waitEnd hpc =>
      obtain ⟨hplays, hincoming, hdelivered, _⟩ := h.plays (by simp [hpc])
      exact ⟨hphase, .playing hplays hincoming hdelivered trivial, hfault⟩
  | updateEntities hpc =>
      obtain ⟨hplays, hincoming, hdelivered, _⟩ := h.plays (by simp [hpc])
      obtain ⟨cm, _, _, _, hcm, _⟩ := hplays.exists_map
      obtain ⟨b', _, hrun, hplays'⟩ := hplays.runMap hcm
      rw [hrun]
      exact ⟨hphase,
        .playing hplays' hincoming hdelivered ⟨by simp, by simp⟩, hfault⟩
  | @getVector counted hpc =>
      obtain ⟨hplays, hincoming, hdelivered, hreads⟩ :=
        h.plays (by simp [hpc])
      rw [withVector_of_plays _ hplays]
      rw [hpc] at hreads
      refine ⟨hphase, .playing hplays hincoming hdelivered ⟨?_, hreads.2⟩,
        hfault⟩
      exact fun es' hes => (Option.some.inj hes).symm
  | @getSize vector hpc =>
      obtain ⟨hplays, hincoming, hdelivered, hreads⟩ :=
        h.plays (by simp [hpc])
      rw [withVector_of_plays _ hplays]
      rw [hpc] at hreads
      refine ⟨hphase, .playing hplays hincoming hdelivered ⟨hreads.1, ?_⟩,
        hfault⟩
      exact fun n hn => (Option.some.inj hn).symm
  | @send vector counted hpc =>
      obtain ⟨hplays, hincoming, hdelivered, hreads⟩ :=
        h.plays (by simp [hpc])
      rw [hpc] at hreads
      obtain rfl := hreads.1 vector rfl
      obtain rfl := hreads.2 counted rfl
      obtain ⟨msg, client, hsend, hplays'⟩ := exists_send_of_plays hplays
      rw [hsend]
      exact ⟨hphase.update id, .playing hplays' hincoming hdelivered trivial,
        hfault⟩

/-- A step of the thread of the map does not concern the handshake. -/
theorem MapStep.connection
    {e : ClientEvent}
    (hstep : MapStep p e p') :
    p'.connection = p.connection ∨
      ∃ msg, p'.connection = p.connection.send msg := by
  cases hstep with
  | startUp => exact Or.inl (settle_connection _ _ _)
  | wait => exact Or.inl rfl
  | wakeUp => exact Or.inl rfl
  | waitEnd => exact Or.inl rfl
  | updateEntities => exact Or.inl (settle_connection _ _ _)
  | getVector => exact Or.inl (withVector_connection _ _)
  | getSize => exact Or.inl (withVector_connection _ _)
  | send => exact send_connection _ _ _

/-- No step takes bytes back. -/
theorem step_grows
    (p : ClientProcess) (e : ClientEvent) (p' : ClientProcess)
    (hstep : p.step e = some p') :
    p.connection.wire <+: p'.connection.wire ∧
      p.connection.received <+: p'.connection.received := by
  have hsent
      (h : p'.connection = p.connection ∨
        ∃ msg, p'.connection = p.connection.send msg) :
      p.connection.wire <+: p'.connection.wire ∧
        p.connection.received <+: p'.connection.received := by
    rcases h with h | ⟨msg, h⟩
    · rw [h]
      exact ⟨List.prefix_rfl, List.prefix_rfl⟩
    · rw [h]
      exact ⟨List.prefix_rfl, List.prefix_rfl⟩
  cases (step_cases hstep).2 with
  | @io e c u hio =>
      rw [afterIo_connection]
      exact ⟨Connection.ioStep_wire hio, Connection.ioStep_received hio⟩
  | iterate => exact hsent (Or.inl rfl)
  | startMap => exact hsent (Or.inl rfl)
  | update _ hupdate => exact hsent (Or.inl (update_connection hupdate))
  | map hmap => exact hsent hmap.connection

/-- The thread of the map is started, and there is a map. -/
theorem View.startMap
    (h : View flags challenge sm msgs sent p)
    (hokay : p.starting.client.startupOkay = true) :
    View flags challenge sm msgs sent
      { p with
        mapPc :=
          if p.starting.client.map.isSome then .startUp else .returned } := by
  refine ⟨h.phase, ?_, h.fault⟩
  cases h.progress with
  | starting hnot =>
      rw [hokay] at hnot
      cases hnot
  | playing hplays hincoming hdelivered _ =>
      obtain ⟨cm, _, _, _, hcm, _⟩ := hplays.exists_map
      refine .playing hplays hincoming hdelivered ?_
      simp [ReadsOnly, hcm]

/-- What is not a handler does not concern the handshake. -/
theorem ClientInv.quiet
    (h : ClientInv flags p)
    (hconnection :
      p'.connection = p.connection ∨
        ∃ msg, p'.connection = p.connection.send msg)
    (hview :
      ∀ challenge sm msgs sent,
        Serves sm msgs sent → View flags challenge sm msgs sent p →
          View flags challenge sm msgs sent p') :
    ClientInv flags p' := by
  have hsame :
      p'.connection.nowner = p.connection.nowner ∧
        Connection.Unbroken p'.connection ∧
          p'.connection.received = p.connection.received := by
    rcases hconnection with hsame | ⟨msg, hsent⟩
    · rw [hsame]
      exact ⟨rfl, h.unbroken, rfl⟩
    · rw [hsent]
      exact ⟨rfl, h.unbroken.congr .update id, rfl⟩
  obtain ⟨howner, hunbroken, hreceived⟩ := hsame
  refine ⟨howner.trans h.owner, hunbroken, ?_⟩
  intro challenge sm msgs sent hserves hpre
  rw [hreceived] at hpre
  exact hview challenge sm msgs sent hserves
    (h.view challenge sm msgs sent hserves hpre)

/-- Handlers of `send` run in their order. -/
def InOrder (_ : ClientProcess) (e : ClientEvent) : Prop :=
  ∀ i, e = .io (.runSend i) → i = 0

/-- The client does not fail to connect. -/
def Connects (_ : ClientProcess) (e : ClientEvent) : Prop :=
  ∀ isOpen, e ≠ .io (.connectFailed isOpen)

/-- Every step of a client process keeps it where the stream put it. -/
theorem step_clientInv
    (p : ClientProcess) (e : ClientEvent) (p' : ClientProcess)
    (h : ClientInv flags p)
    (hconnects : Connects p e)
    (hstep : p.step e = some p') :
    ClientInv flags p' := by
  cases (step_cases hstep).2 with
  | @io e c u hio =>
      have hconn : ∀ isOpen, e ≠ .connectFailed isOpen := by
        rintro isOpen rfl
        exact hconnects isOpen rfl
      have hc : (p.afterIo c u).connection = c := afterIo_connection p c u
      refine ⟨?_, ?_, ?_⟩
      · rw [hc]
        exact (Connection.ioStep_client hio h.owner).1
      · rw [hc]
        exact Connection.ioStep_unbroken hio hconn h.unbroken
      · intro challenge sm msgs sent hserves hpre
        rw [hc] at hpre
        have hpre₀ := (Connection.ioStep_received hio).trans hpre
        exact (h.view challenge sm msgs sent hserves hpre₀).io hserves h.owner
          h.unbroken hconn hio hpre
  | iterate hiterate =>
      exact h.quiet (Or.inl rfl) fun challenge sm msgs sent hserves hview =>
        hview.iterate hserves hiterate
  | startMap hpc hokay =>
      exact h.quiet (Or.inl rfl) fun challenge sm msgs sent _ hview =>
        hview.startMap hokay
  | update hpc hupdate =>
      refine h.quiet (Or.inl (update_connection hupdate)) ?_
      · intro challenge sm msgs sent _ hview
        -- there is no message that `on_message` could be called for
        obtain ⟨_, hincoming, _⟩ := hview.plays hpc
        simp [ClientProcess.update, hincoming] at hupdate
  | map hmap =>
      exact h.quiet hmap.connection fun challenge sm msgs sent _ hview =>
        hview.map hmap

/-- A client that has asked for a connection. -/
theorem clientInv_start (flags : StartFlags) :
    ClientInv (Starting.start flags).flags (start flags) := by
  have hend (challenge : UInt64) (msgs : List (Message MessageType)) :
      Connection.ClientEnd challenge msgs (start flags).connection :=
    Connection.clientEnd_newClient
  refine ⟨rfl, (hend 0 []).unbroken, ?_⟩
  intro challenge sm msgs sent _ _
  refine ⟨(hend challenge sent).phase List.nil_prefix, ?_, rfl⟩
  exact .starting rfl rfl rfl ⟨[], rfl, rfl⟩

theorem run_clientInv
    {flags : StartFlags} {es : List ClientEvent}
    (hconnects : Meets step Connects (start flags) es)
    (hrun : run step (start flags) es = some p) :
    ClientInv (Starting.start flags).flags p :=
  run_invariant step_clientInv (clientInv_start flags) hconnects hrun

/-- A client that is given a challenge and start-up messages of a map, or as much
of them as has come in: in every order of its three threads it has no fault.
Once start-up is complete, and for ever after, all messages have been sent and
it shows a replica of the map. -/
theorem client_replicates
    {flags : StartFlags} {es : List ClientEvent}
    (hconnects : Meets step Connects (start flags) es)
    (hrun : run step (start flags) es = some p)
    (hmsgs :
      Server.startupMessages sm.layout sm.config sm.entities = some msgs)
    (hsent : sent <+: msgs)
    (hgiven : p.connection.received <+: toBytes challenge ++ frames sent) :
    p.starting.fault = none ∧
      (p.starting.client.startupOkay = true →
        sent = msgs ∧ p.starting.client.Replicates sm) := by
  have hserves : Serves sm msgs sent := ⟨hmsgs, hsent⟩
  have hview :=
    (run_clientInv hconnects hrun).view challenge sm msgs sent hserves hgiven
  exact ⟨hview.fault, hview.replicates hserves⟩

end Invariant

section Sample

/-- A handler that a connection runs in a client process. -/
def ofConnEvent : ConnEvent MessageType → Option ClientEvent
  | .io e => some (.io e)
  | .send _ => none
  | .disconnect => none

/-- The client connects and replies to challenge 1, its reader takes the
start-up messages of a small map off the stream, start-up is completed and the
thread of the map wakes up for no reason and goes round once. -/
def standingRun : List ClientEvent :=
  [.io .connected, .io (.recv 0 (toBytes (1 : UInt64))), .io (.readDone 0),
    .io (.transfer 0 8), .io (.writeDone 0)] ++
  (Client.standingMessages.flatMap Connection.readFrame).filterMap
    ofConnEvent ++
  [.iterate, .iterate, .iterate, .iterate, .iterate, .startMap, .startUp,
    .wait, .wakeUp, .waitEnd, .updateEntities, .getSize, .getVector, .send]

/-- None of this is a failure to connect. -/
theorem standingRun_connects (isOpen : Bool) :
    .io (.connectFailed isOpen) ∉ standingRun := by
  have hread (msg : Message MessageType) :
      .io (.connectFailed isOpen) ∉ Connection.readFrame msg := by
    unfold Connection.readFrame
    split
    · simp
    · simp
  intro he
  rcases List.mem_append.mp he with he | he
  · rcases List.mem_append.mp he with he | he
    · simp at he
    · obtain ⟨e, hmem, heq⟩ := List.mem_filterMap.mp he
      obtain ⟨msg, _, hmem⟩ := List.mem_flatMap.mp hmem
      cases e with
      | io e =>
          cases heq
          exact hread msg hmem
      | send => cases heq
      | disconnect => cases heq
  · simp at he

theorem meets_standingRun :
    Meets step Connects (start ⟨true, false, true, true⟩) standingRun := by
  refine meets_of_forall ?_ _
  rintro p e he isOpen rfl
  exact standingRun_connects isOpen he

theorem client_replicates_standing :
    ∃ p, run step (start ⟨true, false, true, true⟩) standingRun = some p ∧
      p.connection.posted.length = 1 ∧
      p.starting.fault = none ∧
      p.starting.client.Replicates Client.standingMap := by
  have hrun :
      run step (start ⟨true, false, true, true⟩) standingRun = some _ := rfl
  obtain ⟨hfault, hreplica⟩ :=
    @client_replicates 1 Client.standingMap Client.standingMessages
      Client.standingMessages _ _ _ meets_standingRun hrun rfl List.prefix_rfl
      List.prefix_rfl
  exact ⟨_, hrun, rfl, hfault, (hreplica rfl).2⟩

end Sample

end ClientProcess

end SpeciesSimulator
