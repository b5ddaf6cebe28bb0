import SpeciesSimulator.ClientStart

/-!
# How the start-up of a client ends

`m_start` leaves its loop when `M_STARTUP_OKAY` is set, and in no other way.  It
sets it when entities came in and its four flags are set, of which three are
not initialised.  Once the connection is closed an iteration does nothing, so
that a loop that has not been left by then is not left any more.

Main facts:
* `startInv_of_run`: what the flags, the map and `M_STARTUP_OKAY` say about the
  messages that were processed, whatever the flags were at first;
* `start_complete_iff`: start-up is complete when the loop is left, if and only
  if two of the flags are false at first;
* `endsOnceClosed_iff`: it ends on a closed connection, if and only if it has
  ended before;
* `start_never_ends`: a loop that has not been left when the connection is
  closed is not left any more.
-/

namespace SpeciesSimulator

open Transition

namespace Starting

section Model

/-- The messages that start-up consists of. -/
def startupKinds : List MessageType :=
  [.sendMapConsoleLayout, .sendMapLayout, .sendEntitiesSize, .sendEntities]

/-- A message of this kind is among them. -/
def Has (done : List (Message MessageType)) (id : MessageType) : Prop :=
  ∃ msg ∈ done, msg.header.id = id

/-- A message of every kind has been processed in the run. -/
def Completed (es : List StartEvent) (s : Starting) : Prop :=
  Took (fun done _ _ _ => ∀ id ∈ startupKinds, Has done id) (arrivals es) s

/-- `return M_STARTUP_OKAY = true`, after the loop. -/
def returned (s : Starting) : Option Bool :=
  if s.client.startupOkay then some true else none

/-- The connection is closed: an iteration finds it down. -/
def Closed (es : List StartEvent) : Prop :=
  ∀ connected, .iterate connected ∈ es → connected = false

/-- Once the connection is closed for good, the loop is left after finitely many
iterations, reporting failure if start-up is not complete. -/
def EndsOnceClosed (es : List StartEvent) (s : Starting) : Prop :=
  ∃ rest s' okay,
    Closed rest ∧ run step s rest = some s' ∧ s'.returned = some okay ∧
      (¬ Completed es s → okay = false)

end Model

section Flags

variable {done : List (Message MessageType)} {id : MessageType}

theorem Has.snoc
    (h : Has done id)
    (msg : Message MessageType) :
    Has (done ++ [msg]) id := by
  obtain ⟨m, hm, hid⟩ := h
  exact ⟨m, List.mem_append_left _ hm, hid⟩

theorem has_snoc_self (done : List (Message MessageType)) (msg : Message MessageType) :
    Has (done ++ [msg]) msg.header.id :=
  ⟨msg, by simp, rfl⟩

/-- A flag that is set was set from the beginning, or such a message was
processed; a map is only made from a message. -/
structure StartInv
    (flags₀ : StartFlags) (done : List (Message MessageType))
    (client : Client) (flags : StartFlags) : Prop where
  console :
    flags.gotConsole = true →
      flags₀.gotConsole = true ∨ Has done .sendMapConsoleLayout
  size :
    flags.gotEntitiesSize = true →
      flags₀.gotEntitiesSize = true ∨ Has done .sendEntitiesSize
  map : client.map.isSome → Has done .sendMapLayout
  okay :
    client.startupOkay = true →
      (flags₀.gotConsole = true ∨ Has done .sendMapConsoleLayout) ∧
        Has done .sendMapLayout ∧
        (flags₀.gotEntitiesSize = true ∨ Has done .sendEntitiesSize) ∧
        Has done .sendEntities

variable {flags₀ flags flags' : StartFlags} {client client' : Client}

theorem StartInv.snoc
    (h : StartInv flags₀ done client flags)
    (msg : Message MessageType) :
    StartInv flags₀ (done ++ [msg]) client flags where
  console := fun hflag => (h.console hflag).imp_right fun hhas => hhas.snoc msg
  size := fun hflag => (h.size hflag).imp_right fun hhas => hhas.snoc msg
  map := fun hmap => (h.map hmap).snoc msg
  okay := by
    intro hokay
    obtain ⟨hconsole, hmap, hsize, hentities⟩ := h.okay hokay
    exact
      ⟨hconsole.imp_right fun hhas => hhas.snoc msg, hmap.snoc msg,
        hsize.imp_right fun hhas => hhas.snoc msg, hentities.snoc msg⟩

/-- Entities are shown on a map, and complete start-up if the flags are set. -/
theorem StartInv.entities
    {msg : Message MessageType}
    (h : StartInv flags₀ done client flags)
    (hokay : client.startupOkay = false)
    (hid : msg.header.id = .sendEntities)
    (hmsg :
      Client.startMessage (client, flags) msg = .ok (client', flags')) :
    StartInv flags₀ (done ++ [msg]) client' flags' := by
  have hsnoc := h.snoc msg
  simp only [Client.startMessage, hid] at hmsg
  obtain ⟨c₁, hc₁, hmsg⟩ := exists_of_bind_ok hmsg
  obtain ⟨c₂, hc₂, hmsg⟩ := exists_of_bind_ok hmsg
  obtain ⟨hmap₁, hokay₁⟩ : c₁.map = client.map ∧ c₁.startupOkay = false := by
    obtain ⟨es, _, rfl⟩ := Client.exists_of_pullEntities hc₁
    exact ⟨rfl, hokay⟩
  obtain ⟨hmap₂, hokay₂⟩ : client.map.isSome ∧ c₂.startupOkay = false := by
    unfold Client.updateMap at hc₂
    rw [hmap₁] at hc₂
    split at hc₂
    · cases hc₂
    · rename_i cm hcm
      obtain ⟨⟨m, buffer⟩, _, hc₂⟩ := exists_of_bind_ok hc₂
      cases hc₂
      exact ⟨by simp [hcm], hokay₁⟩
  have hmap : Has (done ++ [msg]) .sendMapLayout := hsnoc.map hmap₂
  split at hmsg
  · rename_i hflags
    cases hmsg
    refine ⟨hsnoc.console, hsnoc.size, fun _ => hmap, fun _ => ?_⟩
    refine ⟨hsnoc.console hflags.1, hmap, hsnoc.size hflags.2.2.1, ?_⟩
    rw [← hid]
    exact has_snoc_self done msg
  · cases hmsg
    refine ⟨hsnoc.console, hsnoc.size, fun _ => hmap, fun hc => ?_⟩
    rw [hokay₂] at hc
    cases hc

/-- One message keeps the invariant, case by case of the switch. -/
theorem StartInv.startMessage
    {msg : Message MessageType}
    (h : StartInv flags₀ done client flags)
    (hokay : client.startupOkay = false)
    (hmsg :
      Client.startMessage (client, flags) msg = .ok (client', flags')) :
    StartInv flags₀ (done ++ [msg]) client' flags' := by
  have hsnoc := h.snoc msg
  have hself := has_snoc_self done msg
  by_cases hid : msg.header.id = .sendEntities
  · exact h.entities hokay hid hmsg
  · simp only [Client.startMessage] at hmsg
    split at hmsg
    · rename_i hlayout
      obtain ⟨c₁, hc₁, hmsg⟩ := exists_of_bind_ok hmsg
      obtain ⟨⟨layout, msg'⟩, _, hc₁⟩ := exists_of_bind_ok hc₁
      cases hc₁
      cases hmsg
      rw [hlayout] at hself
      exact ⟨fun _ => Or.inr hself, hsnoc.size, hsnoc.map, hsnoc.okay⟩
    · rename_i hconfig
      obtain ⟨c₁, hc₁, hmsg⟩ := exists_of_bind_ok hmsg
      obtain ⟨⟨config, msg'⟩, _, hc₁⟩ := exists_of_bind_ok hc₁
      obtain ⟨cm, _, hc₁⟩ := exists_of_bind_ok hc₁
      cases hc₁
      cases hmsg
      rw [hconfig] at hself
      exact ⟨hsnoc.console, hsnoc.size, fun _ => hself, hsnoc.okay⟩
    · rename_i hsize
      obtain ⟨c₁, hc₁, hmsg⟩ := exists_of_bind_ok hmsg
      obtain ⟨⟨size, msg'⟩, _, hc₁⟩ := exists_of_bind_ok hc₁
      obtain ⟨entities, _, hc₁⟩ := exists_of_bind_ok hc₁
      obtain ⟨entBuffer, _, hc₁⟩ := exists_of_bind_ok hc₁
      cases hc₁
      cases hmsg
      rw [hsize] at hself
      exact ⟨hsnoc.console, fun _ => Or.inr hself, hsnoc.map, hsnoc.okay⟩
    · contradiction
    · cases hmsg
      exact hsnoc

theorem startInv_start (flags : StartFlags) :
    StartInv flags [] (start flags).client (start flags).flags where
  console := Or.inl
  size := Or.inl
  map := by
    intro hmap
    cases hmap
  okay := by
    intro hokay
    cases hokay

/-- In every run of `m_start`, the messages processed so far account for the
flags that were not set at first. -/
theorem startInv_of_run
    {flags : StartFlags} {es : List StartEvent} {s : Starting}
    (hrun : run step (start flags) es = some s) :
    Took (fun done client flags' _ => StartInv flags done client flags')
      (arrivals es) s := by
  have hstart :
      Took (fun done client flags' _ => StartInv flags done client flags')
        [] (start flags) :=
    ⟨[], rfl, startInv_start flags⟩
  refine run_took ?_ hstart hrun
  intro done client flags' msg hokay h
  split
  · rename_i hmsg
    exact h.startMessage hokay hmsg
  · exact h.snoc msg

end Flags

section Complete

theorem not_completed
    {es : List StartEvent} {s : Starting} (id : MessageType)
    (hid : id ∈ startupKinds)
    (harrivals : ∀ msg ∈ arrivals es, msg.header.id ≠ id) :
    ¬ Completed es s := by
  rintro ⟨done, hsplit, hall⟩
  obtain ⟨msg, hmsg, hmsgid⟩ := hall id hid
  refine harrivals msg ?_ hmsgid
  rw [hsplit]
  exact List.mem_append_left _ hmsg

/-- The message of a server that has no entities. -/
def noEntities : Message MessageType :=
  ⟨⟨.sendEntities, 0⟩, []⟩

/-- Everything but a layout of the console comes in. -/
def withoutLayout : List StartEvent :=
  [.push (Server.configMessage { width := 1, height := 1 }),
    .push (Server.entitiesSizeMessage 0), .push noEntities,
    .iterate true, .iterate true, .iterate true]

/-- Everything but the number of entities comes in. -/
def withoutSize : List StartEvent :=
  [.push (Server.layoutMessage { nScreenWidth := 1, nScreenHeight := 1 }),
    .push (Server.configMessage { width := 1, height := 1 }), .push noEntities,
    .iterate true, .iterate true, .iterate true]

/-- A flag that was set by chance stands for a message that never came. -/
theorem exists_incomplete
    {flags : StartFlags}
    (hset : flags.gotConsole = true ∨ flags.gotEntitiesSize = true) :
    ∃ es s, run step (start flags) es = some s ∧
      s.client.startupOkay = true ∧ ¬ Completed es s := by
  obtain ⟨gotConsole, gotMap, gotEntitiesSize, gotEntities⟩ := flags
  -- The runs are evaluated with concrete flags.
  rcases hset with hconsole | hsize
  · cases hconsole
    cases gotMap <;> cases gotEntitiesSize <;> cases gotEntities <;>
      refine ⟨withoutLayout, _, rfl, rfl, ?_⟩ <;>
      exact not_completed .sendMapConsoleLayout (by decide) (by decide)
  · cases hsize
    cases gotMap <;> cases gotConsole <;> cases gotEntities <;>
      refine ⟨withoutSize, _, rfl, rfl, ?_⟩ <;>
      exact not_completed .sendEntitiesSize (by decide) (by decide)

/-- A client leaves the loop of `m_start` only after all messages of start-up
have been processed, if and only if the flags for the layout of the console and
for the number of entities are false at first.  The flag for the map does not
matter: entities that come in without a map end the process. -/
theorem start_complete_iff (flags : StartFlags) :
    (∀ es s, run step (start flags) es = some s →
        s.client.startupOkay = true → Completed es s) ↔
      flags.gotConsole = false ∧ flags.gotEntitiesSize = false := by
  constructor
  · intro hall
    by_contra hset
    rw [not_and_or, Bool.not_eq_false, Bool.not_eq_false] at hset
    obtain ⟨es, s, hrun, hokay, hincomplete⟩ := exists_incomplete hset
    exact hincomplete (hall es s hrun hokay)
  · rintro ⟨hconsole, hsize⟩ es s hrun hokay
    obtain ⟨done, hsplit, h⟩ := startInv_of_run hrun
    obtain ⟨hlayout, hmap, hnumber, hentities⟩ := h.okay hokay
    refine ⟨done, hsplit, ?_⟩
    have hlayout' : Has done .sendMapConsoleLayout := by
      simpa [hconsole] using hlayout
    have hnumber' : Has done .sendEntitiesSize := by
      simpa [hsize] using hnumber
    simp only [startupKinds, List.forall_mem_cons]
    exact ⟨hlayout', hmap, hnumber', hentities, by simp⟩

/-- The flag for the layout of the console is set by chance. -/
theorem start_complete_iff_fails_without_layout :
    ∃ es s, run step (start ⟨true, false, false, false⟩) es = some s ∧
      s.client.startupOkay = true ∧ ¬ Completed es s := by
  refine ⟨withoutLayout, _, rfl, rfl, ?_⟩
  exact not_completed .sendMapConsoleLayout (by decide) (by decide)

end Complete

section Closing

variable {es : List StartEvent} {s s' : Starting}

/-- On a closed connection the loop goes round without a change. -/
theorem run_closed
    (hclosed : Closed es)
    (hrun : run step s es = some s') :
    s'.client = s.client ∧ s'.fault = s.fault := by
  induction es generalizing s with
  | nil =>
      simp only [run_nil, Option.some.injEq] at hrun
      simp [hrun]
  | cons e es ih =>
      obtain ⟨s₁, hstep, htail⟩ := run_cons_some hrun
      have htail' :=
        ih (fun c hc => hclosed c (List.mem_cons_of_mem _ hc)) htail
      cases e with
      | push msg =>
          cases hstep
          exact htail'
      | iterate connected =>
          obtain rfl := hclosed connected (by simp)
          simp only [step, Bool.false_eq_true, if_false] at hstep
          split at hstep
          · cases hstep
          · cases hstep
            exact htail'

/-- A loop that has not been left goes round for ever. -/
theorem run_replicate_closed
    (hokay : s.client.startupOkay = false)
    (hfault : s.fault = none)
    (n : Nat) :
    run step s (List.replicate n (.iterate false)) = some s := by
  induction n with
  | zero =>
      rfl
  | succ n ih =>
      have hstep : s.step (.iterate false) = some s := by
        simp [step, hokay, hfault]
      rw [List.replicate_succ, run_cons_of_step hstep]
      exact ih

theorem endsOnceClosed_iff :
    EndsOnceClosed es s ↔ s.client.startupOkay = true ∧ Completed es s := by
  constructor
  · rintro ⟨rest, s', okay, hclosed, hrest, hreturned, hfailure⟩
    have hclient : s'.client = s.client := (run_closed hclosed hrest).1
    unfold returned at hreturned
    rw [hclient] at hreturned
    split at hreturned
    · rename_i hokay
      cases hreturned
      refine ⟨hokay, ?_⟩
      by_contra hincomplete
      cases hfailure hincomplete
    · cases hreturned
  · rintro ⟨hokay, hcomplete⟩
    refine ⟨[], s, true, ?_, rfl, ?_, ?_⟩
    · intro connected hconnected
      cases hconnected
    · simp [returned, hokay]
    · intro hincomplete
      exact absurd hcomplete hincomplete

/-- If `m_start` is in its loop when the connection is closed, it does not leave
it any more: whatever comes in, and however often the loop goes round, it has
not returned and goes round again. -/
theorem start_never_ends
    {flags : StartFlags}
    (hrun : run step (start flags) es = some s)
    (hokay : s.client.startupOkay = false)
    (hfault : s.fault = none) :
    ¬ EndsOnceClosed es s ∧
      ∀ rest s', Closed rest →
        run step (start flags) (es ++ rest) = some s' →
          s'.returned = none ∧
            ∀ n,
              run step (start flags)
                  (es ++ rest ++ List.replicate n (.iterate false)) =
                some s' := by
  constructor
  · rw [endsOnceClosed_iff, hokay]
    rintro ⟨⟨⟩, -⟩
  · intro rest s' hclosed hall
    have hrest : run step s rest = some s' := by
      rw [← run_append hrun]
      exact hall
    obtain ⟨hclient, hfault'⟩ := run_closed hclosed hrest
    have hokay' : s'.client.startupOkay = false := by
      rw [hclient, hokay]
    refine ⟨?_, fun n => ?_⟩
    · simp [returned, hokay']
    · rw [run_append hall]
      exact run_replicate_closed hokay' (hfault'.trans hfault) n

/-- The client could not connect. -/
theorem start_never_ends_unconnected :
    ¬ EndsOnceClosed [] (start ⟨false, false, false, false⟩) :=
  (@start_never_ends [] _ ⟨false, false, false, false⟩ rfl rfl rfl).1

/-- The server refuses the client and closes the connection. -/
theorem start_never_ends_denied :
    ∃ s,
      run step (start ⟨false, false, false, false⟩)
          [.push ⟨⟨.serverDenial, 0⟩, []⟩, .iterate true] = some s ∧
        ¬ EndsOnceClosed [.push ⟨⟨.serverDenial, 0⟩, []⟩, .iterate true] s := by
  refine ⟨_, rfl, ?_⟩
  rw [endsOnceClosed_iff]
  rintro ⟨hokay, -⟩
  cases hokay

end Closing

end Starting

end SpeciesSimulator
