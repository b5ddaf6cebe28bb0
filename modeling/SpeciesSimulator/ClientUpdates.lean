import SpeciesSimulator.ServerDispatch
import SpeciesSimulator.SystemLink

/-!
# What a client sends to its server

In every iteration the thread of the map appends the entities to the message
that it sent last, so the messages grow by a copy of all entities each time.
They arrive as they were sent, and in this order, as long as their length can be
counted in 32 bits.

Main facts:
* `step_updates`: the messages that a client has sent carry one copy of the
  entities of its map, two copies, and so on;
* `Linked.delivered_updates`: the server's connection with the client delivers a
  beginning of them.
-/

namespace SpeciesSimulator

open ByteLayout Transition Message

namespace ClientMap

section Updates

/-- The message of an iteration, when that many copies of the entities have been
put into it. -/
def copiesMessage (es : List Entity) (k : Nat) : Message MessageType :=
  entitiesMessage (List.replicate k es).flatten

/-- The messages of the first iterations. -/
def updates (es : List Entity) (k : Nat) : List (Message MessageType) :=
  (List.range k).map fun j => copiesMessage es (j + 1)

variable {es : List Entity} {k m : Nat}

theorem updates_succ (es : List Entity) (k : Nat) :
    updates es (k + 1) = updates es k ++ [copiesMessage es (k + 1)] := by
  simp [updates, List.range_succ]

@[simp] theorem length_updates (es : List Entity) (k : Nat) :
    (updates es k).length = k := by
  simp [updates]

/-- Another copy. -/
theorem pushBackComplex_copiesMessage (es : List Entity) (k : Nat) :
    (copiesMessage es k).pushBackComplex es es.length =
      some (copiesMessage es (k + 1)) := by
  rw [pushBackComplex_length]
  simp [copiesMessage, entitiesMessage, setBody, List.replicate_succ']

/-- A beginning of the updates are the first of them. -/
theorem eq_updates_of_prefix
    {msgs : List (Message MessageType)}
    (h : msgs <+: updates es k) :
    msgs = updates es msgs.length := by
  have hle := h.length_le
  rw [length_updates] at hle
  rw [List.prefix_iff_eq_take.mp h]
  simp [updates, ← List.map_take, List.take_range, hle]

theorem length_copies (es : List Entity) (k : Nat) :
    (copiesMessage es k).body.length = byteSize Entity * (es.length * k) := by
  show (serialize (List.replicate k es).flatten).length = _
  rw [length_serialize]
  simp [Nat.mul_comm]

/-- Updates announce their lengths as long as these can be counted. -/
theorem announced_updates
    (hlen : byteSize Entity * (es.length * k) < 2 ^ 32) :
    Connection.Announced (updates es k) := by
  intro msg hmsg
  obtain ⟨j, hj, rfl⟩ := List.mem_map.mp hmsg
  have hle : es.length * (j + 1) ≤ es.length * k :=
    Nat.mul_le_mul_left _ (List.mem_range.mp hj)
  have hbody := length_copies es (j + 1)
  have hlt : (copiesMessage es (j + 1)).body.length < 2 ^ 32 := by
    rw [hbody]
    exact lt_of_le_of_lt (Nat.mul_le_mul_left _ hle) hlen
  exact UInt32.toNat_ofNat_of_lt' hlt

/-- Updates are delivered as they are. -/
theorem deliveries_updates (es : List Entity) (k : Nat) :
    deliveries [] (updates es k) = updates es k := by
  rw [deliveries_eq_iff]
  refine ⟨fun hne => absurd rfl hne, ?_⟩
  unfold EmptyFirst updates
  rw [List.pairwise_map]
  refine List.pairwise_of_forall_mem_list ?_
  intro i _ j _ hne hnil
  have hlen := length_copies es (j + 1)
  rw [hnil, List.length_nil, eq_comm, Nat.mul_eq_zero, Nat.mul_eq_zero] at hlen
  have hes : es = [] := by
    rcases hlen with hsize | hes | hsucc
    · cases hsize
    · exact List.eq_nil_of_length_eq_zero hes
    · cases hsucc
  refine hne ?_
  rw [← List.length_eq_zero_iff, length_copies, hes]
  simp

end Updates

end ClientMap

namespace Client

section Fresh

/-- The message of the map is as its constructor left it. -/
def FreshMessage (c : Client) : Prop :=
  ∀ cm, c.map = some cm → cm.entityMessage = ClientMap.entitiesMessage []

variable {c c' : Client} {flags flags' : StartFlags} {msg : Message MessageType}

/-- Updating the map does not concern its message. -/
theorem FreshMessage.updateMap
    (h : c.FreshMessage)
    (hupdate : c.updateMap = .ok c') :
    c'.FreshMessage := by
  unfold Client.updateMap at hupdate
  split at hupdate
  · cases hupdate
  · rename_i cm hcm
    obtain ⟨⟨m, buffer⟩, _, hc'⟩ := exists_of_bind_ok hupdate
    cases hc'
    rintro _ ⟨⟩
    exact h cm hcm

theorem FreshMessage.pullEntities
    (h : c.FreshMessage)
    (hpull : c.pullEntities msg = .ok c') :
    c'.FreshMessage := by
  obtain ⟨es, _, rfl⟩ := exists_of_pullEntities hpull
  exact h

/-- `m_start` does not put anything into the message of the map. -/
theorem FreshMessage.startMessage
    (h : c.FreshMessage)
    (hmsg : Client.startMessage (c, flags) msg = .ok (c', flags')) :
    c'.FreshMessage := by
  simp only [Client.startMessage] at hmsg
  split at hmsg
  · obtain ⟨c₁, hc₁, hc'⟩ := exists_of_bind_ok hmsg
    obtain ⟨⟨layout, msg'⟩, _, hc₁⟩ := exists_of_bind_ok hc₁
    cases hc₁
    cases hc'
    exact h
  · obtain ⟨c₁, hc₁, hc'⟩ := exists_of_bind_ok hmsg
    obtain ⟨⟨config, msg'⟩, _, hc₁⟩ := exists_of_bind_ok hc₁
    obtain ⟨cm, hmake, hc₁⟩ := exists_of_bind_ok hc₁
    obtain ⟨⟨map, buffer⟩, _, hcm⟩ := exists_of_bind_ok hmake
    cases hcm
    cases hc₁
    cases hc'
    rintro _ ⟨⟩
    rfl
  · obtain ⟨c₁, hc₁, hc'⟩ := exists_of_bind_ok hmsg
    obtain ⟨⟨size, msg'⟩, _, hc₁⟩ := exists_of_bind_ok hc₁
    obtain ⟨entities, _, hc₁⟩ := exists_of_bind_ok hc₁
    obtain ⟨entBuffer, _, hc₁⟩ := exists_of_bind_ok hc₁
    cases hc₁
    cases hc'
    exact h
  · obtain ⟨c₁, hc₁, hrest⟩ := exists_of_bind_ok hmsg
    obtain ⟨c₂, hc₂, hc'⟩ := exists_of_bind_ok hrest
    have h₂ : c₂.FreshMessage := (h.pullEntities hc₁).updateMap hc₂
    split at hc'
    · cases hc'
      exact h₂
    · cases hc'
      exact h₂
  · cases hmsg
    exact h

/-- The thread of the map keeps the message, except where it sends it. -/
theorem entityMessage_of_onMap
    {f : ClientMap → Except Fault ClientMap}
    (hf : ∀ cm cm', f cm = .ok cm' → cm'.entityMessage = cm.entityMessage)
    (h : c.onMap f = .ok c') :
    ∀ cm', c'.map = some cm' →
      ∃ cm, c.map = some cm ∧ cm'.entityMessage = cm.entityMessage := by
  unfold onMap at h
  split at h
  · cases h
  · next cm hcm =>
    obtain ⟨cm₁, hcm₁, hc'⟩ := exists_of_bind_ok h
    cases hc'
    rintro _ ⟨⟩
    exact ⟨cm, hcm, hf cm cm₁ hcm₁⟩

end Fresh

end Client

namespace ClientProcess

section Updates

variable {flags : StartFlags} {challenge : UInt64} {sm : Client.ServerMap}
variable {msgs sent : List (Message MessageType)} {p p' : ClientProcess}

/-- The thread of the map has woken up for the message that it sends next. -/
def pending (p : ClientProcess) : Nat :=
  match p.mapPc with
  | .wait customCond => if customCond = .woken then 1 else 0
  | .update => 1
  | .push _ _ => 1
  | .created => 0
  | .startUp => 0
  | .run => 0
  | .returned => 0

/-- So many messages were sent, and the one that comes next starts from the
last of them. -/
structure Updates (es : List Entity) (k : Nat) (p : ClientProcess) : Prop where
  sends : p.connection.sends = ClientMap.updates es k
  message :
    ∀ cm, p.starting.client.map = some cm →
      cm.entityMessage = ClientMap.copiesMessage es k
  woken : k + p.pending ≤ p.wakeUps

theorem updates_start (es : List Entity) (flags : StartFlags) :
    Updates es 0 (start flags) where
  sends := rfl
  message := by
    intro cm hcm
    cases hcm
  woken := le_refl 0

/-- A step that neither sends nor touches the message. -/
theorem Updates.congr
    {es : List Entity} {k : Nat}
    (h : Updates es k p)
    (hsends : p'.connection.sends = p.connection.sends)
    (hmessage :
      ∀ cm', p'.starting.client.map = some cm' →
        ∃ cm, p.starting.client.map = some cm ∧
          cm'.entityMessage = cm.entityMessage)
    (hpending : p'.pending ≤ p.pending)
    (hwakeUps : p'.wakeUps = p.wakeUps) :
    Updates es k p' where
  sends := hsends.trans h.sends
  message := by
    intro cm' hcm'
    obtain ⟨cm, hcm, hsame⟩ := hmessage cm' hcm'
    exact hsame.trans (h.message cm hcm)
  woken := by
    rw [hwakeUps]
    exact (Nat.add_le_add_left hpending k).trans h.woken

theorem Updates.settle
    {es : List Entity} {k : Nat} {pc : MapPc} {result : Except Fault Client}
    (h : Updates es k p)
    (hmessage :
      ∀ c', result = .ok c' → ∀ cm', c'.map = some cm' →
        ∃ cm, p.starting.client.map = some cm ∧
          cm'.entityMessage = cm.entityMessage)
    (hpending : ({ p with mapPc := pc } : ClientProcess).pending ≤ p.pending) :
    Updates es k (p.settle pc result) := by
  cases result with
  | ok c' => exact h.congr rfl (hmessage c' rfl) hpending rfl
  | error fault =>
      exact h.congr rfl (fun cm' hcm' => ⟨cm', hcm', rfl⟩) (le_refl _) rfl

/-- An iteration of `m_start`. -/
theorem Updates.iterate
    {es : List Entity} {k : Nat} {connected : Bool} {starting : Starting}
    (h : Updates es k p)
    (hview : View flags challenge sm msgs sent p)
    (hstep : p.starting.step (.iterate connected) = some starting) :
    Updates es k { p with starting := starting } := by
  cases hview.progress with
  | playing hplays =>
      simp [Starting.step, hplays.replica.okay] at hstep
  | starting hokay _ hsends =>
      -- nothing has been sent yet
      obtain rfl : k = 0 := by
        have hlen := congrArg List.length (h.sends.symm.trans hsends)
        simpa using hlen
      have hfresh : p.starting.client.FreshMessage := h.message
      simp only [Starting.step, hokay, hview.fault, Bool.false_eq_true,
        Option.isSome_none, or_self, if_false] at hstep
      split at hstep
      · split at hstep
        · cases hstep
          exact h
        · split at hstep
          · next client flags' hmsg =>
            cases hstep
            exact ⟨h.sends, hfresh.startMessage hmsg, h.woken⟩
          · cases hstep
            exact ⟨h.sends, h.message, h.woken⟩
      · cases hstep
        exact h

/-- A step of the thread of the map. -/
theorem Updates.map
    {k : Nat} {e : ClientEvent}
    (h : Updates sm.entities k p)
    (hview : View flags challenge sm msgs sent p)
    (hstep : MapStep p e p') :
    ∃ k', Updates sm.entities k' p' := by
  have hsame (cm : ClientMap) (hcm : p.starting.client.map = some cm) :
      ∃ cm₀, p.starting.client.map = some cm₀ ∧
        cm.entityMessage = cm₀.entityMessage :=
    ⟨cm, hcm, rfl⟩
  cases hstep with
  | startUp =>
      refine
        ⟨k, h.settle (fun c' hc' => Client.entityMessage_of_onMap ?_ hc')
          (Nat.zero_le _)⟩
      intro cm cm' hcm'
      obtain ⟨buffer, _, hcm'⟩ := exists_of_bind_ok hcm'
      cases hcm'
      rfl
  | wait => exact ⟨k, h.congr rfl hsame (Nat.zero_le _) rfl⟩
  | wakeUp hpc =>
      have hwoken := h.woken
      simp only [pending, hpc] at hwoken
      exact ⟨k, h.sends, h.message, Nat.succ_le_succ hwoken⟩
  | waitEnd hpc => exact ⟨k, h.congr rfl hsame (by simp [pending, hpc]) rfl⟩
  | updateEntities hpc =>
      have hround : Updates sm.entities k { p with rounds := p.rounds + 1 } :=
        h.congr rfl hsame (le_refl _) rfl
      refine
        ⟨k, hround.settle (fun c' hc' => Client.entityMessage_of_onMap ?_ hc')
          (by simp [pending, hpc])⟩
      intro cm cm' hcm'
      obtain ⟨entities, _, hcm'⟩ := exists_of_bind_ok hcm'
      obtain ⟨⟨map, buffer⟩, _, hcm'⟩ := exists_of_bind_ok hcm'
      cases hcm'
      rfl
  | getVector hpc =>
      obtain ⟨hplays, _⟩ := hview.plays (by simp [hpc])
      rw [withVector_of_plays _ hplays]
      exact ⟨k, h.congr rfl hsame (by simp [pending, hpc]) rfl⟩
  | getSize hpc =>
      obtain ⟨hplays, _⟩ := hview.plays (by simp [hpc])
      rw [withVector_of_plays _ hplays]
      exact ⟨k, h.congr rfl hsame (by simp [pending, hpc]) rfl⟩
  | @send vector counted hpc =>
      obtain ⟨hplays, _, _, hreads⟩ := hview.plays (by simp [hpc])
      rw [hpc] at hreads
      obtain rfl := hreads.1 vector rfl
      obtain rfl := hreads.2 counted rfl
      obtain ⟨cm, _, _, _, hcm, _⟩ := hplays.exists_map
      have hpush := ClientMap.pushBackComplex_copiesMessage sm.entities k
      rw [← h.message cm hcm] at hpush
      refine ⟨k + 1, ?_⟩
      simp only [ClientProcess.send, hcm, hpush]
      refine ⟨?_, ?_, ?_⟩
      · rw [ClientMap.updates_succ, ← h.sends]
        exact (List.append_assoc _ _ _).symm
      · rintro _ ⟨⟩
        rfl
      · have hwoken := h.woken
        simp only [pending, hpc] at hwoken
        exact hwoken

/-- Every step of a client that is given the start-up messages of a map. -/
theorem step_updates
    {k : Nat} {e : ClientEvent}
    (h : Updates sm.entities k p)
    (hview : View flags challenge sm msgs sent p)
    (horder : InOrder p e)
    (hstep : p.step e = some p') :
    ∃ k', Updates sm.entities k' p' := by
  cases (step_cases hstep).2 with
  | @io e c u hio =>
      refine ⟨k, h.congr ?_ ?_ ?_ ?_⟩
      · rw [afterIo_connection]
        refine Connection.ioStep_sends hio ?_
        rintro i rfl
        exact horder i rfl
      · intro cm hcm
        refine ⟨cm, ?_, rfl⟩
        cases u with
        | none => exact hcm
        | incoming msg => exact hcm
        | validated => exact hcm
      · cases u with
        | none => exact le_refl _
        | incoming msg => exact le_refl _
        | validated => exact le_refl _
      · cases u with
        | none => rfl
        | incoming msg => rfl
        | validated => rfl
  | iterate hiterate => exact ⟨k, h.iterate hview hiterate⟩
  | startMap =>
      refine ⟨k, h.congr rfl (fun cm hcm => ⟨cm, hcm, rfl⟩) ?_ rfl⟩
      cases p.starting.client.map.isSome with
      | true => exact Nat.zero_le _
      | false => exact Nat.zero_le _
  | update hpc hupdate =>
      obtain ⟨_, hincoming, _⟩ := hview.plays hpc
      simp [ClientProcess.update, hincoming] at hupdate
  | map hmap => exact h.map hview hmap

/-- Whatever map the client is sent, what it sends are updates with its
entities. -/
def SendsUpdates (p : ClientProcess) : Prop :=
  ∀ (challenge : UInt64) sm msgs sent,
    Serves sm msgs sent →
      p.connection.received <+: toBytes challenge ++ frames sent →
        ∃ k, Updates sm.entities k p

theorem step_sendsUpdates
    (p : ClientProcess) (e : ClientEvent) (p' : ClientProcess)
    (h : ClientInv flags p ∧ SendsUpdates p)
    (horder : Connects p e ∧ InOrder p e)
    (hstep : p.step e = some p') :
    ClientInv flags p' ∧ SendsUpdates p' := by
  obtain ⟨hclient, hsends⟩ := h
  refine ⟨step_clientInv p e p' hclient horder.1 hstep, ?_⟩
  intro challenge sm msgs sent hserves hgiven
  have hgiven₀ := (step_grows p e p' hstep).2.trans hgiven
  obtain ⟨k, hupdates⟩ := hsends challenge sm msgs sent hserves hgiven₀
  exact step_updates hupdates
    (hclient.view challenge sm msgs sent hserves hgiven₀) horder.2 hstep

/-- A client that has asked for a connection has not sent anything. -/
theorem sendsUpdates_start (flags : StartFlags) :
    SendsUpdates (start flags) := by
  intro challenge sm msgs sent _ _
  exact ⟨0, updates_start sm.entities flags⟩

end Updates

end ClientProcess

namespace System

section Dispatch

variable {c : ConnId} {n : UInt64} {flags : StartFlags} {s₀ s : Server}
  {p : ClientProcess} {es : List (ServerEvent ⊕ ClientEvent)}

/-- What the server's connection with its client has delivered is a beginning of
what the messages of the client deliver. -/
theorem Linked.delivered
    {conn : Connection MessageType}
    (h : Linked c (s, p))
    (hc : c ∈ s.deqConnections)
    (hconn : s.connections[c]? = some conn)
    (hserver : Connection.Announced conn.ran)
    (hclient : Connection.Announced p.connection.ran) :
    conn.delivered <+: deliveries [] p.connection.ran := by
  obtain ⟨now, uid, les, horderly, hrun⟩ := h.linked hc conn hconn
  have hends :
      Link.Ends now p.connection.ran conn.ran
        (s.linkEnd c conn, p.connection) :=
    Link.run_ends hclient hserver horderly hrun
  have hran : (s.linkEnd c conn).ran <+: conn.ran := by
    rw [Server.linkEnd_ran]
  have hdelivered := (hends.reading hran List.prefix_rfl).delivered
  rwa [Server.linkEnd_delivered] at hdelivered

/-- Updates that can be counted come in as they were sent. -/
theorem Linked.delivered_updates
    {conn : Connection MessageType} {i k : Nat} {map : Map}
    {sm : Client.ServerMap} {msgs : List (Message MessageType)}
    (h : Linked c (s, p))
    (hc : c ∈ s.deqConnections)
    (hassigned : Assignment c (s, p) conn i map sm msgs)
    (hk : ClientProcess.Updates sm.entities k p)
    (hcount : byteSize Entity * (sm.entities.length * k) < 2 ^ 32) :
    conn.delivered <+: ClientMap.updates sm.entities k := by
  have hran : p.connection.ran <+: ClientMap.updates sm.entities k := by
    rw [← hk.sends]
    exact List.prefix_append _ _
  have hannounced : Connection.Announced p.connection.ran := by
    intro msg hmsg
    exact ClientMap.announced_updates hcount msg (hran.subset hmsg)
  have hdelivered :=
    h.delivered hc hassigned.connections hassigned.serves.announced hannounced
  rw [ClientMap.eq_updates_of_prefix hran, ClientMap.deliveries_updates,
    ← ClientMap.eq_updates_of_prefix hran] at hdelivered
  exact hdelivered.trans hran

/-- What a client sends to its server are updates. -/
structure Updating (c : ConnId) (n : UInt64) (flags : StartFlags) (t : System) :
    Prop where
  inv : Inv c n flags t
  linked : Linked c t
  updates : ClientProcess.SendsUpdates t.2

theorem step_updating
    (t : System) (e : ServerEvent ⊕ ClientEvent) (t' : System)
    (h : Updating c n flags t)
    (hinOrder : AllInOrder c t e)
    (hstep : step c t e = some t') :
    Updating c n flags t' := by
  obtain ⟨hinv, hlinked⟩ :=
    step_linked t e t' ⟨h.inv, h.linked⟩ hinOrder.orderly hstep
  refine ⟨hinv, hlinked, ?_⟩
  cases Duplex.step_cases hstep with
  | inl => exact h.updates
  | inr hclient =>
      exact (ClientProcess.step_sendsUpdates _ _ _ ⟨h.inv.client, h.updates⟩
        (hinOrder.2 _ rfl) hclient).2

theorem Runs.updating
    {t : System}
    (h : Runs AllInOrder c n flags s₀ es t) :
    Updating c n flags t := by
  refine run_invariant step_updating ?_ h.meets h.runs
  exact
    { inv := inv_start h.make h.few
      linked := linked_start h.make flags
      updates := ClientProcess.sendsUpdates_start flags }

/-- The updates carry the entities of the map that the client is sent. -/
theorem Updating.exists_assignment
    {t : System}
    (h : Updating c n flags t)
    (hc : c ∈ t.1.deqConnections) :
    ∃ conn i map sm msgs, Assignment c t conn i map sm msgs ∧
      ClientProcess.Updates sm.entities t.2.connection.sends.length t.2 ∧
      (t.2.connection.sends ≠ [] → (c, i) ∈ t.1.served) := by
  obtain ⟨conn, i, map, sm, msgs, hassigned⟩ :=
    h.inv.exists_assignment hc
  obtain ⟨k, hk⟩ := h.updates _ _ _ _ hassigned.serves hassigned.given
  have hlen : t.2.connection.sends.length = k := by
    rw [hk.sends, ClientMap.length_updates]
  refine ⟨conn, i, map, sm, msgs, hassigned, by rw [hlen]; exact hk, ?_⟩
  intro hne
  cases (hassigned.view h.inv).progress with
  | starting _ _ hnone => exact absurd hnone hne
  | playing hplays =>
      exact (hassigned.replicates h.inv hplays.replica.okay).1

end Dispatch

end System

end SpeciesSimulator
