import SpeciesSimulator.ServerServes

/-!
# The entities a client is sent

`on_client_validated` looks at the entity vector of its map three times, each
time under the lock of the vector: it announces the size, and later it copies
the vector and reads its size once more.  In between the environment's thread
may push entities to the vector.

Main facts:
* `step_entitiesInv`: what a handler has read are longer and longer states of
  one vector;
* `Transfer.Taken.agrees_iff`: the announced number fits the entities that were
  sent, if and only if the size that was read last was the announced one;
* `entities_agree_iff`: it fits in the runs without a push in between.
-/

namespace SpeciesSimulator

open ByteLayout Transition

namespace Transfer

/-- The number that was announced is the number of the entities that were sent,
these are one state of the vector, and a client that takes the announced number
of entities off the message gets all of them. -/
def Agrees (r : Transfer) : Prop :=
  ∃ vector ∈ [r.announced, r.counted], ∃ size rest msg rest',
    r.sizeMessage.extract UInt64 = some (size, rest) ∧
      r.message = some msg ∧
      msg.body = r.sizeMessage.body ++ serialize vector ∧
      size.toNat = vector.length ∧
      msg.pullComplex Entity size.toNat = some (vector, rest')

/-- The entities were read from a vector that only grew in the meantime. -/
structure Taken (r : Transfer) : Prop where
  sizeMessage :
    r.sizeMessage =
      Server.entitiesSizeMessage (UInt64.ofNat r.announced.length)
  short : r.announced.length ≤ maxFoodPerMap
  grown : r.announced <+: r.counted
  message : ∃ vector, r.announced <+: vector ∧
    (vector <+: r.counted ∨ r.counted <+: vector) ∧
    r.message =
      Server.entitiesMessage r.sizeMessage vector r.counted.length

section Taken

variable {r : Transfer}

/-- The announced number is the size of the vector at that moment. -/
theorem Taken.extract_size
    (h : r.Taken) :
    r.sizeMessage.extract UInt64 =
        some
          (UInt64.ofNat r.announced.length, r.sizeMessage.setBody []) ∧
      (UInt64.ofNat r.announced.length).toNat = r.announced.length := by
  have hshort := h.short
  have hlt : r.announced.length < 2 ^ 64 := by
    unfold maxFoodPerMap at hshort
    omega
  refine ⟨Message.extract_of_body_eq ?_, UInt64.toNat_ofNat_of_lt' hlt⟩
  rw [h.sizeMessage]
  rfl

/-- What is sent are the entities that were counted last. -/
theorem Taken.message_body
    {msg : Message MessageType}
    (h : r.Taken)
    (hmsg : r.message = some msg) :
    msg.body = r.sizeMessage.body ++ serialize r.counted := by
  obtain ⟨vector, _, hcomp, hsent⟩ := h.message
  rw [hsent, Server.entitiesMessage, Message.pushBackComplex] at hmsg
  split at hmsg
  · next hle =>
    have hprefix : r.counted <+: vector := by
      rcases hcomp with hvector | hcounted
      · obtain rfl := hvector.eq_of_length_le hle
        exact List.prefix_rfl
      · exact hcounted
    cases hmsg
    rw [← List.prefix_iff_eq_take.mp hprefix]
    rfl
  · cases hmsg

/-- If the vector has not grown, its entities are sent. -/
theorem Taken.exists_message
    (h : r.Taken)
    (heq : r.counted = r.announced) :
    ∃ msg, r.message = some msg := by
  obtain ⟨vector, hannounced, _, hsent⟩ := h.message
  have hle : r.counted.length ≤ vector.length := by
    rw [heq]
    exact hannounced.length_le
  rw [hsent, Server.entitiesMessage, Message.pushBackComplex, if_pos hle]
  exact ⟨_, rfl⟩

/-- Announced and sent entities agree exactly if the vector has not grown. -/
theorem Taken.agrees_iff
    (h : r.Taken) :
    r.Agrees ↔ r.counted = r.announced := by
  obtain ⟨hextract, hsize⟩ := h.extract_size
  constructor
  · rintro ⟨vector, _, size, rest, msg, rest', hannounced, hmsg, hbody, hlen, _⟩
    have hlength := congrArg List.length ((h.message_body hmsg).symm.trans hbody)
    have hpos := size_pos (α := Entity)
    simp only [List.length_append, length_serialize, Nat.add_left_cancel_iff]
      at hlength
    have hcounted : r.counted.length = vector.length :=
      Nat.eq_of_mul_eq_mul_left hpos hlength
    rw [hextract] at hannounced
    cases hannounced
    refine (h.grown.eq_of_length ?_).symm
    omega
  · intro heq
    obtain ⟨msg, hmsg⟩ := h.exists_message heq
    have hbody := h.message_body hmsg
    rw [heq] at hbody
    refine
      ⟨r.announced, by simp, _, _, msg, msg.setBody r.sizeMessage.body,
        hextract, hmsg, hbody, hsize, ?_⟩
    rw [hsize]
    refine Message.pullComplex_of_body_eq hbody ?_
    exact lt_of_le_of_lt (Nat.mul_le_mul_left _ h.short) (by decide)

end Taken

end Transfer

namespace Server

section Reads

variable {s s' : Server}

/-- What a handler has read of a vector, which is `current` by now. -/
structure Reads
    (current announced : List Entity) (entMsg : Message MessageType)
    (vector counted : Option (List Entity)) : Prop where
  sizeMessage : entMsg = entitiesSizeMessage (UInt64.ofNat announced.length)
  short : announced.length ≤ maxFoodPerMap
  grown : announced <+: current
  copied : ∀ v, vector = some v → announced <+: v ∧ v <+: current
  sized : ∀ k, counted = some k → announced <+: k ∧ k <+: current

theorem Reads.mono
    {current current' announced : List Entity} {entMsg : Message MessageType}
    {vector counted : Option (List Entity)}
    (h : Reads current announced entMsg vector counted)
    (hgrown : current <+: current') :
    Reads current' announced entMsg vector counted where
  sizeMessage := h.sizeMessage
  short := h.short
  grown := h.grown.trans hgrown
  copied v hv := ⟨(h.copied v hv).1, (h.copied v hv).2.trans hgrown⟩
  sized k hk := ⟨(h.sized k hk).1, (h.sized k hk).2.trans hgrown⟩

/-- What was read is what is sent. -/
theorem Reads.taken
    {current announced vector counted : List Entity}
    {entMsg : Message MessageType} {message : Option (Message MessageType)}
    (h : Reads current announced entMsg (some vector) (some counted))
    (hmsg : entitiesMessage entMsg vector counted.length = message)
    (c : ConnId) :
    Transfer.Taken ⟨c, announced, entMsg, counted, message⟩ := by
  obtain ⟨hannounced, hvector⟩ := h.copied vector rfl
  obtain ⟨hgrown, hcounted⟩ := h.sized counted rfl
  exact
    ⟨h.sizeMessage, h.short, hgrown, vector, hannounced,
      List.prefix_or_prefix_of_prefix hvector hcounted, hmsg.symm⟩

/-- What handlers have read and sent are states of vectors that only grow. -/
structure EntitiesInv (s : Server) : Prop where
  serving : ServingInv s
  reads : ∀ h announced entMsg vector counted, s.handler = some h →
    h.stage = .entities announced entMsg vector counted →
    ∃ current, s.incommingEntities[s.slot]? = some current ∧
      Reads current announced entMsg vector counted
  transfers : ∀ r ∈ s.transfers, r.Taken

/-- A handler that announces a size has found the vector of its own map. -/
theorem ServingInv.vecptr_eq_slot
    {map : Map} {vecptr : VecPtr}
    (h : ServingInv s)
    (hmap : s.environment.maps[s.slot]? = some map)
    (hptr : map.entitiesExternal = some vecptr) :
    vecptr = s.slot :=
  Option.some.inj (hptr.symm.trans (h.startup.pointers s.slot map hmap))

/-- Steps of `on_client_validated` read and send states of one vector. -/
theorem handlerStep_entitiesInv
    {hd : Handler} {e : HandlerEvent}
    (h : EntitiesInv s)
    (hserving : ServingInv s')
    (hh : s.handler = some hd)
    (hstep : HandlerStep s hd e s') :
    EntitiesInv s' := by
  cases hstep with
  | noMap => exact ⟨hserving, h.reads, h.transfers⟩
  | noVector => exact ⟨hserving, h.reads, h.transfers⟩
  | noSize => exact ⟨hserving, h.reads, h.transfers⟩
  | sendLayout =>
      refine ⟨hserving, ?_, h.transfers⟩
      intro h' announced entMsg vector counted hh' hstage'
      cases hh'
      cases hstage'
  | sendConfig =>
      refine ⟨hserving, ?_, h.transfers⟩
      intro h' announced entMsg vector counted hh' hstage'
      cases hh'
      cases hstage'
  | @sendEntitiesSize map vecptr current hstage hmap hptr hvector =>
      refine ⟨hserving, ?_, h.transfers⟩
      intro h' announced entMsg vector counted hh' hstage'
      cases hh'
      cases hstage'
      rw [h.serving.vecptr_eq_slot hmap hptr] at hvector
      exact
        ⟨current, hvector, rfl, h.serving.startup.vector_length hvector,
          List.prefix_rfl, fun _ hv => (by cases hv),
          fun _ hk => (by cases hk)⟩
  | @getVector announced vector entMsg counted hstage hvector =>
      refine ⟨hserving, ?_, h.transfers⟩
      intro h' announced' entMsg' vector' counted' hh' hstage'
      cases hh'
      cases hstage'
      obtain ⟨current, hcurrent, hreads⟩ :=
        h.reads hd announced entMsg none counted hh hstage
      obtain rfl := Option.some.inj (hvector.symm.trans hcurrent)
      refine
        ⟨vector, hvector, hreads.sizeMessage, hreads.short, hreads.grown, ?_,
          hreads.sized⟩
      intro v hv
      cases hv
      exact ⟨hreads.grown, List.prefix_rfl⟩
  | @getSize announced counted entMsg vector hstage hvector =>
      refine ⟨hserving, ?_, h.transfers⟩
      intro h' announced' entMsg' vector' counted' hh' hstage'
      cases hh'
      cases hstage'
      obtain ⟨current, hcurrent, hreads⟩ :=
        h.reads hd announced entMsg vector none hh hstage
      obtain rfl := Option.some.inj (hvector.symm.trans hcurrent)
      refine
        ⟨counted, hvector, hreads.sizeMessage, hreads.short, hreads.grown,
          hreads.copied, ?_⟩
      intro k hk
      cases hk
      exact ⟨hreads.grown, List.prefix_rfl⟩
  | @noEntities announced vector counted entMsg hstage hmsg =>
      refine ⟨hserving, h.reads, ?_⟩
      obtain ⟨current, _, hreads⟩ := h.reads hd _ _ _ _ hh hstage
      intro r hr
      rcases List.mem_append.mp hr with hold | hnew
      · exact h.transfers r hold
      · obtain rfl := List.mem_singleton.mp hnew
        exact hreads.taken hmsg hd.client
  | @sendEntities announced vector counted entMsg msg hstage hmsg =>
      obtain ⟨current, _, hreads⟩ := h.reads hd _ _ _ _ hh hstage
      refine ⟨hserving, fun _ _ _ _ _ hh' => (by cases hh'), ?_⟩
      intro r hr
      rcases List.mem_append.mp hr with hold | hnew
      · exact h.transfers r hold
      · obtain rfl := List.mem_singleton.mp hnew
        exact hreads.taken hmsg hd.client

/-- The handler of a connection leaves what was read and sent as it is. -/
theorem afterIo_entitiesInv
    {c : ConnId} {conn' : Connection MessageType} {u : Upcall MessageType}
    (h : EntitiesInv s)
    (hserving : ServingInv (s.afterIo c conn' u)) :
    EntitiesInv (s.afterIo c conn' u) := by
  cases u with
  | none => exact ⟨hserving, h.reads, h.transfers⟩
  | incoming msg => exact ⟨hserving, h.reads, h.transfers⟩
  | validated =>
      refine ⟨hserving, ?_, h.transfers⟩
      intro h' announced entMsg vector counted hh' hstage'
      cases hh'
      cases hstage'

/-- Every step keeps what was read and sent in line with the vectors. -/
theorem step_entitiesInv
    (s : Server) (e : ServerEvent) (s' : Server)
    (h : EntitiesInv s)
    (hstep : s.step e = some s') :
    EntitiesInv s' := by
  have hserving := step_servingInv s e s' h.serving hstep
  cases step_cases hstep with
  | startServer => exact ⟨hserving, h.reads, h.transfers⟩
  | startEnvironment => exact ⟨hserving, h.reads, h.transfers⟩
  | @environment randx randy env vectors henv =>
      refine ⟨hserving, ?_, h.transfers⟩
      intro hd announced entMsg vector counted hh hstage
      obtain ⟨current, hcurrent, hreads⟩ := h.reads hd _ _ _ _ hh hstage
      rcases (Environment.step_cases henv).vector hcurrent with
        hsame | ⟨_, entity, hpushed⟩
      · exact ⟨current, hsame, hreads⟩
      · exact ⟨_, hpushed, hreads.mono (List.prefix_append current [entity])⟩
  | fault => exact ⟨hserving, h.reads, h.transfers⟩
  | approve hidle =>
      refine ⟨hserving, ?_, h.transfers⟩
      intro hd _ _ _ _ hh
      rw [hidle] at hh
      cases hh
  | refuse => exact ⟨hserving, h.reads, h.transfers⟩
  | acceptFailed => exact h
  | io => exact afterIo_entitiesInv h hserving
  | handler hh hhandler =>
      exact handlerStep_entitiesInv h hserving hh hhandler
  | update => exact ⟨hserving, h.reads, h.transfers⟩

theorem entitiesInv_of_make
    {nmapSize : UInt64}
    (hmake : make nmapSize = .ok s) :
    EntitiesInv s := by
  have hserving := servingInv_of_make hmake
  obtain ⟨environment, _, rfl⟩ := exists_of_make hmake
  refine ⟨hserving, ?_, ?_⟩
  · exact fun _ _ _ _ _ hh => by cases hh
  · exact fun _ hr => by cases hr

end Reads

section Agreement

variable {s s' : Server}

/-- Whatever was announced to a client agrees with what it was sent. -/
def EntitiesAgree (s : Server) : Prop :=
  ∀ r ∈ s.transfers, r.Agrees

/-- No entity is pushed to the vector of a handler's map after its size was
announced and before its size is read again. -/
def NoPushBetween (s : Server) (e : ServerEvent) : Prop :=
  ∀ randx randy h announced entMsg vector,
    e = .environment randx randy → s.handler = some h →
    h.stage = .entities announced entMsg vector none →
    ¬ s.environment.pc.Feeds s.slot

/-- A handler has announced one state of a vector, and has counted another one
or would count it now. -/
def Counts (s : Server) (announced last : List Entity) : Prop :=
  ∃ h entMsg vector counted, s.handler = some h ∧
    h.stage = .entities announced entMsg vector counted ∧
    counted.or s.incommingEntities[s.slot]? = some last

/-- What is counted is what was announced. -/
structure UnchangedInv (s : Server) : Prop where
  entities : EntitiesInv s
  counts : ∀ announced last, s.Counts announced last → last = announced
  transfers : ∀ r ∈ s.transfers, r.counted = r.announced

/-- Steps of `on_client_validated` count what was announced. -/
theorem handlerStep_unchangedInv
    {hd : Handler} {e : HandlerEvent}
    (h : UnchangedInv s)
    (hentities : EntitiesInv s')
    (hh : s.handler = some hd)
    (hstep : HandlerStep s hd e s') :
    UnchangedInv s' := by
  cases hstep with
  | noMap => exact ⟨hentities, h.counts, h.transfers⟩
  | noVector => exact ⟨hentities, h.counts, h.transfers⟩
  | noSize => exact ⟨hentities, h.counts, h.transfers⟩
  | sendLayout =>
      refine ⟨hentities, ?_, h.transfers⟩
      rintro announced last ⟨h', entMsg, vector, counted, hh', hstage', hlast⟩
      cases hh'
      cases hstage'
  | sendConfig =>
      refine ⟨hentities, ?_, h.transfers⟩
      rintro announced last ⟨h', entMsg, vector, counted, hh', hstage', hlast⟩
      cases hh'
      cases hstage'
  | @sendEntitiesSize map vecptr current hstage hmap hptr hvector =>
      refine ⟨hentities, ?_, h.transfers⟩
      rintro announced last ⟨h', entMsg, vector, counted, hh', hstage', hlast⟩
      cases hh'
      cases hstage'
      rw [h.entities.serving.vecptr_eq_slot hmap hptr] at hvector
      exact Option.some.inj (hlast.symm.trans hvector)
  | @getVector announced vector entMsg counted hstage hvector =>
      refine ⟨hentities, ?_, h.transfers⟩
      rintro announced' last ⟨h', entMsg', v', k', hh', hstage', hlast⟩
      cases hh'
      cases hstage'
      exact h.counts announced last ⟨hd, _, _, _, hh, hstage, hlast⟩
  | @getSize announced counted entMsg vector hstage hvector =>
      refine ⟨hentities, ?_, h.transfers⟩
      rintro announced' last ⟨h', entMsg', v', k', hh', hstage', hlast⟩
      cases hh'
      cases hstage'
      obtain rfl := Option.some.inj hlast
      exact h.counts announced counted ⟨hd, _, _, _, hh, hstage, hvector⟩
  | @noEntities announced vector counted entMsg hstage hmsg =>
      refine ⟨hentities, h.counts, ?_⟩
      intro r hr
      rcases List.mem_append.mp hr with hold | hnew
      · exact h.transfers r hold
      · obtain rfl := List.mem_singleton.mp hnew
        exact h.counts announced counted ⟨hd, _, _, _, hh, hstage, rfl⟩
  | @sendEntities announced vector counted entMsg msg hstage hmsg =>
      refine ⟨hentities, ?_, ?_⟩
      · rintro _ _ ⟨_, _, _, _, hh', _⟩
        cases hh'
      · intro r hr
        rcases List.mem_append.mp hr with hold | hnew
        · exact h.transfers r hold
        · obtain rfl := List.mem_singleton.mp hnew
          exact h.counts announced counted ⟨hd, _, _, _, hh, hstage, rfl⟩

/-- Without a push in between, every step keeps the announced size. -/
theorem step_unchangedInv
    (s : Server) (e : ServerEvent) (s' : Server)
    (h : UnchangedInv s)
    (hquiet : NoPushBetween s e)
    (hstep : s.step e = some s') :
    UnchangedInv s' := by
  have hentities := step_entitiesInv s e s' h.entities hstep
  cases step_cases hstep with
  | startServer => exact ⟨hentities, h.counts, h.transfers⟩
  | startEnvironment => exact ⟨hentities, h.counts, h.transfers⟩
  | @environment randx randy env vectors henv =>
      refine ⟨hentities, ?_, h.transfers⟩
      rintro announced last ⟨hd, entMsg, vector, counted, hh, hstage, hlast⟩
      cases counted with
      | some k => exact h.counts announced last ⟨hd, _, _, _, hh, hstage, hlast⟩
      | none =>
          obtain ⟨current, hcurrent, _⟩ :=
            h.entities.reads hd _ _ _ _ hh hstage
          rcases (Environment.step_cases henv).vector hcurrent with
            hsame | ⟨hfeeds, _⟩
          · obtain rfl := Option.some.inj (hsame.symm.trans hlast)
            exact h.counts announced current ⟨hd, _, _, _, hh, hstage, hcurrent⟩
          · exact absurd hfeeds
              (hquiet randx randy hd announced entMsg vector rfl hh hstage)
  | fault => exact ⟨hentities, h.counts, h.transfers⟩
  | approve hidle =>
      refine ⟨hentities, ?_, h.transfers⟩
      rintro _ _ ⟨_, _, _, _, hh, _⟩
      rw [hidle] at hh
      cases hh
  | refuse => exact ⟨hentities, h.counts, h.transfers⟩
  | acceptFailed => exact h
  | @io c e conn conn' u hidle hconn hio =>
      cases u with
      | none => exact ⟨hentities, h.counts, h.transfers⟩
      | incoming msg => exact ⟨hentities, h.counts, h.transfers⟩
      | validated =>
          refine ⟨hentities, ?_, h.transfers⟩
          rintro announced last ⟨h', entMsg, vector, counted, hh', hstage', _⟩
          cases hh'
          cases hstage'
  | handler hh hhandler =>
      exact handlerStep_unchangedInv h hentities hh hhandler
  | update => exact ⟨hentities, h.counts, h.transfers⟩

theorem UnchangedInv.entitiesAgree
    (h : UnchangedInv s) :
    EntitiesAgree s := by
  intro r hr
  exact (h.entities.transfers r hr).agrees_iff.mpr (h.transfers r hr)

/-- More entities are counted, or were counted, than were announced. -/
def Torn (s : Server) : Prop :=
  (∃ announced last, s.Counts announced last ∧
      announced.length < last.length) ∨
    ∃ r ∈ s.transfers, r.announced.length < r.counted.length

/-- What was sent stays in the history. -/
theorem HandlerStep.transfers
    {h : Handler} {e : HandlerEvent}
    (hstep : HandlerStep s h e s') :
    s.transfers <+: s'.transfers := by
  cases hstep with
  | noMap => exact List.prefix_rfl
  | noVector => exact List.prefix_rfl
  | sendLayout => exact List.prefix_rfl
  | sendConfig => exact List.prefix_rfl
  | noSize => exact List.prefix_rfl
  | sendEntitiesSize => exact List.prefix_rfl
  | getVector => exact List.prefix_rfl
  | getSize => exact List.prefix_rfl
  | noEntities => exact List.prefix_append _ _
  | sendEntities => exact List.prefix_append _ _

/-- A handler counts on, or it sends what it has counted. -/
theorem HandlerStep.counts
    {hd : Handler} {e : HandlerEvent} {announced last : List Entity}
    (hstep : HandlerStep s hd e s')
    (hh : s.handler = some hd)
    (hcounts : s.Counts announced last) :
    s'.Counts announced last ∨
      ∃ r ∈ s'.transfers, r.announced = announced ∧ r.counted = last := by
  obtain ⟨h, entMsg, vector, counted, hh', hstage, hlast⟩ := hcounts
  obtain rfl := Option.some.inj (hh'.symm.trans hh)
  cases hstep with
  | noMap => exact Or.inl ⟨h, _, _, _, hh, hstage, hlast⟩
  | noVector => exact Or.inl ⟨h, _, _, _, hh, hstage, hlast⟩
  | noSize => exact Or.inl ⟨h, _, _, _, hh, hstage, hlast⟩
  | noEntities => exact Or.inl ⟨h, _, _, _, hh, hstage, hlast⟩
  | sendLayout hstage' => cases hstage.symm.trans hstage'
  | sendConfig hstage' => cases hstage.symm.trans hstage'
  | sendEntitiesSize hstage' => cases hstage.symm.trans hstage'
  | getVector hstage' =>
      cases hstage.symm.trans hstage'
      exact Or.inl ⟨_, _, _, _, rfl, rfl, hlast⟩
  | getSize hstage' hvector =>
      cases hstage.symm.trans hstage'
      exact Or.inl ⟨_, _, _, _, rfl, rfl, hvector.symm.trans hlast⟩
  | sendEntities hstage' =>
      cases hstage.symm.trans hstage'
      obtain rfl := Option.some.inj hlast
      exact Or.inr
        ⟨_, List.mem_append_right _ (List.mem_singleton.mpr rfl), rfl, rfl⟩

/-- A vector that is counted only grows. -/
theorem environment_torn
    {randx randy : Int} {env : Environment} {vectors : List (List Entity)}
    (h : Torn s)
    (henv :
      s.environment.step s.console s.incommingEntities randx randy =
        some (.ok (env, vectors))) :
    Torn { s with environment := env, incommingEntities := vectors } := by
  rcases h with ⟨announced, last, hcounts, hlt⟩ | hsent
  · obtain ⟨hd, entMsg, vector, counted, hh, hstage, hlast⟩ := hcounts
    left
    cases counted with
    | some k => exact ⟨announced, last, ⟨hd, _, _, _, hh, hstage, hlast⟩, hlt⟩
    | none =>
        rcases (Environment.step_cases henv).vector hlast with
          hsame | ⟨_, entity, hpushed⟩
        · exact ⟨announced, last, ⟨hd, _, _, _, hh, hstage, hsame⟩, hlt⟩
        · refine ⟨announced, _, ⟨hd, _, _, _, hh, hstage, hpushed⟩, ?_⟩
          rw [List.length_append]
          omega
  · exact Or.inr hsent

/-- No step makes up for what was announced. -/
theorem step_torn
    (s : Server) (e : ServerEvent) (s' : Server)
    (h : Torn s)
    (hstep : s.step e = some s') :
    Torn s' := by
  cases step_cases hstep with
  | startServer => exact h
  | startEnvironment => exact h
  | environment henv => exact environment_torn h henv
  | fault => exact h
  | approve hidle =>
      rcases h with ⟨_, _, ⟨_, _, _, _, hh, _⟩, _⟩ | hsent
      · rw [hidle] at hh
        cases hh
      · exact Or.inr hsent
  | refuse => exact h
  | acceptFailed => exact h
  | @io c e conn conn' u hidle hconn hio =>
      rcases h with ⟨announced, last, hcounts, hlt⟩ | ⟨r, hr, hlt⟩
      · obtain ⟨hd, entMsg, vector, counted, hh, hrest⟩ := hcounts
        rcases hidle with hmoves | hnone
        · cases upcall_of_movesBytes hio hmoves
          exact Or.inl ⟨announced, last, ⟨hd, _, _, _, hh, hrest⟩, hlt⟩
        · rw [hnone] at hh
          cases hh
      · obtain ⟨_, _, _, _, _, _, htransfers⟩ := afterIo_world s c conn' u
        exact Or.inr ⟨r, by rw [htransfers]; exact hr, hlt⟩
  | handler hh hhandler =>
      rcases h with ⟨announced, last, hcounts, hlt⟩ | ⟨r, hr, hlt⟩
      · rcases hhandler.counts hh hcounts with hcounts' | ⟨r, hr, rfl, rfl⟩
        · exact Or.inl ⟨announced, last, hcounts', hlt⟩
        · exact Or.inr ⟨r, hr, hlt⟩
      · exact Or.inr ⟨r, hhandler.transfers.subset hr, hlt⟩
  | update => exact h

/-- After a push in between, more entities are counted than were announced. -/
theorem torn_of_push
    (s : Server) (e : ServerEvent) (s' : Server)
    (h : EntitiesInv s)
    (hpush : ¬ NoPushBetween s e)
    (hstep : s.step e = some s') :
    Torn s' := by
  unfold NoPushBetween at hpush
  push Not at hpush
  obtain ⟨randx, randy, hd, announced, entMsg, vector, rfl, hh, hstage, hfeeds⟩ :=
    hpush
  obtain ⟨current, hcurrent, hreads⟩ := h.reads hd _ _ _ _ hh hstage
  cases step_cases hstep with
  | environment henv =>
      obtain ⟨entity, hpushed⟩ :=
        (Environment.step_cases henv).pushed hfeeds hcurrent
      have hle := hreads.grown.length_le
      refine Or.inl
        ⟨announced, _, ⟨hd, _, _, _, hh, hstage, hpushed⟩, ?_⟩
      rw [List.length_append, List.length_singleton]
      omega
  | fault hcause =>
      cases hcause with
      | environment henv =>
          exact absurd henv (Environment.step_ne_error_of_feeds hfeeds hcurrent)

/-- In a run of a new server in which no entity is pushed to a handler's vector
between the announcement of its size and the second look at its size, all that
was announced agrees with what was sent; and when no handler is at work, it
only agrees after such a run. -/
theorem entities_agree_iff
    {nmapSize : UInt64} {s₀ : Server}
    (hmake : make nmapSize = .ok s₀)
    (es : List ServerEvent) :
    (Meets step NoPushBetween s₀ es → Always step EntitiesAgree s₀ es) ∧
      ∀ s, run step s₀ es = some s → s.handler = none →
        (EntitiesAgree s ↔ Meets step NoPushBetween s₀ es) := by
  have h₀ := entitiesInv_of_make hmake
  have hunchanged₀ : UnchangedInv s₀ := by
    refine ⟨h₀, ?_, ?_⟩
    · obtain ⟨environment, _, rfl⟩ := exists_of_make hmake
      rintro _ _ ⟨_, _, _, _, hh, _⟩
      cases hh
    · obtain ⟨environment, _, rfl⟩ := exists_of_make hmake
      exact fun _ hr => by cases hr
  refine ⟨?_, ?_⟩
  · exact always_of_invariant step_unchangedInv
      (fun s h => h.entitiesAgree) hunchanged₀
  · intro s hrun hidle
    constructor
    · intro hagree
      rcases meets_or_of_run step_entitiesInv torn_of_push step_torn h₀ hrun with
        hmeets | ⟨_, _, ⟨_, _, _, _, hh, _⟩, _⟩ | ⟨r, hr, hlt⟩
      · exact hmeets
      · rw [hidle] at hh
        cases hh
      · have htaken :=
          (reachable_invariant step_entitiesInv h₀ ⟨es, hrun⟩).transfers r hr
        have hcounted := htaken.agrees_iff.mp (hagree r hr)
        rw [hcounted] at hlt
        exact absurd hlt (Nat.lt_irrefl _)
    · intro hmeets
      exact (run_invariant step_unchangedInv hunchanged₀ hmeets
        hrun).entitiesAgree

/-- While the environment starts up, no handler runs. -/
theorem meets_startup
    (h : s.handler = none)
    (rs : List (Int × Int)) :
    Meets step NoPushBetween s (startup rs) := by
  refine meets_of_invariant (I := fun s => s.handler = none) ?_ ?_ h
  · intro s e he s' hidle hstep
    cases step_cases hstep with
    | startServer => exact hidle
    | startEnvironment => exact hidle
    | environment => exact hidle
    | fault => exact hidle
    | approve => exact hidle
    | refuse => exact hidle
    | acceptFailed => exact hidle
    | io => simp [startup] at he
    | handler => simp [startup] at he
    | update => exact hidle
  · intro s e _ hidle _ _ _ _ _ _ _ hh
    rw [hidle] at hh
    cases hh

/-- What the environment's thread does not do pushes nothing. -/
theorem meets_without_environment
    {es : List ServerEvent}
    (h : ∀ randx randy, ServerEvent.environment randx randy ∉ es)
    (s : Server) :
    Meets step NoPushBetween s es := by
  refine meets_of_forall ?_ s
  rintro s e he randx randy _ _ _ _ rfl
  exact absurd he (h randx randy)

/-- A client joins, and is told how many entities there are. -/
def joinAndAnnounce : List ServerEvent :=
  newClient 0 1 ++ ([.io 0 (.readDone 0)] ++ announce)

/-- The only map of a server is announced to its first client. -/
theorem exists_run_announced
    {s₀ : Server} {rs : List (Int × Int)} {environment : Environment}
    {vectors : List (List Entity)} {vector : List Entity}
    (hmake : make 1 = .ok s₀)
    (hstartup :
      run step s₀ (startup rs) = some (started 1 environment vectors))
    (hlength : environment.maps.length = 1)
    (hvector : vectors[0]? = some vector) :
    ∃ s, run step s₀ (startup rs ++ joinAndAnnounce) = some s ∧
      s.crash = none ∧ s.environment = environment ∧
      s.incommingEntities = vectors ∧ s.slot = 0 ∧
      s.handler =
        some
          ⟨0,
            .entities vector
              (entitiesSizeMessage (UInt64.ofNat vector.length))
              none none⟩ := by
  obtain ⟨s₂, hrun₂, hjoins, hslot, hserving⟩ :=
    exists_run_first_client hmake (by decide) hstartup
  have hdeq : s₂.deqConnections = [0] := hjoins.deqConnections
  obtain ⟨map, vector', hmap, hptr, hvector'⟩ :=
    hserving.exists_map hjoins.handler
      (by rw [hjoins.environment, hdeq]; exact hlength.ge)
  rw [hslot, hjoins.incommingEntities] at hvector'
  obtain rfl := Option.some.inj (hvector.symm.trans hvector')
  have hvector₂ : s₂.incommingEntities[s₂.slot]? = some vector := by
    rw [hslot, hjoins.incommingEntities]
    exact hvector
  obtain ⟨s₃, hrun₃, hserves, hh⟩ :=
    run_announce hjoins.crash hjoins.handler hmap hptr hvector₂
  refine
    ⟨s₃, ?_, hserves.crash,
      hserves.world.environment.trans hjoins.environment,
      hserves.world.incommingEntities.trans hjoins.incommingEntities,
      hserves.world.slot.trans hslot, hh⟩
  rw [joinAndAnnounce, ← List.append_assoc, ← List.append_assoc,
    run_append hrun₂, hrun₃]

/-- Once the environment has started up, a client is sent all entities of its
map. -/
theorem entities_agree_iff_one_client :
    ∃ s₀ s es r, make 1 = .ok s₀ ∧ run step s₀ es = some s ∧
      r ∈ s.transfers ∧ r.announced.length = maxFoodPerMap ∧
      Always step EntitiesAgree s₀ es := by
  obtain ⟨s₀, hmake⟩ : ∃ s₀, make 1 = .ok s₀ := ⟨_, rfl⟩
  obtain ⟨rs, environment, vectors, hstartup, hinv, hpc, hlength⟩ :=
    exists_startup hmake (by decide) (by decide)
  have hone : vectors.length = 1 := hinv.vectors_length
  have hvector := List.getElem?_eq_getElem (show 0 < vectors.length by omega)
  have hfed := hinv.fed 0 _ hvector
  generalize vectors[0] = vector at hvector hfed
  rw [hpc] at hfed
  obtain ⟨s₁, hrun₁, hcrash, _, hvectors, hslot, hh⟩ :=
    exists_run_announced hmake hstartup hlength hvector
  obtain ⟨s₂, msg, hrun₂, _, _, htransfers⟩ :=
    run_readEntities hcrash hh (by rw [hslot, hvectors]; exact hvector)
  have hidle : s₀.handler = none := by
    obtain ⟨environment, _, rfl⟩ := exists_of_make hmake
    rfl
  have hjoin : Meets step NoPushBetween (started 1 environment vectors)
      joinAndAnnounce :=
    meets_without_environment
      (by simp [joinAndAnnounce, newClient, announce]) _
  have hread : Meets step NoPushBetween s₁ readEntities :=
    meets_without_environment (by simp [readEntities]) s₁
  have hmem :
      (⟨0, vector, entitiesSizeMessage (UInt64.ofNat vector.length), vector,
        some msg⟩ : Transfer) ∈ (s₂.finish 0).transfers := by
    show _ ∈ s₂.transfers
    rw [htransfers]
    exact List.mem_append_right _ (List.mem_singleton.mpr rfl)
  exact
    ⟨s₀, s₂.finish 0, _, _, hmake,
      (run_append hrun₁ readEntities).trans hrun₂, hmem, hfed,
      (entities_agree_iff hmake _).1
        (meets_append
          (meets_append (meets_startup hidle rs) hstartup hjoin) hrun₁ hread)⟩

/-- The environment's thread pushes its first entity after the number of
entities was announced: none are announced, and one is sent. -/
theorem entities_agree_iff_fails_on_push :
    ∃ s₀ s rs r e, make 1 = .ok s₀ ∧
      run step s₀
          ((startup rs ++ joinAndAnnounce) ++
            .environment 1 1 :: readEntities) = some s ∧
      r ∈ s.transfers ∧ r.announced = [] ∧ r.counted = [e] ∧
      ¬ EntitiesAgree s := by
  obtain ⟨s₀, hmake⟩ : ∃ s₀, make 1 = .ok s₀ := ⟨_, rfl⟩
  obtain ⟨p, hinv₀, hroomy₀, hpc₀, hstarted⟩ :=
    exists_run_startup hmake (by decide) (by decide)
  obtain ⟨rs, ⟨environment, vectors⟩, hrun₀, hinv, hroomy, hpc, hlength⟩ :=
    Environment.exists_run_unfed initialConsole hinv₀ hroomy₀
      (by rw [hpc₀]; trivial)
  have hone : vectors.length = 1 := hinv.vectors_length
  have hvector : vectors[0]? = some [] := by
    have hv := List.getElem?_eq_getElem (show 0 < vectors.length by omega)
    have hfed := hinv.fed 0 _ hv
    rw [hpc] at hfed
    rw [hv, List.length_eq_zero_iff.mp hfed]
  obtain ⟨s₁, hrun₁, hcrash₁, henv₁, hvectors₁, hslot₁, hh₁⟩ :=
    exists_run_announced hmake (hstarted rs _ hrun₀) hlength hvector
  obtain ⟨⟨env, vectors'⟩, hpush⟩ :
      ∃ q, environment.step s₁.console vectors 1 1 = some (.ok q) := by
    obtain ⟨q, hpush, _⟩ :=
      Environment.createEntities_progress hinv hroomy hpc
    exact ⟨q, hpush⟩
  obtain ⟨e, he⟩ :=
    (Environment.step_cases hpush).pushed
      ⟨0, hpc, by decide⟩ hvector
  let s₂ : Server :=
    { s₁ with environment := env, incommingEntities := vectors' }
  have hstep₂ : s₁.step (.environment 1 1) = some s₂ := by
    simp [step, hcrash₁, henv₁, hvectors₁, hpush, s₂]
  have hvector₂ : s₂.incommingEntities[s₂.slot]? = some [e] := by
    show vectors'[s₁.slot]? = some [e]
    rw [hslot₁]
    exact he
  obtain ⟨s₃, msg, hrun₃, _, _, htransfers⟩ :=
    run_readEntities (s := s₂) hcrash₁ hh₁ hvector₂
  have hrun :=
    (run_append hrun₁ _).trans ((run_cons_of_step hstep₂ _).trans hrun₃)
  have hmem : (⟨0, [], entitiesSizeMessage 0, [e], some msg⟩ : Transfer) ∈
      (s₃.finish 0).transfers := by
    show _ ∈ s₃.transfers
    rw [htransfers]
    exact List.mem_append_right _ (List.mem_singleton.mpr rfl)
  refine ⟨s₀, s₃.finish 0, rs, _, e, hmake, hrun, hmem, rfl, rfl, ?_⟩
  intro hagree
  have htaken :=
    (reachable_invariant step_entitiesInv (entitiesInv_of_make hmake)
      ⟨_, hrun⟩).transfers _ hmem
  cases htaken.agrees_iff.mp (hagree _ hmem)

end Agreement

end Server

end SpeciesSimulator
