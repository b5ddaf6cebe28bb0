import SpeciesSimulator.ServerGate

/-!
# The slots of a server

`on_client_connect` counts the elements of `m_deqConnections` against the number
of maps.  A connection gets there in the accept handler and stays there for good:
the handlers that close a socket do not look at `m_deqConnections`.

Main facts:
* `step_isOpen`: a socket is closed by a handler of its own connection, and is
  not opened again;
* `step_leaked`: a slot whose socket is closed is lost for good;
* `refuses_only_full_iff`: a client is refused while all slots are in use by open
  sockets, if and only if no slot was lost before.
-/

namespace SpeciesSimulator

open ByteLayout Transition ListSlots

namespace Connection

section Open

/-- The handler closes the socket: an operation has failed, or the reply is
wrong. -/
def Closes (c : Connection MessageType) : IoEvent → Prop
  | .runClose => True
  | .connectFailed isOpen => isOpen = false
  | .readFail _ => True
  | .writeFail _ => True
  | .readDone i =>
      ∃ r, c.reads[i]? = some r ∧ r.payload = .validation ∧
        (ofBytes r.got : UInt64) ≠ c.nHandshakeCheck
  | _ => False

variable {c c' : Connection MessageType}

theorem onSend_isOpen (msg : Message MessageType) :
    (c.onSend msg).isOpen = c.isOpen :=
  (hands_onSend c msg).isOpen

theorem onWrite_isOpen
    (howner : c.nowner = .server)
    (w : PendingWrite) :
    (c.onWrite w).isOpen = c.isOpen := by
  cases hm : w.isMessage with
  | true => exact (hands_onWrite c hm).isOpen
  | false => rw [onWrite_validation_of_server howner hm]

/-- A reply that is right, a header or a body leave the socket open. -/
theorem onRead_isOpen
    {r : PendingRead} {u : Upcall MessageType}
    (howner : c.nowner = .server)
    (hon : c.onRead r = (c', u)) :
    c'.isOpen =
      if r.payload = .validation ∧
          (ofBytes r.got : UInt64) ≠ c.nHandshakeCheck then false
      else c.isOpen := by
  cases onRead_cases hon with
  | validated _ _ hreply => simp [hreply]
  | refused hp _ hreply => simp [hp, hreply, close]
  | reply _ hclient =>
      rw [howner] at hclient
      cases hclient
  | header hp => simp [hp, mfReadBody, asyncRead]
  | noBody hp => simp [hp, mfReadHeader, asyncRead]
  | body hp => simp [hp, mfReadHeader, asyncRead]

/-- What a handler of a server's connection does to the socket. -/
theorem ioStep_isOpen
    {e : IoEvent} {u : Upcall MessageType}
    (hside : ServerSide c)
    (hio : IoStep c e c' u) :
    (c.Closes e ∧ c'.isOpen = false) ∨ (¬ c.Closes e ∧ c'.isOpen = c.isOpen) := by
  cases hio with
  | runSend hmsg => exact Or.inr ⟨id, onSend_isOpen _⟩
  | runClose hclosing => exact Or.inl ⟨trivial, rfl⟩
  | connected hconn =>
      rw [hside.connecting] at hconn
      cases hconn
  | connectFailed hconn =>
      rw [hside.connecting] at hconn
      cases hconn
  | recv => exact Or.inr ⟨id, rfl⟩
  | @readDone i r c' u hr hfull hon =>
      have hopen := onRead_isOpen (c := c.dropRead i) hside.owner hon
      by_cases hreply :
          r.payload = .validation ∧
            (ofBytes r.got : UInt64) ≠ c.nHandshakeCheck
      · refine Or.inl ⟨⟨r, hr, hreply⟩, ?_⟩
        rw [hopen]
        exact if_pos hreply
      · refine Or.inr ⟨?_, ?_⟩
        · rintro ⟨r', hr', hreply'⟩
          obtain rfl := Option.some.inj (hr.symm.trans hr')
          exact hreply hreply'
        · rw [hopen]
          exact if_neg hreply
  | readFail => exact Or.inl ⟨trivial, rfl⟩
  | transfer => exact Or.inr ⟨id, rfl⟩
  | writeDone =>
      exact Or.inr ⟨id, onWrite_isOpen (c := c.dropWrite _) hside.owner _⟩
  | writeFail => exact Or.inl ⟨trivial, rfl⟩

end Open

end Connection

namespace Server

section Model

/-- The registered connections whose sockets are open. -/
def openConnections (s : Server) : List ConnId :=
  s.deqConnections.filter fun c =>
    match s.connections[c]? with
    | some conn => conn.isOpen
    | none => false

/-- `on_client_connect` would refuse a client now. -/
def Refuses (s : Server) : Prop :=
  s.crash = none ∧ s.listening = true ∧ s.handler = none ∧
    ¬ s.deqConnections.length < s.nMapsCount.toNat

/-- A client is only refused if there is an open socket for every map. -/
def RefusesOnlyFull (s : Server) : Prop :=
  s.Refuses → s.nMapsCount.toNat ≤ s.openConnections.length

/-- The step does not close the socket of a registered connection. -/
def KeepsOpen (s : Server) : ServerEvent → Prop
  | .io c e =>
      ∀ conn, s.connections[c]? = some conn → c ∈ s.deqConnections →
        ¬ conn.Closes e
  | _ => True

/-- The socket of a registered connection is closed. -/
def Leaked (s : Server) : Prop :=
  ∃ c ∈ s.deqConnections, ∃ conn, s.connections[c]? = some conn ∧
    conn.isOpen = false

/-- The registry never has more connections than there are maps. -/
structure OpenInv (s : Server) : Prop where
  gates : GateInv s
  room : s.deqConnections.length ≤ s.nMapsCount.toNat

end Model

section Steps

variable {s s' : Server} {e : ServerEvent}

/-- A connection is registered in the accept handler only, with an open socket;
nobody is taken out. -/
theorem step_deqConnections
    (hstep : s.step e = some s') :
    s'.nMapsCount = s.nMapsCount ∧
      (s'.deqConnections = s.deqConnections ∨
        s.deqConnections.length < s.nMapsCount.toNat ∧
          s'.deqConnections = s.deqConnections ++ [s.connections.length] ∧
          ∃ conn, s'.connections = s.connections ++ [conn] ∧
            conn.isOpen = true) := by
  cases step_cases hstep with
  | approve hidle hroom =>
      exact ⟨rfl, Or.inr ⟨hroom, rfl, _, rfl, rfl⟩⟩
  | @io c e conn conn' u hidle hconn hio =>
      cases u with
      | none => exact ⟨rfl, Or.inl rfl⟩
      | incoming msg => exact ⟨rfl, Or.inl rfl⟩
      | validated => exact ⟨rfl, Or.inl rfl⟩
  | handler hh hhandler =>
      have hworld := hhandler.sameWorld
      exact ⟨hworld.nMapsCount, Or.inl hworld.deqConnections⟩
  | startServer => exact ⟨rfl, Or.inl rfl⟩
  | startEnvironment => exact ⟨rfl, Or.inl rfl⟩
  | environment => exact ⟨rfl, Or.inl rfl⟩
  | fault => exact ⟨rfl, Or.inl rfl⟩
  | refuse => exact ⟨rfl, Or.inl rfl⟩
  | acceptFailed => exact ⟨rfl, Or.inl rfl⟩
  | update => exact ⟨rfl, Or.inl rfl⟩

/-- `on_client_validated` does not touch the sockets. -/
theorem handlerStep_isOpen
    {hd : Handler} {he : HandlerEvent} {c : ConnId}
    {conn : Connection MessageType}
    (hstep : HandlerStep s hd he s')
    (hconn : s.connections[c]? = some conn) :
    ∃ conn', s'.connections[c]? = some conn' ∧ conn'.isOpen = conn.isOpen := by
  rcases hstep.connections with hsame | ⟨f, hmodify, msg, hf⟩
  · rw [hsame]
    exact ⟨conn, hconn, rfl⟩
  · have hopen : ∀ conn, (f conn).isOpen = conn.isOpen := by
      intro conn
      rcases hf with rfl | rfl
      · rfl
      · rfl
    rw [hmodify, List.getElem?_modify, hconn]
    refine ⟨_, rfl, ?_⟩
    split
    · exact hopen conn
    · rfl

/-- A socket is closed by a handler of its own connection, or stays as it is. -/
theorem step_isOpen
    {c : ConnId} {conn : Connection MessageType}
    (h : GateInv s)
    (hstep : s.step e = some s')
    (hconn : s.connections[c]? = some conn) :
    ∃ conn', s'.connections[c]? = some conn' ∧
      ((∃ e₀, e = .io c e₀ ∧ conn.Closes e₀) ∧ conn'.isOpen = false ∨
        ¬ (∃ e₀, e = .io c e₀ ∧ conn.Closes e₀) ∧
          conn'.isOpen = conn.isOpen) := by
  have hlt : c < s.connections.length :=
    (List.getElem?_eq_some_iff.mp hconn).1
  have hquiet :
      (∀ e₀, e ≠ .io c e₀) → s'.connections[c]? = some conn →
        ∃ conn', s'.connections[c]? = some conn' ∧
          ((∃ e₀, e = .io c e₀ ∧ conn.Closes e₀) ∧ conn'.isOpen = false ∨
            ¬ (∃ e₀, e = .io c e₀ ∧ conn.Closes e₀) ∧
              conn'.isOpen = conn.isOpen) := by
    intro hne hsame
    refine ⟨conn, hsame, Or.inr ⟨?_, rfl⟩⟩
    rintro ⟨e₀, he, _⟩
    exact hne e₀ he
  have hkept :
      ∀ new : Connection MessageType,
        (s.connections ++ [new])[c]? = some conn := by
    intro new
    rw [List.getElem?_append_left hlt]
    exact hconn
  cases step_cases hstep with
  | startServer => exact hquiet (by simp) hconn
  | startEnvironment => exact hquiet (by simp) hconn
  | environment => exact hquiet (by simp) hconn
  | fault hcause => exact hquiet (hcause.ne_io c) hconn
  | acceptFailed => exact hquiet (by simp) hconn
  | update => exact hquiet (by simp) hconn
  | approve => exact hquiet (by simp) (hkept _)
  | refuse => exact hquiet (by simp) (hkept _)
  | handler hh hhandler =>
      obtain ⟨conn', hconn', hopen⟩ := handlerStep_isOpen hhandler hconn
      refine ⟨conn', hconn', Or.inr ⟨?_, hopen⟩⟩
      rintro ⟨e₀, he, _⟩
      cases he
  | @io c₁ e₁ conn₁ conn₁' u hidle hconn₁ hio =>
      by_cases hc : c₁ = c
      · subst c₁
        obtain rfl := Option.some.inj (hconn.symm.trans hconn₁)
        refine ⟨conn₁', ?_, ?_⟩
        · rw [afterIo_connections, List.getElem?_set_self hlt]
        · have hside := (h.gates c conn hconn).1
          rcases Connection.ioStep_isOpen hside hio with
            ⟨hcloses, hclosed⟩ | ⟨hkeeps, hopen⟩
          · exact Or.inl ⟨⟨e₁, rfl, hcloses⟩, hclosed⟩
          · refine Or.inr ⟨?_, hopen⟩
            rintro ⟨e₀, he, hcloses⟩
            cases he
            exact hkeeps hcloses
      · refine hquiet ?_ ?_
        · intro e₀ he
          cases he
          exact hc rfl
        · rw [afterIo_connections, List.getElem?_set_ne hc]
          exact hconn

end Steps

section Slots

variable {s s' : Server} {e : ServerEvent}

theorem OpenInv.step
    (h : OpenInv s)
    (hstep : s.step e = some s') :
    OpenInv s' := by
  refine ⟨step_gateInv s e s' h.gates hstep, ?_⟩
  obtain ⟨hcount, hdeq | ⟨hroom, hdeq, _⟩⟩ := step_deqConnections hstep
  · rw [hdeq, hcount]
    exact h.room
  · rw [hdeq, hcount, List.length_append, List.length_singleton]
    exact hroom

theorem openInv_of_make
    {nmapSize : UInt64}
    (hmake : make nmapSize = .ok s) :
    OpenInv s := by
  refine ⟨gateInv_of_make hmake, ?_⟩
  obtain ⟨environment, _, rfl⟩ := exists_of_make hmake
  exact Nat.zero_le _

/-- Every slot is in use, if no socket is closed. -/
theorem length_openConnections
    (h : OpenInv s)
    (hopen : ¬ s.Leaked) :
    s.openConnections.length = s.deqConnections.length := by
  unfold openConnections
  rw [List.filter_eq_self.mpr]
  intro c hc
  have hconn := List.getElem?_eq_getElem (h.gates.approved c hc)
  rw [hconn]
  by_contra hclosed
  exact hopen ⟨c, hc, _, hconn, by simpa using hclosed⟩

/-- A lost slot is missing. -/
theorem length_openConnections_lt
    (hleaked : s.Leaked) :
    s.openConnections.length < s.deqConnections.length := by
  obtain ⟨c, hc, conn, hconn, hclosed⟩ := hleaked
  unfold openConnections
  rw [List.length_filter_lt_length_iff_exists]
  refine ⟨c, hc, ?_⟩
  rw [hconn]
  simp [hclosed]

/-- A slot is lost by closing the socket of a registered connection. -/
theorem step_not_leaked
    (h : OpenInv s)
    (hopen : ¬ s.Leaked)
    (hkeeps : s.KeepsOpen e)
    (hstep : s.step e = some s') :
    ¬ s'.Leaked := by
  rintro ⟨c, hc, conn', hconn', hclosed⟩
  have hold (hc : c ∈ s.deqConnections) : False := by
    have hconn := List.getElem?_eq_getElem (h.gates.approved c hc)
    obtain ⟨conn₁, hconn₁, hcloses⟩ := step_isOpen h.gates hstep hconn
    obtain rfl := Option.some.inj (hconn₁.symm.trans hconn')
    rcases hcloses with ⟨⟨e₀, rfl, hcloses⟩, _⟩ | ⟨_, hsame⟩
    · exact hkeeps _ hconn hc hcloses
    · exact hopen ⟨c, hc, _, hconn, hsame.symm.trans hclosed⟩
  obtain ⟨_, hdeq | ⟨_, hdeq, conn, hconnections, hisOpen⟩⟩ :=
    step_deqConnections hstep
  · rw [hdeq] at hc
    exact hold hc
  · rw [hdeq] at hc
    rcases List.mem_append.mp hc with hc | hc
    · exact hold hc
    · obtain rfl := List.mem_singleton.mp hc
      rw [hconnections, List.getElem?_concat_length] at hconn'
      obtain rfl := Option.some.inj hconn'
      rw [hisOpen] at hclosed
      cases hclosed

/-- A handler that closes the socket of a registered connection loses a slot. -/
theorem leaked_of_not_keepsOpen
    (h : OpenInv s)
    (hcloses : ¬ s.KeepsOpen e)
    (hstep : s.step e = some s') :
    s'.Leaked := by
  unfold KeepsOpen at hcloses
  split at hcloses
  · rename_i c e₀
    simp only [Classical.not_imp, not_forall, not_not] at hcloses
    obtain ⟨conn, hconn, hc, hcloses⟩ := hcloses
    obtain ⟨conn', hconn', hclosed⟩ := step_isOpen h.gates hstep hconn
    have hdeq : s'.deqConnections = s.deqConnections := by
      obtain ⟨_, hdeq | ⟨_, hdeq, conn₁, hconnections, _⟩⟩ :=
        step_deqConnections hstep
      · exact hdeq
      · cases step_cases hstep with
        | @io c e conn conn' u hidle hconn hio =>
            exact afterIo_deqConnections s c conn' u
        | fault => rfl
    refine ⟨c, by rw [hdeq]; exact hc, conn', hconn', ?_⟩
    rcases hclosed with ⟨_, hclosed⟩ | ⟨hnot, _⟩
    · exact hclosed
    · exact absurd ⟨e₀, rfl, hcloses⟩ hnot
  · exact absurd trivial hcloses

/-- It is lost for good. -/
theorem step_leaked
    (h : OpenInv s)
    (hleaked : s.Leaked)
    (hstep : s.step e = some s') :
    s'.Leaked := by
  obtain ⟨c, hc, conn, hconn, hclosed⟩ := hleaked
  obtain ⟨conn', hconn', hsame⟩ := step_isOpen h.gates hstep hconn
  refine ⟨c, ?_, conn', hconn', ?_⟩
  · obtain ⟨_, hdeq | ⟨_, hdeq, _⟩⟩ := step_deqConnections hstep
    · rw [hdeq]
      exact hc
    · rw [hdeq]
      exact List.mem_append_left _ hc
  · rcases hsame with ⟨_, hclosed'⟩ | ⟨_, hsame⟩
    · exact hclosed'
    · exact hsame.trans hclosed

/-- In a state with full slots, they are all in use if and only if none is
lost. -/
theorem openConnections_iff
    (h : OpenInv s)
    (hrefuses : s.Refuses) :
    s.nMapsCount.toNat ≤ s.openConnections.length ↔ ¬ s.Leaked := by
  have hfull := hrefuses.2.2.2
  have hroom := h.room
  constructor
  · intro hle hleaked
    have hlt := length_openConnections_lt hleaked
    omega
  · intro hopen
    rw [length_openConnections h hopen]
    omega

end Slots

section Runs

variable {nmapSize : UInt64} {s₀ s : Server}

/-- Nobody is registered in a new server. -/
theorem not_leaked_of_make
    (hmake : make nmapSize = .ok s₀) :
    OpenInv s₀ ∧ ¬ s₀.Leaked := by
  refine ⟨openInv_of_make hmake, ?_⟩
  obtain ⟨environment, _, rfl⟩ := exists_of_make hmake
  rintro ⟨c, hc, _⟩
  cases hc

/-- If no socket of a registered connection is closed during a run, clients are
only refused in states in which there is an open socket for every map.  In a
state that refuses a client, this is only so after such a run. -/
theorem refuses_only_full_iff
    (hmake : make nmapSize = .ok s₀)
    (es : List ServerEvent) :
    (Meets step KeepsOpen s₀ es → Always step RefusesOnlyFull s₀ es) ∧
      ∀ s, run step s₀ es = some s → s.Refuses →
        (s.nMapsCount.toNat ≤ s.openConnections.length ↔
          Meets step KeepsOpen s₀ es) := by
  have h₀ := not_leaked_of_make hmake
  have hpres :
      ∀ s e s', OpenInv s ∧ ¬ s.Leaked → KeepsOpen s e → step s e = some s' →
        OpenInv s' ∧ ¬ s'.Leaked :=
    fun _ _ _ h hkeeps hstep =>
      ⟨h.1.step hstep, step_not_leaked h.1 h.2 hkeeps hstep⟩
  refine ⟨?_, ?_⟩
  · refine always_of_invariant hpres ?_ h₀
    intro s h hrefuses
    exact (openConnections_iff h.1 hrefuses).mpr h.2
  · intro s hrun hrefuses
    have hslots : OpenInv s :=
      reachable_invariant (fun _ _ _ h hstep => h.step hstep) h₀.1 ⟨es, hrun⟩
    rw [openConnections_iff hslots hrefuses]
    constructor
    · intro hopen
      have hleave :
          ∀ s e s', OpenInv s → ¬ KeepsOpen s e → step s e = some s' →
            OpenInv s' ∧ s'.Leaked :=
        fun _ _ _ h hcloses hstep =>
          ⟨h.step hstep, leaked_of_not_keepsOpen h hcloses hstep⟩
      have hkeep :
          ∀ s e s', OpenInv s ∧ s.Leaked → step s e = some s' →
            OpenInv s' ∧ s'.Leaked :=
        fun _ _ _ h hstep => ⟨h.1.step hstep, step_leaked h.1 h.2 hstep⟩
      rcases meets_or_of_run (I := OpenInv)
          (fun _ _ _ h hstep => h.step hstep) hleave hkeep h₀.1 hrun with
        hmeets | hleaked
      · exact hmeets
      · exact absurd hleaked.2 hopen
    · intro hmeets
      exact (run_invariant hpres h₀ hmeets hrun).2

/-- The only map is in use by a client whose socket is open. -/
theorem refuses_only_full_iff_one_client :
    ∃ s₀ s, make 1 = .ok s₀ ∧
      run step s₀ [.startServer, .accept 1] = some s ∧
      s.Refuses ∧ s.nMapsCount.toNat ≤ s.openConnections.length := by
  have hrun :
      ∃ s₀ s, make 1 = .ok s₀ ∧
        run step s₀ [.startServer, .accept 1] = some s ∧ s.Refuses :=
    ⟨_, _, rfl, rfl, rfl, rfl, rfl, by decide⟩
  obtain ⟨s₀, s, hmake, hrun, hrefuses⟩ := hrun
  refine ⟨s₀, s, hmake, hrun, hrefuses, ?_⟩
  refine ((refuses_only_full_iff hmake _).2 s hrun hrefuses).mpr ?_
  exact meets_cons trivial fun _ _ => meets_cons trivial fun _ _ => trivial

/-- The client of the only map gives a wrong reply: its socket is closed, and
the next client is refused. -/
theorem refuses_only_full_iff_fails_on_wrong_reply :
    ∃ s₀ s, make 1 = .ok s₀ ∧
      run step s₀
          [.startServer, .accept 1, .io 0 (.recv 0 (toBytes (0 : UInt64))),
            .io 0 (.readDone 0)] = some s ∧
      s.Refuses ∧ s.openConnections = [] ∧ ¬ s.RefusesOnlyFull := by
  have hrefuses :
      ∃ s₀ s, make 1 = .ok s₀ ∧
        run step s₀
            [.startServer, .accept 1, .io 0 (.recv 0 (toBytes (0 : UInt64))),
              .io 0 (.readDone 0)] = some s ∧
        s.Refuses ∧ s.openConnections = [] ∧ s.nMapsCount = 1 :=
    ⟨_, _, rfl, rfl, ⟨rfl, rfl, rfl, by decide⟩, rfl, rfl⟩
  obtain ⟨s₀, s, hmake, hrun, hrefuses, hopen, hcount⟩ := hrefuses
  refine ⟨s₀, s, hmake, hrun, hrefuses, hopen, fun hfull => ?_⟩
  have hle := hfull hrefuses
  rw [hopen, hcount] at hle
  exact absurd hle (by decide)

end Runs

end Server

end SpeciesSimulator
