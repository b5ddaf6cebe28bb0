import SpeciesSimulator.NetLinkProgress
import SpeciesSimulator.Server

/-!
# From the readers to `on_message`

All connections of a server share one queue, from which `update` passes messages
to `on_message`.  Readers push at any time, in any order of the connections.

Main facts:
* `step_logged`: what was passed on together with what is in the queue is, client
  by client, what its connection has delivered;
* `dispatched_in_order`: so `on_message` gets the messages of each client in
  order, none of them twice, and leaves none out.
-/

namespace SpeciesSimulator

open ByteLayout Transition

namespace Server

section Model

/-- What `on_message` is called with in a step. -/
def taken (s : Server) : ServerEvent → List (ConnId × Message MessageType)
  | .update => s.qMessagesIn.take 1
  | _ => []

/-- What `on_message` is called with in a run. -/
def dispatched (s : Server) :
    List ServerEvent → List (ConnId × Message MessageType)
  | [] => []
  | e :: es =>
      s.taken e ++
        match s.step e with
        | some s' => s'.dispatched es
        | none => []

/-- The messages of one client. -/
def fromClient
    (c : ConnId) (ps : List (ConnId × Message MessageType)) :
    List (Message MessageType) :=
  (ps.filter fun p => p.1 == c).map Prod.snd

/-- What the reader of a connection has delivered. -/
def deliveredOf (c : ConnId) (s : Server) : List (Message MessageType) :=
  match s.connections[c]? with
  | some conn => conn.delivered
  | none => []

/-- What was passed on and what is in the queue is what was delivered. -/
def Logged
    (log : List (ConnId × Message MessageType)) (s : Server) : Prop :=
  ∀ c, fromClient c (log ++ s.qMessagesIn) = s.deliveredOf c

end Model

section Steps

variable {s s' : Server} {e : ServerEvent}
  {log : List (ConnId × Message MessageType)}

@[simp] theorem fromClient_append
    (c : ConnId) (ps qs : List (ConnId × Message MessageType)) :
    fromClient c (ps ++ qs) = fromClient c ps ++ fromClient c qs := by
  simp [fromClient]

@[simp] theorem fromClient_singleton_self
    (c : ConnId) (msg : Message MessageType) :
    fromClient c [(c, msg)] = [msg] := by
  simp [fromClient]

theorem fromClient_singleton_of_ne
    {c d : ConnId}
    (hne : d ≠ c)
    (msg : Message MessageType) :
    fromClient c [(d, msg)] = [] := by
  simp [fromClient, hne]

/-- A step that delivers nothing and passes nothing on. -/
theorem Logged.congr
    (h : Logged log s)
    (hq : s'.qMessagesIn = s.qMessagesIn)
    (hdelivered : ∀ c, s'.deliveredOf c = s.deliveredOf c) :
    Logged log s' := by
  intro c
  rw [hq, hdelivered]
  exact h c

/-- Connections that have not delivered anything yet do not matter. -/
theorem deliveredOf_concat
    {conn : Connection MessageType} (c : ConnId)
    (hconn : s'.connections = s.connections ++ [conn])
    (hnone : conn.delivered = []) :
    s'.deliveredOf c = s.deliveredOf c := by
  unfold deliveredOf
  rw [hconn]
  rcases Nat.lt_trichotomy c s.connections.length with hlt | rfl | hgt
  · rw [List.getElem?_append_left hlt]
  · rw [List.getElem?_concat_length,
      List.getElem?_eq_none_iff.mpr (Nat.le_refl _)]
    exact hnone
  · rw [List.getElem?_eq_none_iff.mpr (by simp; omega),
      List.getElem?_eq_none_iff.mpr hgt.le]

/-- Every step keeps the log in line with the connections. -/
theorem step_logged
    (h : Logged log s)
    (hstep : s.step e = some s') :
    Logged (log ++ s.taken e) s' := by
  have hnothing (hlog : Logged log s') : Logged (log ++ []) s' := by
    rw [List.append_nil]
    exact hlog
  cases step_cases hstep with
  | startServer => exact hnothing (h.congr rfl fun _ => rfl)
  | startEnvironment => exact hnothing (h.congr rfl fun _ => rfl)
  | environment => exact hnothing (h.congr rfl fun _ => rfl)
  | fault hcause =>
      have htaken : s.taken e = [] := by
        cases hcause with
        | environment => rfl
        | acceptReset => rfl
        | freed => rfl
      rw [htaken]
      exact hnothing (h.congr rfl fun _ => rfl)
  | acceptFailed => exact hnothing h
  | approve => exact hnothing (h.congr rfl fun c => deliveredOf_concat c rfl rfl)
  | refuse => exact hnothing (h.congr rfl fun c => deliveredOf_concat c rfl rfl)
  | @io d e conn conn' u hidle hconn hio =>
      refine hnothing ?_
      have hlt := (List.getElem?_eq_some_iff.mp hconn).1
      have hq :
          (s.afterIo d conn' u).qMessagesIn =
            s.qMessagesIn ++ u.delivers.map fun msg => (d, msg) := by
        cases u with
        | none => exact (List.append_nil _).symm
        | incoming msg => rfl
        | validated => exact (List.append_nil _).symm
      have hdelivered := Connection.ioStep_delivered hio
      intro c
      rw [hq, ← List.append_assoc, fromClient_append, h c]
      unfold deliveredOf
      rw [afterIo_connections]
      by_cases hd : d = c
      · obtain rfl := hd
        rw [List.getElem?_set_self hlt, hconn]
        show _ = conn'.delivered
        rw [hdelivered]
        cases u with
        | none => rfl
        | incoming msg => simp [Upcall.delivers]
        | validated => rfl
      · rw [List.getElem?_set_ne hd]
        cases u with
        | none => exact List.append_nil _
        | incoming msg => simp [Upcall.delivers, fromClient_singleton_of_ne hd]
        | validated => exact List.append_nil _
  | @handler e hd s' hh hhandler =>
      refine hnothing (h.congr hhandler.sameWorld.qMessagesIn fun c => ?_)
      unfold deliveredOf
      rcases hhandler.connections with hsame | ⟨f, hmodify, msg, hf⟩
      · rw [hsame]
      · rw [hmodify]
        by_cases hclient : hd.client = c
        · rw [hclient, List.getElem?_modify_eq]
          cases hconn : s.connections[c]? with
          | none => rfl
          | some conn =>
              rcases hf with rfl | rfl
              · rfl
              · rfl
        · rw [List.getElem?_modify_ne _ _ hclient]
  | @update p rest hq =>
      intro c
      have hlog := h c
      rw [hq] at hlog
      show fromClient c (log ++ s.qMessagesIn.take 1 ++ rest) = _
      rw [hq, List.append_assoc]
      exact hlog

theorem run_logged
    {es : List ServerEvent}
    (h : Logged log s)
    (hrun : run step s es = some s') :
    Logged (log ++ s.dispatched es) s' := by
  induction es generalizing s log with
  | nil =>
      simp only [run_nil, Option.some.injEq] at hrun
      rw [← hrun, dispatched, List.append_nil]
      exact h
  | cons e es ih =>
      obtain ⟨s₁, hstep, htail⟩ := run_cons_some hrun
      rw [dispatched, hstep, ← List.append_assoc]
      exact ih (step_logged h hstep) htail

variable {nmapSize : UInt64} {s₀ : Server} {es : List ServerEvent}

/-- A new server has passed nothing on. -/
theorem logged_of_make
    (hmake : make nmapSize = .ok s₀) :
    Logged [] s₀ := by
  obtain ⟨environment, _, rfl⟩ := exists_of_make hmake
  intro c
  rfl

/-- What was passed on is a beginning of what was delivered. -/
theorem dispatched_prefix
    {c : ConnId} {conn : Connection MessageType}
    (hmake : make nmapSize = .ok s₀)
    (hrun : run step s₀ es = some s)
    (hconn : s.connections[c]? = some conn) :
    fromClient c (s₀.dispatched es) <+: conn.delivered := by
  have hlog := run_logged (logged_of_make hmake) hrun c
  rw [List.nil_append, fromClient_append, deliveredOf, hconn] at hlog
  exact ⟨_, hlog⟩

/-- In every run of a server, `on_message` is called with the messages of each
client in the order in which they were delivered; what it has not been called
with yet is in the queue. -/
theorem dispatched_in_order
    (hmake : make nmapSize = .ok s₀)
    (hrun : run step s₀ es = some s)
    (c : ConnId) :
    fromClient c (s₀.dispatched es) ++ fromClient c s.qMessagesIn =
      s.deliveredOf c := by
  have hlog := run_logged (logged_of_make hmake) hrun c
  rwa [List.nil_append, fromClient_append] at hlog

end Steps

section Sample

/-- A client is accepted before the environment is there, and its reply is
right. -/
def earlyClient : List ServerEvent :=
  [.startServer, .accept 1, .io 0 (.recv 0 (toBytes (mfScramble 1))),
    .io 0 (.readDone 0)]

theorem dispatched_in_order_early :
    ∃ s₀ s, make 1 = .ok s₀ ∧ run step s₀ earlyClient = some s ∧
      s.validated = [0] ∧
      fromClient 0 (s₀.dispatched earlyClient) ++
          fromClient 0 s.qMessagesIn =
        s.deliveredOf 0 := by
  obtain ⟨s₀, hmake⟩ : ∃ s₀, make 1 = .ok s₀ := ⟨_, rfl⟩
  obtain ⟨s, hrun, hval⟩ :
      ∃ s, run step s₀ earlyClient = some s ∧ s.validated = [0] := by
    obtain ⟨environment, _, rfl⟩ := exists_of_make hmake
    exact ⟨_, rfl, rfl⟩
  exact ⟨s₀, s, hmake, hrun, hval, dispatched_in_order hmake hrun 0⟩

end Sample

end Server

end SpeciesSimulator
