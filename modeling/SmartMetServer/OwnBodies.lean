/-
# The body of the server's own replies

What the server sends of its own in an exchange is one reply: a header section and
the content of the response it was built for.  Nothing of a handler's response is sent
where no reply path was taken.
-/
import SmartMetServer.OwnReplies
import SmartMetServer.Transcript

namespace SmartMet

open Exchange

/-- Bytes of a reply of the server's own. -/
def Obs.OwnWrite : Obs → Prop
  | .wrote m _ => m ≠ .handler ∧ m ≠ .interim
  | _ => False

namespace Exchange

theorem serverBytes_observe {x : Exchange} {o : Obs} (ho : ¬ o.OwnWrite) :
    (x.observe o).serverBytes = x.serverBytes := by
  cases o with
  | wrote m b =>
    have hm : m = .handler ∨ m = .interim := by
      by_contra hm
      exact ho ⟨fun h => hm (Or.inl h), fun h => hm (Or.inr h)⟩
    show (x.wire ++ [(m, b)]).flatMap _ = x.wire.flatMap _
    rw [List.flatMap_append, List.flatMap_singleton, if_pos hm, List.append_nil]
  | _ => rfl

/-- The server's own bytes are those of one response. -/
def OwnSent (x : Exchange) : Prop :=
  x.serverBytes = [] ∨
    ∃ p ∈ x.heads, p.1 ≠ .handler ∧ x.serverBytes <+: p.2.2 ++ p.2.1.getContent

theorem ownSent_empty : OwnSent {} := Or.inl rfl

theorem OwnSent.observe {x : Exchange} (h : OwnSent x) {o : Obs} (ho : ¬ o.OwnWrite) :
    OwnSent (x.observe o) := by
  unfold OwnSent
  rw [serverBytes_observe ho]
  refine h.imp_right ?_
  rintro ⟨p, hp, hm, hpre⟩
  refine ⟨p, ?_, hm, hpre⟩
  cases o with
  | rendered m r head => exact List.mem_append_left _ hp
  | _ => exact hp

/-- One more reply, the first that is delivered. -/
theorem OwnSent.reply {x : Exchange} (h : OwnSent x) {m : Message} {r : Response} {head : Bytes}
    {extra : List (Message × Bytes)} {f : Bool} (hm : m ≠ .handler ∧ m ≠ .interim)
    (hx : ∀ p ∈ extra, p.1 = m) (hpre : extra.flatMap Prod.snd <+: head ++ r.getContent)
    (hfirst : extra = [] ∨ x.serverBytes = []) : OwnSent (x.reply m r head extra f) := by
  have hbytes : (x.reply m r head extra f).serverBytes = x.serverBytes ++ extra.flatMap Prod.snd :=
    serverBytes_reply hm.1 hm.2 hx
  unfold OwnSent
  rw [hbytes]
  rcases hfirst with rfl | hnil
  · rw [List.flatMap_nil, List.append_nil]
    refine h.imp_right ?_
    rintro ⟨p, hp, hpm, hpp⟩
    exact ⟨p, List.mem_append_left _ hp, hpm, hpp⟩
  · rw [hnil, List.nil_append]
    refine Or.inr ⟨(m, r, head), ?_, hm.1, hpre⟩
    exact List.mem_append_right _ (List.mem_singleton_self _)

/-- Nothing of a handler's response is sent before a reply path was taken. -/
def Unstarted (x : Exchange) : Prop := x.path ≠ none ∨ x.handlerBytes = []

theorem unstarted_empty : Unstarted {} := Or.inr rfl

/-- On a reply path. -/
theorem path_observe {x : Exchange} (h : x.path ≠ none) (o : Obs) : (x.observe o).path ≠ none := by
  cases o with
  | started p => exact Option.some_ne_none p
  | _ => exact h

/-- No byte of a handler's response. -/
theorem Unstarted.observe {x : Exchange} (h : Unstarted x) {o : Obs}
    (ho : ∀ b, o ≠ .wrote .handler b) : Unstarted (x.observe o) := by
  refine h.imp (fun hp => path_observe hp o) fun hb => ?_
  cases o with
  | wrote m b =>
    have hm : m ≠ .handler := fun hm => ho b (by rw [hm])
    show (x.wire ++ [(m, b)]).flatMap _ = []
    rw [List.flatMap_append, List.flatMap_singleton, if_neg hm, List.append_nil]
    exact hb
  | _ => exact hb

end Exchange

namespace AsyncConnection

variable {srv : Server}

/-! ## Where the server answers -/

/-- The server has said nothing yet, or can say nothing more. -/
def Unsaid (s : AsyncConnection) : Prop :=
  s.world.socket = .closed ∨ s.exchange.serverBytes = []

theorem Waiting.unsaid {s : AsyncConnection} (h : Waiting srv s.bare) : Unsaid s := by
  by_cases hs : s.world.socket = .closed
  · exact Or.inl hs
  · exact Or.inr (serverBytes_eq_nil fun p hp => Or.inr ((h.live hs).2 p hp))

theorem Answering.unsaid {s : AsyncConnection} (h : Answering s.bare) : Unsaid s :=
  Or.inr (serverBytes_eq_nil h.wire)

/-- Nothing of the server's own was sent while something is outstanding. -/
theorem Inv.unsaid {s : AsyncConnection} (h : Inv srv s) {i : ℕ} {y : Activity}
    (hi : s.world.outstanding[i]? = some y) : Unsaid s := by
  have hp := (h.released srv hi).2.2
  rcases y with _ | _ | bytes | ⟨pool, _ | _ | _⟩ | ⟨_ | _ | _ | _, buffer⟩
  · exact (show Reading srv s.bare from hp).toWaiting.unsaid
  · exact (show Reading srv s.bare from hp).toWaiting.unsaid
  · exact (show Reading srv s.bare from hp).toWaiting.unsaid
  · exact (show Queued srv s.bare from hp).toWaiting.unsaid
  · exact hp.1.unsaid
  · exact hp.1.unsaid
  · exact hp.1.toAnswering.unsaid
  · exact hp.1.toAnswering.unsaid
  · exact hp.1.toAnswering.unsaid
  · exact hp.1.toAnswering.unsaid

/-- The reply a step ends with is the first, or goes to a closed socket. -/
theorem Inv.unsaid_of_reply {s t : AsyncConnection} {e : Event} {m : Message} {books : Books}
    (h : Inv srv s) (hx : Tail.step srv s e = some (.reply m t books)) : Unsaid s := by
  cases e with
  | handshake i ok =>
    obtain ⟨u, -, hu⟩ := Option.map_eq_some_iff.mp hx
    cases hu
  | receive i bytes =>
    obtain ⟨u, -, hu⟩ := Option.map_eq_some_iff.mp hx
    cases hu
  | timerExpires =>
    obtain ⟨u, -, hu⟩ := Option.map_eq_some_iff.mp hx
    cases hu
  | requestShutdown => cases hx
  | readFails i err a =>
    simp only [Tail.step] at hx
    split at hx
    · rename_i hi
      exact h.unsaid hi
    · cases hx
  | runRead i a =>
    simp only [Tail.step] at hx
    split at hx
    · rename_i hi
      exact h.unsaid hi
    · cases hx
  | runTask i a =>
    simp only [Tail.step] at hx
    split at hx
    · rename_i hi
      exact h.unsaid hi
    · cases hx
  | writeSome i n a =>
    simp only [Tail.step] at hx
    split at hx
    · rename_i hi
      exact h.unsaid hi
    · cases hx
  | writeFails i a =>
    simp only [Tail.step] at hx
    split at hx
    · rename_i hi
      exact h.unsaid hi
    · cases hx
  | runTimer generation a =>
    simp only [Tail.step] at hx
    split at hx
    · rename_i w hw
      obtain ⟨hmem, hgen, -⟩ := readyWait_spec hw
      -- only the last wait acts, and it waits where nothing was sent
      by_cases hg : generation = s.itsTimerGeneration
      · refine (h.waiting srv fun hu => ?_).unsaid
        have hlt : w.generation < s.itsTimerGeneration := hu w hmem
        omega
      · rw [handleTimer_inert srv (s := { s with world.waits := s.world.waits.erase w }) hg] at hx
        cases hx
    · cases hx

/-! ## Every step -/

/-- In front of the last call nothing of the server's own is sent. -/
theorem not_ownWrite_of_stepEvent {e : Event} {o : Obs} (h : StepEvent srv e o) :
    ¬ o.OwnWrite := by
  have hreply : ∀ {m : Message} {b : Bytes}, ReplyEvent srv (.wrote m b) → m = .handler := by
    intro m b ho
    cases m with
    | handler => rfl
    | _ => exact absurd ho id
  have hgetter : ∀ {p : Prop} {m : Message} {b : Bytes}, GetterEvent srv p (.wrote m b) →
      m = .handler := by
    rintro p m b (ho | ⟨ho, -⟩)
    · exact hreply ho
    · cases ho
  -- the bytes of a step are a handler's, or an interim reply's in a read
  intro hown
  cases o with
  | wrote m b =>
    obtain ⟨hm, hm'⟩ := hown
    cases e with
    | runRead i a =>
      rcases h with ⟨_, _, h⟩ | ⟨_, h⟩ | h | ⟨_, h⟩ | h
      · cases h
      · cases h
      · cases h
      · cases h
        exact hm' rfl
      · cases h
    | runTask i a =>
      rcases h with h | ⟨_, h⟩ | ⟨_, h⟩ | ⟨_, h⟩ | ⟨_, h⟩
      · exact hm (hgetter h)
      all_goals cases h
    | writeSome i n a =>
      rcases h with ⟨_, h⟩ | h
      · cases h
        exact hm rfl
      · exact hm (hgetter h)
    | writeFails i a => exact hm (hgetter h)
    | timerExpires => exact h
    | requestShutdown => exact h
    | _ => cases h
  | _ => exact hown

/-- Code that sends nothing of the server's own and re-arms nothing. -/
theorem Unsaid.trail {A : Obs → Prop} {s t : AsyncConnection} (h : Unsaid s) (ht : Trail A s t)
    (hA : ∀ o, A o → ¬ o.OwnWrite ∧ o ≠ .rearmed) : Unsaid t := by
  refine h.imp ht.socket fun hs => ?_
  obtain ⟨new, hnew, hev⟩ := ht.events
  unfold exchange at hs ⊢
  rw [hnew]
  clear hnew ht
  induction new with
  | nil => exact hs
  | cons o new ih =>
    obtain ⟨ho, hnew⟩ := List.forall_mem_cons.mp hev
    rw [List.cons_append, current_cons (hA o ho.1).2, serverBytes_observe (hA o ho.1).1]
    exact ih hnew

theorem ownSent_trail {A : Obs → Prop} {s t : AsyncConnection}
    (h : ∀ x ∈ exchanges s.world.trace, OwnSent x) (ht : Trail A s t)
    (hA : ∀ o, A o → ¬ o.OwnWrite) : ∀ x ∈ exchanges t.world.trace, OwnSent x := by
  obtain ⟨new, hnew, hev⟩ := ht.events
  obtain ⟨hcur, hpast⟩ := exchange_append (h _ (mem_exchanges.mpr (Or.inr rfl))) ownSent_empty
    fun o (ho : o ∈ new) _ x hx => OwnSent.observe hx (hA o (hev o ho).1)
  rw [hnew]
  intro x hx
  rcases mem_exchanges.mp hx with hx | rfl
  · exact (hpast x hx).elim (fun hx => h x (mem_exchanges.mpr (Or.inl hx))) id
  · exact hcur

theorem not_ownWrite_of_finishEvent {o : Obs} (h : FinishEvent o) : ¬ o.OwnWrite := by
  rcases h with rfl | ⟨g, n, rfl⟩
  · exact id
  · exact id

/-- A reply of the server's own. -/
theorem ownSent_sendSimpleReply {s : AsyncConnection} {m : Message} (a : Answers)
    (h : ∀ x ∈ exchanges s.world.trace, OwnSent x) (hm : m ≠ .handler ∧ m ≠ .interim)
    (hs : Unsaid s) : ∀ x ∈ exchanges (sendSimpleReply srv a m s).world.trace, OwnSent x := by
  by_cases hst : s.itsResponse.status.isSome
  · obtain ⟨w, e, k, hw, -, -, heq⟩ := sendSimpleReply_cases srv a (m := m) hst
    obtain ⟨extra, f, hx, hsend⟩ := hw.current
    have hreplied : ∀ x ∈ exchanges w.trace, OwnSent x := by
      intro x hxm
      rcases mem_exchanges.mp hxm with hxm | rfl
      · rw [hw.past] at hxm
        exact h x (mem_exchanges.mpr (Or.inl hxm))
      · rw [hx]
        refine OwnSent.reply (h _ (mem_exchanges.mpr (Or.inr rfl))) hm hsend.message hsend.bytes ?_
        exact hs.imp_left fun hc => hsend.socket (by rw [hc]; simp)
    rw [heq]
    split
    · exact ownSent_trail (s := s.replied w e k) hreplied (trail_finishResponse srv _)
        fun o => not_ownWrite_of_finishEvent
    · refine ownSent_trail (s := s.replied w e k) hreplied
        (Trail.close (A := fun o => o = .closed) _ rfl) ?_
      rintro o rfl
      exact id
  · have hnone : sendSimpleReply srv a m s = s := by
      unfold sendSimpleReply headersToString
      rw [if_neg hst]
    rw [hnone]
    exact h

/-- The replies of a step are the server's own. -/
theorem own_message {s t : AsyncConnection} {e : Event} {m : Message} {books : Books}
    (hx : Tail.step srv s e = some (.reply m t books)) : m ≠ .handler ∧ m ≠ .interim := by
  have hstock : ∀ {sts : List Status}, m.StockOf sts → m ≠ .handler ∧ m ≠ .interim := by
    rintro sts ⟨st, -, rfl⟩
    simp
  by_cases he : ∃ i a, e = .runRead i a
  · obtain ⟨i, a, rfl⟩ := he
    simp only [Tail.step] at hx
    split at hx
    · rename_i bytes hi
      unfold Tail.handleRead at hx
      split at hx
      · cases hx
        simp
      dsimp only at hx
      rw [if_pos rfl] at hx
      unfold Tail.handleReadBytes at hx
      dsimp only at hx
      split at hx
      · cases hx
        simp
      · have hsays := says_parseBuffer srv a { leaveIdle srv { s.release i with
          itsFinalStatus := .success } with
            itsReceivedBytes := (leaveIdle srv { s.release i with
              itsFinalStatus := .success }).itsReceivedBytes + bytes.length
            itsBuffer := (leaveIdle srv { s.release i with
              itsFinalStatus := .success }).itsBuffer ++ bytes }
        rw [Option.some.inj hx] at hsays
        rcases hsays with rfl | hsays
        · simp
        · exact hstock hsays
    · cases hx
  · have hsays := says_step srv hx fun i a heq => he ⟨i, a, heq⟩
    exact hstock hsays

/-- **Every step keeps the server's own replies whole.** -/
theorem ownSent_step {s s' : AsyncConnection} {e : Event} (hinv : Inv srv s)
    (h : ∀ x ∈ exchanges s.world.trace, OwnSent x) (hstep : step srv s e = some s') :
    ∀ x ∈ exchanges s'.world.trace, OwnSent x := by
  obtain ⟨x, hx, rfl⟩ := exists_outcome srv hstep
  have ht := trail_step srv hx
  have hstate := ownSent_trail h ht fun o => not_ownWrite_of_stepEvent
  cases x with
  | stop t => exact hstate
  | finish t =>
    exact ownSent_trail hstate (trail_finishResponse srv t) fun o => not_ownWrite_of_finishEvent
  | reply m t books =>
    have hunsaid : Unsaid t := (hinv.unsaid_of_reply hx).trail ht fun o ho =>
      ⟨not_ownWrite_of_stepEvent ho, not_rearmed_of_stepEvent srv ho⟩
    have hreply : ∀ x ∈ exchanges (sendSimpleReply srv e.answers m t).world.trace, OwnSent x :=
      ownSent_sendSimpleReply e.answers hstate (own_message hx) hunsaid
    have hl := logOnly_keep books (sendSimpleReply srv e.answers m t)
    intro x hxm
    refine hreply x ?_
    rcases mem_exchanges.mp hxm with hxm | rfl
    · exact mem_exchanges.mpr (Or.inl (hl.past ▸ hxm))
    · exact mem_exchanges.mpr (Or.inr hl.exchange)

/-! ## Exchanges without a reply path -/

theorem not_wrote_of_earlyEvent {o : Obs} (h : EarlyEvent o) : ∀ b, o ≠ .wrote .handler b := by
  rintro b rfl
  rcases h with h | h | ⟨_, h⟩ | ⟨_, _, h⟩ | ⟨_, h⟩ | h | ⟨_, h⟩ | h
  all_goals cases h

theorem unstarted_trail {A : Obs → Prop} {s t : AsyncConnection}
    (h : ∀ x ∈ exchanges s.world.trace, Unstarted x) (ht : Trail A s t)
    (hA : ∀ o, A o → ∀ b, o ≠ .wrote .handler b) : ∀ x ∈ exchanges t.world.trace, Unstarted x := by
  obtain ⟨new, hnew, hev⟩ := ht.events
  obtain ⟨hcur, hpast⟩ := exchange_append (h _ (mem_exchanges.mpr (Or.inr rfl))) unstarted_empty
    fun o (ho : o ∈ new) _ x hx => Unstarted.observe hx (hA o (hev o ho).1)
  rw [hnew]
  intro x hx
  rcases mem_exchanges.mp hx with hx | rfl
  · exact (hpast x hx).elim (fun hx => h x (mem_exchanges.mpr (Or.inl hx))) id
  · exact hcur

/-- A reply path was taken, and the connection is not re-armed. -/
theorem unstarted_of_path {A : Obs → Prop} {s t : AsyncConnection}
    (h : ∀ x ∈ past s.world.trace, Unstarted x) (hp : s.exchange.path ≠ none) (ht : Trail A s t)
    (hA : ∀ o, A o → o ≠ .rearmed) : ∀ x ∈ exchanges t.world.trace, Unstarted x := by
  obtain ⟨new, hnew, hev⟩ := ht.events
  have hall : past (new ++ s.world.trace) = past s.world.trace ∧
      (current (new ++ s.world.trace)).path ≠ none := by
    clear hnew ht
    induction new with
    | nil => exact ⟨rfl, hp⟩
    | cons o new ih =>
      obtain ⟨ho, hnew⟩ := List.forall_mem_cons.mp hev
      obtain ⟨hpast, hcur⟩ := ih hnew
      rw [List.cons_append, past_cons (hA o ho.1), current_cons (hA o ho.1)]
      exact ⟨hpast, path_observe hcur o⟩
  rw [hnew]
  intro x hx
  rcases mem_exchanges.mp hx with hx | rfl
  · rw [hall.1] at hx
    exact h x hx
  · exact Or.inl hall.2

/-- The call of a handler, up to the last call. -/
theorem unstarted_handleCompletedRead {s : AsyncConnection} (a : Answers)
    (h : ∀ x ∈ exchanges s.world.trace, Unstarted x) :
    ∀ x ∈ exchanges (Tail.handleCompletedRead srv a s).state.world.trace, Unstarted x := by
  -- on the way to the path nothing of a handler's reply is written
  have hnext : ∀ {u : AsyncConnection} {o : Obs}, (∀ x ∈ exchanges u.world.trace, Unstarted x) →
      (∀ b, o ≠ .wrote .handler b) → o ≠ .rearmed →
      ∀ x ∈ exchanges (o :: u.world.trace), Unstarted x := by
    intro u o hu ho hr x hx
    rcases mem_exchanges.mp hx with hx | rfl
    · rw [past_cons hr] at hx
      exact hu x (mem_exchanges.mpr (Or.inl hx))
    · rw [current_cons hr]
      exact (hu _ (mem_exchanges.mpr (Or.inr rfl))).observe ho
  unfold Tail.handleCompletedRead
  split
  · exact h
  split
  · exact h
  have hu : ∀ x ∈ exchanges (Tail.called s).world.trace, Unstarted x :=
    hnext (u := s.emit (.clientStarted s.itsRequest.clientIP)) (hnext h (by simp) (by simp))
      (by simp) (by simp)
  have hv : ∀ response, ∀ x ∈ exchanges (Tail.handled response (Tail.called s)).world.trace,
      Unstarted x := fun _ => hnext hu (by simp) (by simp)
  rw [Tail.callHandler_eq]
  rcases Tail.returnFromHandler_cases srv a (Tail.called s) with
    ⟨-, heq⟩ | ⟨response, ⟨-, heq⟩ | ⟨-, heq⟩ | ⟨-, heq⟩⟩
  · rw [heq]
    exact hu
  · rw [heq]
    exact hv response
  · rw [heq]
    exact hv response
  · rw [heq]
    let v := Tail.handled response (Tail.called s)
    let w := v.emit (.started (replyPath v.itsHeadRequest v.itsResponse))
    refine unstarted_of_path (s := w) ?_ ?_ (stretch_startReply srv a v).toTrail ?_
    · exact fun x hx => hv response x (mem_exchanges.mpr (Or.inl hx))
    · exact Option.some_ne_none _
    · rintro o ho rfl
      rcases ho with ho | ⟨ho, -⟩
      · exact ho
      · cases ho

/-- **Every step keeps the exchanges without a reply path free of a handler's bytes.** -/
theorem unstarted_step {s s' : AsyncConnection} {e : Event} (hinv : Inv srv s)
    (h : ∀ x ∈ exchanges s.world.trace, Unstarted x) (hstep : step srv s e = some s') :
    ∀ x ∈ exchanges s'.world.trace, Unstarted x := by
  obtain ⟨x, hx, rfl⟩ := exists_outcome srv hstep
  have ht := trail_step srv hx
  have hstate : ∀ y ∈ exchanges x.state.world.trace, Unstarted y := by
    -- an exchange with a path is let be; without one only the handler's task sets one
    by_cases hp : s.exchange.path = none
    swap
    · exact unstarted_of_path (fun y hy => h y (mem_exchanges.mpr (Or.inl hy))) hp ht
        fun o ho => not_rearmed_of_stepEvent srv ho
    by_cases htask : ∃ i a, e = .runTask i a
    · obtain ⟨i, a, rfl⟩ := htask
      simp only [Tail.step] at hx
      split at hx
      · rename_i pool task hi
        obtain rfl := Option.some.inj hx
        have hph := (hinv.released srv hi).2.2
        cases task with
        | handleCompletedRead view => exact unstarted_handleCompletedRead a h
        | getNextChunk => exact absurd hp (Streaming.path_ne (t := s.bare) hph.2.2)
        | getNextChunkedChunk => exact absurd hp (Chunking.path_ne (t := s.bare) hph.2.2)
      · cases hx
    refine unstarted_trail h ht fun o ho => not_wrote_of_earlyEvent
      (earlyEvent_of_stepEvent srv (fun i a he => htask ⟨i, a, he⟩) ?_ ?_ ho)
    · rintro i n a rfl
      simp only [Tail.step] at hx
      split at hx
      · rename_i hi
        exact absurd hp (hinv.path_of_writing hi)
      · cases hx
    · rintro i a rfl
      simp only [Tail.step] at hx
      split at hx
      · rename_i hi
        exact absurd hp (hinv.path_of_writing hi)
      · cases hx
  cases x with
  | stop t => exact hstate
  | finish t =>
    refine unstarted_trail hstate (trail_finishResponse srv t) ?_
    rintro o (rfl | ⟨g, n, rfl⟩) b
    · simp
    · simp
  | reply m t books =>
    have hm := (own_message hx).1
    have hreply : ∀ y ∈ exchanges (sendSimpleReply srv e.answers m t).world.trace, Unstarted y := by
      refine unstarted_trail hstate (trail_sendSimpleReply srv e.answers m t) ?_
      rintro o (⟨r, rfl⟩ | ⟨b, rfl⟩ | rfl | rfl | rfl | ⟨g, n, rfl⟩) c hc
      all_goals cases hc
      exact hm rfl
    have hl := logOnly_keep books (sendSimpleReply srv e.answers m t)
    intro y hy
    refine hreply y ?_
    rcases mem_exchanges.mp hy with hy | rfl
    · exact mem_exchanges.mpr (Or.inl (hl.past ▸ hy))
    · exact mem_exchanges.mpr (Or.inr hl.exchange)

variable (srv)

/-- **The server's own bytes in an exchange are those of one response**, and a handler's
response goes out on a reply path only. -/
theorem ownSent_reachable {s : AsyncConnection} (h : Reachable srv s) :
    ∀ x ∈ exchanges s.world.trace, OwnSent x ∧ Unstarted x := by
  obtain ⟨es, hrun⟩ := h
  have hall : Inv srv s ∧ (∀ x ∈ exchanges s.world.trace, OwnSent x) ∧
      ∀ x ∈ exchanges s.world.trace, Unstarted x := by
    refine Transition.run_preserves
      (P := fun u => Inv srv u ∧ (∀ x ∈ exchanges u.world.trace, OwnSent x) ∧
        ∀ x ∈ exchanges u.world.trace, Unstarted x) ?_ ⟨inv_start srv, ?_, ?_⟩ hrun
    · rintro u e u' ⟨hinv, ho, hu⟩ hstep
      exact ⟨inv_step srv hinv hstep, ownSent_step hinv ho hstep, unstarted_step hinv hu hstep⟩
    · rw [start_trace]
      intro x hx
      obtain rfl := List.mem_singleton.mp hx
      exact ownSent_empty
    · rw [start_trace]
      intro x hx
      obtain rfl := List.mem_singleton.mp hx
      exact unstarted_empty
  exact fun x hx => ⟨hall.2.1 x hx, hall.2.2 x hx⟩

end AsyncConnection

end SmartMet
