/-
# The server's own messages are whole

The replies of the server's own are pages it has built itself, of the announced
length; as long as no write has failed they are sent whole, and so are the interim
responses.

* `stocked_tail` : the replies a step can end in;
* `unbroken_reachable` : the messages of the server's own in every exchange.
-/
import SmartMetServer.Interim
import SmartMetServer.OwnBodies

namespace SmartMet

open Exchange

/-! ## The replies of a step -/

/-- A reply of the server's own is that to `OPTIONS *` or a page. -/
def Outcome.Stocked (srv : Server) : Outcome → Prop
  | .reply m t _ =>
    m = .options ∨ ∃ st before, m = .stock st ∧ AsyncConnection.IsStock srv st before t.itsResponse
  | _ => True

namespace AsyncConnection

variable (srv : Server) (a : Answers)

theorem stocked_sendStockReply (st : Status) (s : AsyncConnection) :
    (Tail.sendStockReply srv a st s).Stocked srv :=
  Or.inr ⟨st, s.itsResponse, rfl, isStock_stockResponse srv a st s⟩

theorem stocked_scheduleRequest (view : HandlerView) (s : AsyncConnection) :
    (Tail.scheduleRequest srv a view s).Stocked srv := by
  unfold Tail.scheduleRequest
  split
  · split
    · trivial
    · exact stocked_sendStockReply srv a _ _
  · dsimp only
    split
    · trivial
    · exact stocked_sendStockReply srv a _ _

theorem stocked_handleParsedRequest (s : AsyncConnection) :
    (Tail.handleParsedRequest srv a s).Stocked srv := by
  unfold Tail.handleParsedRequest
  dsimp only
  split
  · trivial
  split
  · exact stocked_sendStockReply srv a _ _
  unfold Tail.routeRequest
  split
  · exact Or.inl rfl
  split
  · exact stocked_sendStockReply srv a _ _
  dsimp only
  split
  · exact stocked_sendStockReply srv a _ _
  · exact stocked_scheduleRequest srv a _ _

theorem stocked_handleIncompleteRequest (s : AsyncConnection) :
    (Tail.handleIncompleteRequest srv a s).Stocked srv := by
  unfold Tail.handleIncompleteRequest
  split
  · exact stocked_sendStockReply srv a _ _
  dsimp only
  split
  · trivial
  unfold Tail.handleExpectContinue
  split
  · trivial
  dsimp only
  split
  · trivial
  split
  · trivial
  split
  · trivial
  split
  · split
    · trivial
    · trivial
  · exact stocked_sendStockReply srv a _ _

theorem stocked_handleRead (e : ErrorCode) (bytes : Bytes) (s : AsyncConnection) :
    (Tail.handleRead srv a e bytes s).Stocked srv := by
  unfold Tail.handleRead
  split
  · exact stocked_sendStockReply srv a _ _
  dsimp only
  split
  · unfold Tail.handleReadBytes
    dsimp only
    split
    · exact stocked_sendStockReply srv a _ _
    unfold Tail.parseBuffer
    split
    · exact stocked_handleParsedRequest srv a _
    · exact stocked_sendStockReply srv a _ _
    · exact stocked_handleIncompleteRequest srv a _
  · trivial

theorem stocked_scheduleGetter (task : Task) (s : AsyncConnection) :
    (Tail.scheduleGetter srv a task s).Stocked srv := by
  unfold Tail.scheduleGetter
  split
  · trivial
  · exact stocked_sendStockReply srv a _ _

theorem stocked_getNextChunk (s : AsyncConnection) :
    (Tail.getNextChunk srv a s).Stocked srv := by
  unfold Tail.getNextChunk
  split
  · split
    · trivial
    split
    · trivial
    dsimp only
    split
    · trivial
    · exact stocked_scheduleGetter srv a _ _
  · dsimp only
    split
    · trivial
    · trivial

theorem stocked_getNextChunkedChunk (s : AsyncConnection) :
    (Tail.getNextChunkedChunk srv a s).Stocked srv := by
  unfold Tail.getNextChunkedChunk
  split
  · split
    · trivial
    split
    · trivial
    dsimp only
    split
    · trivial
    · exact stocked_scheduleGetter srv a _ _
  · dsimp only
    split
    · trivial
    · trivial

theorem stocked_runWriteHandler (handler : WriteHandler) (e : ErrorCode) (n : ℕ)
    (s : AsyncConnection) : (Tail.runWriteHandler srv a handler e n s).Stocked srv := by
  have hcontinue : ∀ (next : AsyncConnection → Outcome) (failed : Books),
      (∀ u, (next u).Stocked srv) →
      (Tail.continueWrite srv a handler e n next failed s).Stocked srv := by
    intro next failed hnext
    unfold Tail.continueWrite
    dsimp only
    split
    · split
      · trivial
      · exact hnext _
    · exact Or.inr ⟨_, _, rfl, isStock_stockResponse srv a _ _⟩
  cases handler with
  | writeRegularReply => exact hcontinue (fun u => .finish _) _ fun u => trivial
  | writeStreamReply => exact hcontinue _ _ fun u => stocked_scheduleGetter srv a _ u
  | writeChunkedReply => exact hcontinue _ _ fun u => stocked_scheduleGetter srv a _ u
  | finalizeChunkedReply => exact hcontinue (fun u => .finish _) _ fun u => trivial

theorem stocked_handleCompletedRead (s : AsyncConnection) :
    (Tail.handleCompletedRead srv a s).Stocked srv := by
  unfold Tail.handleCompletedRead
  split
  · trivial
  split
  · trivial
  rw [Tail.callHandler_eq]
  rcases Tail.returnFromHandler_cases srv a (Tail.called s) with
    ⟨-, heq⟩ | ⟨response, ⟨-, heq⟩ | ⟨-, heq⟩ | ⟨-, heq⟩⟩
  · rw [heq]
    trivial
  · rw [heq]
    trivial
  · rw [heq]
    exact stocked_sendStockReply srv a _ _
  rw [heq]
  unfold Tail.startReply
  split
  · trivial
  split
  · split
    · exact stocked_getNextChunk srv a _
    split
    · exact stocked_getNextChunkedChunk srv a _
    · exact stocked_getNextChunk srv a _
  · trivial

theorem stocked_handleTimer (err : ErrorCode) (generation : ℕ) (s : AsyncConnection) :
    (Tail.handleTimer srv a err generation s).Stocked srv := by
  unfold Tail.handleTimer
  split
  · trivial
  split
  · trivial
  dsimp only
  split
  · trivial
  · exact stocked_sendStockReply srv a _ _

/-- **The replies a step can end in.** -/
theorem stocked_tail {s : AsyncConnection} {e : Event} {x : Outcome}
    (h : Tail.step srv s e = some x) : x.Stocked srv := by
  -- a step that ends in no reply needs no page
  have hstop : ∀ {u : Option AsyncConnection}, u.map Outcome.stop = some x → x.Stocked srv := by
    intro u hu
    obtain ⟨t, -, rfl⟩ := Option.map_eq_some_iff.mp hu
    trivial
  cases e with
  | readFails i err a =>
    simp only [Tail.step] at h
    split at h
    · split at h
      · obtain rfl := Option.some.inj h
        exact stocked_handleRead srv a _ _ _
      · cases h
    · cases h
  | runRead i a =>
    simp only [Tail.step] at h
    split at h
    · obtain rfl := Option.some.inj h
      exact stocked_handleRead srv a _ _ _
    · cases h
  | runTask i a =>
    simp only [Tail.step] at h
    split at h
    · rename_i pool task _
      obtain rfl := Option.some.inj h
      cases task with
      | handleCompletedRead view => exact stocked_handleCompletedRead srv a _
      | getNextChunk => exact stocked_getNextChunk srv a _
      | getNextChunkedChunk => exact stocked_getNextChunkedChunk srv a _
    · cases h
  | writeSome i n a =>
    simp only [Tail.step] at h
    split at h
    · split at h
      · obtain rfl := Option.some.inj h
        exact stocked_runWriteHandler srv a _ _ _ _
      · cases h
    · cases h
  | writeFails i a =>
    simp only [Tail.step] at h
    split at h
    · obtain rfl := Option.some.inj h
      exact stocked_runWriteHandler srv a _ _ _ _
    · cases h
  | runTimer generation a =>
    simp only [Tail.step] at h
    split at h
    · obtain rfl := Option.some.inj h
      exact stocked_handleTimer srv a _ _ _
    · cases h
  | handshake i ok => exact hstop h
  | receive i bytes => exact hstop h
  | timerExpires => exact hstop h
  | requestShutdown =>
    obtain rfl := Option.some.inj h
    trivial

end AsyncConnection

/-! ## Exchanges -/

/-- Events that leave the messages of the server whole: its own ones are sent
elsewhere, and an interim response is sent in one piece. -/
def Obs.Intact : Obs → Prop
  | .wrote m b => m = .handler ∨ m = .interim ∧ b = AsyncConnection.continueReply
  | .rendered m _ _ => m = .handler
  | _ => True

namespace Exchange

/-- The replies of the server's own, as they are to be sent. -/
def ownBytes (x : Exchange) : Bytes :=
  x.heads.flatMap fun p => if p.1 = .handler then [] else p.2.2 ++ p.2.1.getContent

/-- The messages of the server's own are pages or the reply to `OPTIONS *`; as long as
no write has failed they are whole. -/
structure Unbroken (srv : Server) (x : Exchange) : Prop where
  pages : ∀ p ∈ x.heads, p.1 = .handler ∨ p.1 = .options ∨
    ∃ st before, p.1 = .stock st ∧ AsyncConnection.IsStock srv st before p.2.1
  own : x.failed = false → x.serverBytes = x.ownBytes
  interims : x.failed = false → ∀ p ∈ x.wire, p.1 = .interim →
    p.2 = AsyncConnection.continueReply

variable {srv : Server}

theorem unbroken_empty : Unbroken srv {} := by
  refine ⟨?_, fun _ => rfl, fun _ => ?_⟩
  · intro p hp
    cases hp
  · intro p hp
    cases hp

theorem Unbroken.observe {x : Exchange} (h : Unbroken srv x) {o : Obs} (ho : o.Intact) :
    Unbroken srv (x.observe o) := by
  cases o with
  | wrote m b =>
    have hm : m = .handler ∨ m = .interim := ho.imp_right And.left
    refine ⟨h.pages, fun hf => ?_, fun hf p hp hpm => ?_⟩
    · show (x.wire ++ [(m, b)]).flatMap _ = _
      rw [List.flatMap_append, List.flatMap_singleton, if_pos hm, List.append_nil]
      exact h.own hf
    · rcases List.mem_append.mp hp with hp | hp
      · exact h.interims hf p hp hpm
      · obtain rfl := List.mem_singleton.mp hp
        rcases ho with rfl | ⟨-, rfl⟩
        · cases hpm
        · rfl
  | rendered m r head =>
    have hm : m = .handler := ho
    refine ⟨fun p hp => ?_, fun hf => ?_, h.interims⟩
    · rcases List.mem_append.mp hp with hp | hp
      · exact h.pages p hp
      · obtain rfl := List.mem_singleton.mp hp
        exact Or.inl hm
    · refine (h.own hf).trans ?_
      show _ = (x.heads ++ [(m, r, head)]).flatMap _
      rw [List.flatMap_append, List.flatMap_singleton, if_pos hm, List.append_nil]
      rfl
  | writeError m =>
    refine ⟨h.pages, fun hf => ?_, fun hf => ?_⟩
    · cases hf
    · cases hf
  | _ => exact ⟨h.pages, h.own, h.interims⟩

/-- A reply of the server's own. -/
theorem Unbroken.reply {x : Exchange} (h : Unbroken srv x) {m : Message} {r : Response}
    {head : Bytes} {extra : List (Message × Bytes)} {f : Bool} (hm : m ≠ .handler ∧ m ≠ .interim)
    (hpage : m = .options ∨ ∃ st before, m = .stock st ∧ AsyncConnection.IsStock srv st before r)
    (hx : ∀ p ∈ extra, p.1 = m)
    (hexact : f = false → extra.flatMap Prod.snd = head ++ r.getContent ∧ x.failed = false) :
    Unbroken srv (x.reply m r head extra f) := by
  refine ⟨fun p hp => ?_, fun hf => ?_, fun hf p hp hpm => ?_⟩
  · rcases List.mem_append.mp hp with hp | hp
    · exact h.pages p hp
    · obtain rfl := List.mem_singleton.mp hp
      exact Or.inr hpage
  · obtain ⟨hall, hxf⟩ := hexact hf
    rw [serverBytes_reply hm.1 hm.2 hx, hall, h.own hxf]
    show _ = (x.heads ++ [(m, r, head)]).flatMap _
    rw [List.flatMap_append, List.flatMap_singleton, if_neg hm.1]
    rfl
  · rcases List.mem_append.mp hp with hp | hp
    · exact h.interims (hexact hf).2 p hp hpm
    · exact absurd ((hx p hp).symm.trans hpm) hm.2

end Exchange

namespace AsyncConnection

variable {srv : Server}

theorem unbroken_trail {A : Obs → Prop} {s t : AsyncConnection}
    (h : ∀ x ∈ exchanges s.world.trace, Unbroken srv x) (ht : Trail A s t)
    (hA : ∀ o, A o → o.Intact) : ∀ x ∈ exchanges t.world.trace, Unbroken srv x := by
  obtain ⟨new, hnew, hev⟩ := ht.events
  obtain ⟨hcur, hpast⟩ := exchange_append (h _ (mem_exchanges.mpr (Or.inr rfl))) unbroken_empty
    fun o (ho : o ∈ new) _ x hx => Unbroken.observe hx (hA o (hev o ho).1)
  rw [hnew]
  intro x hx
  rcases mem_exchanges.mp hx with hx | rfl
  · exact (hpast x hx).elim (fun hx => h x (mem_exchanges.mpr (Or.inl hx))) id
  · exact hcur

theorem intact_of_finishEvent {o : Obs} (h : FinishEvent o) : o.Intact := by
  rcases h with rfl | ⟨g, n, rfl⟩
  · trivial
  · trivial

theorem unbroken_sendSimpleReply {s : AsyncConnection} {m : Message} (a : Answers)
    (h : ∀ x ∈ exchanges s.world.trace, Unbroken srv x) (hm : m ≠ .handler ∧ m ≠ .interim)
    (hpage : m = .options ∨ ∃ st before, m = .stock st ∧ IsStock srv st before s.itsResponse) :
    ∀ x ∈ exchanges (sendSimpleReply srv a m s).world.trace, Unbroken srv x := by
  by_cases hst : s.itsResponse.status.isSome
  · obtain ⟨w, e, k, hw, -, -, heq⟩ := sendSimpleReply_cases srv a (m := m) hst
    obtain ⟨extra, f, hx, hsend⟩ := hw.current
    have hreplied : ∀ x ∈ exchanges w.trace, Unbroken srv x := by
      intro x hxm
      rcases mem_exchanges.mp hxm with hxm | rfl
      · rw [hw.past] at hxm
        exact h x (mem_exchanges.mpr (Or.inl hxm))
      · rw [hx]
        exact (h _ (mem_exchanges.mpr (Or.inr rfl))).reply hm hpage hsend.message hsend.exact
    rw [heq]
    split
    · exact unbroken_trail (s := s.replied w e k) hreplied (trail_finishResponse srv _)
        fun o => intact_of_finishEvent
    · refine unbroken_trail (s := s.replied w e k) hreplied
        (Trail.close (A := fun o => o = .closed) _ rfl) ?_
      rintro o rfl
      trivial
  · have hnone : sendSimpleReply srv a m s = s := by
      unfold sendSimpleReply headersToString
      rw [if_neg hst]
    rw [hnone]
    exact h

/-- The steps that read nothing send no message of the server's own in front of
their last call. -/
theorem intact_of_stepEvent {e : Event} (he : ∀ i a, e ≠ .runRead i a) {o : Obs}
    (h : StepEvent srv e o) : o.Intact := by
  cases o with
  | wrote m b =>
    have hown := not_ownWrite_of_stepEvent h
    have hinterim := not_interim_of_stepEvent he h
    by_contra hno
    have hm : m ≠ .handler := fun hm => hno (Or.inl hm)
    exact hown ⟨hm, fun hm => hinterim b (by rw [hm])⟩
  | rendered m r head => exact rendered_of_stepEvent srv h
  | _ => trivial

/-- What a read sends in front of its last call. -/
theorem unbroken_runRead {s : AsyncConnection} {i : ℕ} {bytes : Bytes} (hinv : Inv srv s)
    (h : ∀ x ∈ exchanges s.world.trace, Unbroken srv x)
    (hi : s.world.outstanding[i]? = some (.handleRead bytes)) (a : Answers) :
    ∀ x ∈ exchanges (Tail.handleRead srv a .success bytes (s.release i)).state.world.trace,
      Unbroken srv x := by
  obtain ⟨t, hf, hcase⟩ := hinv.runRead_cases hi a
  have ht : ∀ x ∈ exchanges t.world.trace, Unbroken srv x := by
    refine unbroken_trail h hf.trail ?_
    rintro o ⟨_, _, rfl⟩
    trivial
  have hnext : ∀ {o : Obs} {old : List Obs}, (∀ x ∈ exchanges old, Unbroken srv x) → o.Intact →
      ∀ x ∈ exchanges (o :: old), Unbroken srv x := by
    intro o old hold ho x hx
    have hone : ∀ o' ∈ [o], o' ≠ .rearmed → ∀ y, Unbroken srv y → Unbroken srv (y.observe o') :=
      fun o' ho' _ y hy => Unbroken.observe hy (by
        rw [List.mem_singleton.mp ho']
        exact ho)
    obtain ⟨hc, hp⟩ := exchange_append (hold _ (mem_exchanges.mpr (Or.inr rfl)))
      unbroken_empty hone
    rcases mem_exchanges.mp hx with hx | rfl
    · exact (hp x hx).elim (fun hx => hold x (mem_exchanges.mpr (Or.inl hx))) id
    · exact hc
  rcases hcase with ⟨-, hx⟩ | ⟨-, -, hx⟩ | ⟨-, -, -, -, hx⟩
  · rw [hx]
    exact ht
  · rw [hx]
    exact ht
  · rw [hx]
    unfold Tail.parseBuffer
    cases srv.spine.parseOneRequest t.itsBuffer with
    | complete r n =>
      refine unbroken_trail ?_ (stretch_handleParsedRequest srv a _).toTrail ?_
      · exact hnext ht trivial
      · rintro o rfl
        trivial
    | failed => exact ht
    | incomplete =>
      show ∀ x ∈ exchanges (Tail.handleIncompleteRequest srv a t).state.world.trace, Unbroken srv x
      rcases handleIncompleteRequest_trace a t with heq | ⟨-, -, heq⟩
      · rw [heq]
        exact ht
      rw [heq]
      rcases t.world.write_cases .interim continueReply a.interimWrite with
        ⟨-, -, h⟩ | ⟨-, -, h⟩ | ⟨-, -, n, h⟩ | ⟨-, -, h⟩
      · rw [h]
        exact ht
      · rw [h]
        exact hnext ht (Or.inr ⟨rfl, rfl⟩)
      · -- a part of it goes out, and an error is recorded with it
        rw [h]
        intro x hx
        rcases mem_exchanges.mp hx with hx | rfl
        · exact ht x (mem_exchanges.mpr (Or.inl hx))
        · have hold := ht _ (mem_exchanges.mpr (Or.inr rfl))
          refine ⟨hold.pages, fun hf => ?_, fun hf => ?_⟩
          · cases hf
          · cases hf
      · rw [h]
        exact hnext ht trivial

/-- **One step** leaves the messages of the server's own whole. -/
theorem unbroken_step {s s' : AsyncConnection} {e : Event} (hinv : Inv srv s)
    (h : ∀ x ∈ exchanges s.world.trace, Unbroken srv x) (hstep : step srv s e = some s') :
    ∀ x ∈ exchanges s'.world.trace, Unbroken srv x := by
  obtain ⟨x, hx, rfl⟩ := exists_outcome srv hstep
  have hstate : ∀ y ∈ exchanges x.state.world.trace, Unbroken srv y := by
    by_cases he : ∃ i a, e = .runRead i a
    · obtain ⟨i, a, rfl⟩ := he
      simp only [Tail.step] at hx
      split at hx
      · rename_i bytes hi
        obtain rfl := Option.some.inj hx
        exact unbroken_runRead hinv h hi a
      · cases hx
    · exact unbroken_trail h (trail_step srv hx) fun o =>
        intact_of_stepEvent fun i a h => he ⟨i, a, h⟩
  cases x with
  | stop t => exact hstate
  | finish t =>
    exact unbroken_trail hstate (trail_finishResponse srv t) fun o => intact_of_finishEvent
  | reply m t books =>
    have hreply : ∀ y ∈ exchanges (sendSimpleReply srv e.answers m t).world.trace, Unbroken srv y :=
      unbroken_sendSimpleReply e.answers hstate (own_message hx) (stocked_tail srv hx)
    have hl := logOnly_keep books (sendSimpleReply srv e.answers m t)
    intro y hy
    refine hreply y ?_
    rcases mem_exchanges.mp hy with hy | rfl
    · exact mem_exchanges.mpr (Or.inl (hl.past ▸ hy))
    · exact mem_exchanges.mpr (Or.inr hl.exchange)

theorem unbroken_reachable {s : AsyncConnection} (h : Reachable srv s) :
    ∀ x ∈ exchanges s.world.trace, Unbroken srv x := by
  obtain ⟨es, hrun⟩ := h
  refine (Transition.run_preserves
    (P := fun u => Inv srv u ∧ ∀ x ∈ exchanges u.world.trace, Unbroken srv x) ?_
    ⟨inv_start srv, ?_⟩ hrun).2
  · rintro u e u' ⟨hinv, hu⟩ hstep
    exact ⟨inv_step srv hinv hstep, unbroken_step hinv hu hstep⟩
  · rw [start_trace]
    intro x hx
    obtain rfl := List.mem_singleton.mp hx
    exact unbroken_empty

end AsyncConnection

end SmartMet
