/-
# Streamers that are never asked

A streamer is asked for its content on the paths of streamed responses only.  A HEAD
never takes one of them, so its streamer stays untouched, whatever the run.
-/
import SmartMetServer.FramingFields
import SmartMetServer.OwnBodies

namespace SmartMet

open Exchange

/-! ## Exchanges that are not re-armed -/

/-- What every event keeps of the exchange under way, while the connection is not
re-armed. -/
theorem current_kept {R : Exchange → Prop} {new t : List Obs} (h : R (current t))
    (hobs : ∀ o ∈ new, o ≠ .rearmed ∧ ∀ x, R x → R (x.observe o)) :
    past (new ++ t) = past t ∧ R (current (new ++ t)) := by
  induction new with
  | nil => exact ⟨rfl, h⟩
  | cons o new ih =>
    obtain ⟨⟨hr, ho⟩, hnew⟩ := List.forall_mem_cons.mp hobs
    obtain ⟨hpast, hcur⟩ := ih hnew
    rw [List.cons_append, past_cons hr, current_cons hr]
    exact ⟨hpast, ho _ hcur⟩

namespace Exchange

/-- The exchange is on a path that asks its streamer. -/
def Pulling (x : Exchange) : Prop := ∃ p, x.path = some p ∧ p ≠ .regular

/-- The streamer is asked on the paths of streamed responses only. -/
def Unpulled (x : Exchange) : Prop := x.Pulling ∨ x.chunks = [] ∧ x.ended = none

theorem unpulled_empty : Unpulled {} := Or.inr ⟨rfl, rfl⟩

theorem Pulling.observe {x : Exchange} (h : Pulling x) {o : Obs} (ho : ∀ p, o ≠ .started p) :
    Pulling (x.observe o) := by
  cases o with
  | started p => exact absurd rfl (ho p)
  | _ => exact h

end Exchange

/-- The events in which a streamer is asked, and those that choose a path. -/
def Obs.Asking : Obs → Prop
  | .chunk _ _ => True
  | .streamEnded _ _ => True
  | .started _ => True
  | _ => False

theorem Exchange.Unpulled.observe {x : Exchange} (h : Unpulled x) {o : Obs} (ho : ¬ o.Asking) :
    Unpulled (x.observe o) := by
  have hstart : ∀ p, o ≠ .started p := by
    rintro p rfl
    exact ho trivial
  refine h.imp (fun hp => hp.observe hstart) fun hp => ?_
  cases o with
  | chunk c own => exact absurd trivial ho
  | streamEnded st own => exact absurd trivial ho
  | _ => exact hp

namespace AsyncConnection

variable {srv : Server}

/-! ## The code between two events -/

theorem unpulled_trail {A : Obs → Prop} {s t : AsyncConnection}
    (h : ∀ x ∈ exchanges s.world.trace, Unpulled x) (ht : Trail A s t)
    (hA : ∀ o, A o → ¬ o.Asking) : ∀ x ∈ exchanges t.world.trace, Unpulled x := by
  obtain ⟨new, hnew, hev⟩ := ht.events
  obtain ⟨hcur, hpast⟩ := exchange_append (h _ (mem_exchanges.mpr (Or.inr rfl))) unpulled_empty
    fun o (ho : o ∈ new) _ x hx => Unpulled.observe hx (hA o (hev o ho).1)
  rw [hnew]
  intro x hx
  rcases mem_exchanges.mp hx with hx | rfl
  · exact (hpast x hx).elim (fun hx => h x (mem_exchanges.mpr (Or.inl hx))) id
  · exact hcur

/-- On the path of a streamed response. -/
theorem unpulled_of_pulling {A : Obs → Prop} {s t : AsyncConnection}
    (h : ∀ x ∈ past s.world.trace, Unpulled x) (hp : Pulling s.exchange) (ht : Trail A s t)
    (hA : ∀ o, A o → o ≠ .rearmed ∧ ∀ p, o ≠ .started p) :
    ∀ x ∈ exchanges t.world.trace, Unpulled x := by
  obtain ⟨new, hnew, hev⟩ := ht.events
  obtain ⟨hpast, hcur⟩ := current_kept (R := Pulling) hp fun o (ho : o ∈ new) =>
    ⟨(hA o (hev o ho).1).1, fun x hx => hx.observe (hA o (hev o ho).1).2⟩
  rw [hnew]
  intro x hx
  rcases mem_exchanges.mp hx with hx | rfl
  · exact h x (hpast ▸ hx)
  · exact Or.inl hcur

theorem aside_of_getterEvent {p : Prop} {o : Obs} (h : GetterEvent srv p o) :
    o ≠ .rearmed ∧ ∀ path, o ≠ .started path := by
  refine ⟨?_, fun path => not_started_of_getterEvent h⟩
  rintro rfl
  rcases h with h | ⟨h, -⟩
  · exact h
  · cases h

theorem aside_of_chunkEvent {p : Prop} {o : Obs} (h : ChunkEvent p o) :
    o ≠ .rearmed ∧ ∀ path, o ≠ .started path := by
  refine ⟨?_, fun path => ?_⟩
  all_goals
    rintro rfl
    rcases h with h | ⟨h, -⟩
    · exact h
    · cases h

/-! ## The steps that ask a streamer -/

/-- A response that is sent at once asks no streamer. -/
theorem trail_startRegularReply (s : AsyncConnection) :
    Trail (fun o => ¬ o.Asking) s (startRegularReply srv s) := by
  let p := renderHeaders srv (frameResponse srv s.itsHeadRequest
    (echoETag srv s.itsRequest (encodeResponse srv s.itsRequest s.itsResponse)))
  let u : AsyncConnection := { s with itsResponse := p.1 }
  have hu : Trail (fun o => ¬ o.Asking) s u := Trail.silent rfl fun h => h
  exact hu.trans ((Trail.emit u (o := .rendered .handler p.1 p.2) id fun _ => id).trans
    (Trail.silent rfl fun h => h))

/-- `startReply` on each path. -/
theorem startReply_path (a : Answers) (s : AsyncConnection) :
    Tail.startReply srv a s =
      match replyPath s.itsHeadRequest s.itsResponse with
      | .regular =>
        .stop (startRegularReply srv (setServerHeaders srv a (s.emit (.started .regular))))
      | .stream =>
        Tail.startStreamReply srv a (setServerHeaders srv a (s.emit (.started .stream)))
      | .chunked =>
        Tail.startChunkedReply srv a (setServerHeaders srv a (s.emit (.started .chunked)))
      | .gateway =>
        Tail.getNextChunk srv a { s.emit (.started .gateway) with itsKeepAlive := false } := by
  unfold Tail.startReply replyPath
  cases s.itsHeadRequest with
  | true => rfl
  | false =>
    cases s.itsResponse.hasStreamContent with
    | false => rfl
    | true =>
      cases s.itsResponse.isGatewayResponse with
      | true => rfl
      | false =>
        cases s.itsResponse.chunked with
        | true => rfl
        | false => rfl

/-- The response of a handler goes out. -/
theorem unpulled_startReply {s : AsyncConnection} (a : Answers)
    (h : ∀ x ∈ exchanges s.world.trace, Unpulled x) (hn : s.exchange.path = none) :
    ∀ x ∈ exchanges (Tail.startReply srv a s).state.world.trace, Unpulled x := by
  by_cases hr : replyPath s.itsHeadRequest s.itsResponse = .regular
  · let u := setServerHeaders srv a (s.emit (.started .regular))
    have hu : ∀ x ∈ exchanges u.world.trace, Unpulled x := by
      intro x hx
      rcases mem_exchanges.mp hx with hx | rfl
      · exact h x (mem_exchanges.mpr (Or.inl hx))
      · refine Or.inr ((h _ (mem_exchanges.mpr (Or.inr rfl))).resolve_left ?_)
        rintro ⟨p, hp, -⟩
        exact absurd (hn.symm.trans hp) (by simp)
    rw [startReply_path, hr]
    exact unpulled_trail hu (trail_startRegularReply u) fun _ ho => ho
  · refine unpulled_of_pulling (s := s.emit (.started _)) ?_ ⟨_, rfl, hr⟩
      (stretch_startReply srv a s).toTrail ?_
    · exact fun x hx => h x (mem_exchanges.mpr (Or.inl hx))
    · exact fun o ho => aside_of_getterEvent ho

/-- The call of a handler, up to the last call. -/
theorem unpulled_handleCompletedRead {s : AsyncConnection} (a : Answers)
    (h : ∀ x ∈ exchanges s.world.trace, Unpulled x) (hn : s.exchange.path = none) :
    ∀ x ∈ exchanges (Tail.handleCompletedRead srv a s).state.world.trace, Unpulled x := by
  unfold Tail.handleCompletedRead
  split
  · exact h
  split
  · exact h
  rename_i hopen
  let v := Tail.called s
  have hv : Trail (fun o => ¬ o.Asking) s v :=
    (Trail.emit s (o := .clientStarted _) id fun _ => id).trans
      (Trail.emit _ (o := .dispatched _) id fun hc => absurd hc hopen)
  have hw : ∀ response, ∀ x ∈ exchanges (Tail.handled response v).world.trace, Unpulled x :=
    fun response => unpulled_trail (t := v.emit (.handled response)) h
      (hv.trans (Trail.emit v (o := .handled response) id fun _ => id)) fun _ ho => ho
  rw [Tail.callHandler_eq]
  rcases Tail.returnFromHandler_cases srv a v with
    ⟨-, heq⟩ | ⟨response, ⟨-, heq⟩ | ⟨-, heq⟩ | ⟨-, heq⟩⟩
  · rw [heq]
    exact unpulled_trail h hv fun _ ho => ho
  · rw [heq]
    exact hw response
  · rw [heq]
    exact hw response
  · rw [heq]
    exact unpulled_startReply (s := Tail.handled response v) a (hw response) hn

/-- A write of a response that is sent at once. -/
theorem trail_writeRegularReply (a : Answers) (e : ErrorCode) (n : ℕ) (s : AsyncConnection) :
    Trail (fun o => ¬ o.Asking) s
      (Tail.runWriteHandler srv a .writeRegularReply e n s).state := by
  have hnotify : ∀ u : AsyncConnection,
      Trail (fun o => ¬ o.Asking) u (notifyBackendFinished .exitOk u) := by
    intro u
    unfold notifyBackendFinished
    split
    · exact Trail.refl u
    · exact (Trail.emit u (o := .backendFinished _) id fun _ => id).trans
        (Trail.silent rfl fun h => h)
  unfold Tail.runWriteHandler Tail.continueWrite
  dsimp only
  split
  · split
    · exact Trail.silent rfl fun h => h
    · exact Trail.behind (hnotify _) rfl fun h => h
  · exact Trail.silent rfl fun h => h

/-! ## Every step -/

theorem not_asking_of_earlyEvent {o : Obs} (h : EarlyEvent o) : ¬ o.Asking := by
  rcases h with rfl | rfl | ⟨_, rfl⟩ | ⟨_, _, rfl⟩ | ⟨_, rfl⟩ | rfl | ⟨_, rfl⟩ | rfl
  all_goals exact id

theorem not_asking_of_finishEvent {o : Obs} (h : FinishEvent o) : ¬ o.Asking := by
  rcases h with rfl | ⟨_, _, rfl⟩
  all_goals exact id

theorem Streaming.pulling {t : AsyncConnection} {unsent : Bytes} (h : Streaming srv t unsent) :
    Pulling t.exchange :=
  h.path.elim (fun hp => ⟨_, hp, by simp⟩) fun hp => ⟨_, hp, by simp⟩

/-- The completion handler of a write. -/
theorem unpulled_runWriteHandler {s u : AsyncConnection} {a : Answers} {i n : ℕ} {e : ErrorCode}
    {handler : WriteHandler} {buffer : Bytes} (hinv : Inv srv s)
    (hi : s.world.outstanding[i]? = some (.write handler buffer))
    (h : ∀ x ∈ exchanges u.world.trace, Unpulled x)
    (hp : Pulling s.exchange → Pulling u.exchange) :
    ∀ x ∈ exchanges (Tail.runWriteHandler srv a handler e n u).state.world.trace, Unpulled x := by
  have hpast : ∀ y ∈ past u.world.trace, Unpulled y := fun y hy =>
    h y (mem_exchanges.mpr (Or.inl hy))
  have hpull : Pulling s.exchange →
      ∀ x ∈ exchanges (Tail.runWriteHandler srv a handler e n u).state.world.trace, Unpulled x :=
    fun hs => unpulled_of_pulling hpast (hp hs) (stretch_runWriteHandler srv a handler e n u).toTrail
      fun o ho => aside_of_chunkEvent ho
  have hph := (hinv.released srv hi).2.2
  cases handler with
  | writeRegularReply => exact unpulled_trail h (trail_writeRegularReply a e n u) fun _ ho => ho
  | writeStreamReply => exact hpull (Streaming.pulling (t := s.bare) hph.2)
  | writeChunkedReply => exact hpull ⟨_, hph.2.path, by simp⟩
  | finalizeChunkedReply => exact hpull ⟨_, hph.2.1.path, by simp⟩

/-- The events of a step in front of the last call. -/
theorem unpulled_outcome {s : AsyncConnection} {e : Event} {x : Outcome} (hinv : Inv srv s)
    (h : ∀ x ∈ exchanges s.world.trace, Unpulled x) (hx : Tail.step srv s e = some x) :
    ∀ y ∈ exchanges x.state.world.trace, Unpulled y := by
  have hpast : ∀ y ∈ past s.world.trace, Unpulled y := fun y hy =>
    h y (mem_exchanges.mpr (Or.inl hy))
  have ht := trail_step srv hx
  -- before the handler returns no streamer is asked
  have hearly : (∀ i a, e ≠ .runTask i a) → (∀ i n a, e ≠ .writeSome i n a) →
      (∀ i a, e ≠ .writeFails i a) → ∀ y ∈ exchanges x.state.world.trace, Unpulled y :=
    fun h1 h2 h3 => unpulled_trail h ht fun o ho =>
      not_asking_of_earlyEvent (earlyEvent_of_stepEvent srv h1 h2 h3 ho)
  cases e with
  | runTask i a =>
    simp only [Tail.step] at hx
    split at hx
    · rename_i pool task hi
      obtain rfl := Option.some.inj hx
      obtain ⟨hrel, -, hph⟩ := hinv.released srv hi
      rw [hrel]
      cases task with
      | handleCompletedRead view =>
        have hq : Queued srv s.bare := hph
        exact unpulled_handleCompletedRead (s := cancelTimer s.bare) a h hq.direct.path
      | getNextChunk =>
        exact unpulled_of_pulling (s := s.bare) hpast (Streaming.pulling hph.2.2)
          (stretch_getNextChunk srv a s.bare).toTrail fun o ho => aside_of_chunkEvent ho
      | getNextChunkedChunk =>
        exact unpulled_of_pulling (s := s.bare) hpast ⟨_, hph.2.2.path, by simp⟩
          (stretch_getNextChunkedChunk srv a s.bare).toTrail fun o ho => aside_of_chunkEvent ho
    · cases hx
  | writeSome i n a =>
    simp only [Tail.step] at hx
    split at hx
    · rename_i handler buffer hi
      split at hx
      · rename_i hopen
        obtain rfl := Option.some.inj hx
        let u := (s.release i).emit (.wrote .handler (buffer.take n))
        have hu : ∀ y ∈ exchanges u.world.trace, Unpulled y :=
          unpulled_trail (s := s.release i) (A := fun o => ¬ o.Asking) h
            (Trail.emit (s.release i) id fun hc => absurd (hopen.2.symm.trans hc) (by simp))
            fun _ ho => ho
        exact unpulled_runWriteHandler (u := u) hinv hi hu fun hp => hp
      · cases hx
    · cases hx
  | writeFails i a =>
    simp only [Tail.step] at hx
    split at hx
    · rename_i handler buffer hi
      obtain rfl := Option.some.inj hx
      let u := (s.release i).failWrite
      have hu : ∀ y ∈ exchanges u.world.trace, Unpulled y := by
        exact unpulled_trail (s := s.release i) (t := (s.release i).emit (.writeError .handler))
          (A := fun o => ¬ o.Asking) h (Trail.emit _ id fun _ => id) fun _ ho => ho
      exact unpulled_runWriteHandler (u := u) hinv hi hu fun hp => hp
    · cases hx
  | _ => exact hearly (by simp) (by simp) (by simp)

/-- **Every step keeps the streamers of the responses that are sent at once untouched.** -/
theorem unpulled_step {s s' : AsyncConnection} {e : Event} (hinv : Inv srv s)
    (h : ∀ x ∈ exchanges s.world.trace, Unpulled x) (hstep : step srv s e = some s') :
    ∀ x ∈ exchanges s'.world.trace, Unpulled x := by
  obtain ⟨x, hx, rfl⟩ := exists_outcome srv hstep
  have hstate := unpulled_outcome hinv h hx
  cases x with
  | stop t => exact hstate
  | finish t =>
    exact unpulled_trail hstate (trail_finishResponse srv t) fun o ho =>
      not_asking_of_finishEvent ho
  | reply m t books =>
    have hreply : ∀ y ∈ exchanges (sendSimpleReply srv e.answers m t).world.trace, Unpulled y := by
      refine unpulled_trail hstate (trail_sendSimpleReply srv e.answers m t) ?_
      rintro o (⟨r, rfl⟩ | ⟨b, rfl⟩ | rfl | rfl | ho)
      · exact id
      · exact id
      · exact id
      · exact id
      · exact not_asking_of_finishEvent ho
    have hl := logOnly_keep books (sendSimpleReply srv e.answers m t)
    intro y hy
    refine hreply y ?_
    rcases mem_exchanges.mp hy with hy | rfl
    · exact mem_exchanges.mpr (Or.inl (hl.past ▸ hy))
    · exact mem_exchanges.mpr (Or.inr hl.exchange)

variable (srv)

theorem unpulled_reachable {s : AsyncConnection} (h : Reachable srv s) :
    ∀ x ∈ exchanges s.world.trace, Unpulled x := by
  obtain ⟨es, hrun⟩ := h
  refine (Transition.run_preserves
    (P := fun u => Inv srv u ∧ ∀ x ∈ exchanges u.world.trace, Unpulled x) ?_
    ⟨inv_start srv, ?_⟩ hrun).2
  · rintro u e u' ⟨hinv, hu⟩ hstep
    exact ⟨inv_step srv hinv hstep, unpulled_step hinv hu hstep⟩
  · rw [start_trace]
    intro x hx
    obtain rfl := List.mem_singleton.mp hx
    exact unpulled_empty

/-- **The streamer of a response to a HEAD is never asked.** -/
theorem head_unpulled {s : AsyncConnection} (h : Reachable srv s) {x : Exchange}
    (hx : x ∈ exchanges s.world.trace) {q : Request} (hq : x.requests = [q])
    (hm : q.method = .head) : x.chunks = [] ∧ x.ended = none := by
  refine (unpulled_reachable srv h x hx).resolve_left ?_
  rintro ⟨p, hp, hne⟩
  obtain ⟨-, ht⟩ := traced_reachable srv h
  obtain ⟨q', r, hq', -, hroute⟩ := (ht.answered x hx).routed p hp
  obtain rfl := List.singleton_inj.mp (hq.symm.trans hq')
  exact hne (hroute.trans (replyPath_regular.mpr (Or.inl (decide_eq_true hm))))

end AsyncConnection

end SmartMet
