/-
# Unchunked streamed bodies

A response of announced length, or one of a gateway, consists of the streamer's
bytes and of nothing else, as long as the executor takes the getters of its
chunks and the response has a status.  A getter that is not taken (`Refuses`) is
answered with a stock reply, and its bytes go out as if they were content; a
response of announced length without a status becomes the page of 501.
-/
import SmartMetServer.MinimalSpine
import SmartMetServer.Streamers

namespace SmartMet

open Exchange

/-! ## Refusals in a trace -/

/-- Events that refuse no getter and start no path leave no new refusal. -/
theorem refused_of_append {new t : List Obs}
    (h : ∀ o ∈ new, o ≠ .refused ∧ ∀ p, o ≠ .started p)
    (hr : (current (new ++ t)).refused = true) :
    (current t).refused = true ∧ (current (new ++ t)).path = (current t).path := by
  induction new with
  | nil => exact ⟨hr, rfl⟩
  | cons o new ih =>
    obtain ⟨⟨ho, hs⟩, hnew⟩ := List.forall_mem_cons.mp h
    rw [List.cons_append] at hr ⊢
    by_cases hre : o = .rearmed
    · subst hre
      cases hr
    · rw [current_cons hre] at hr ⊢
      cases o with
      | refused => exact absurd rfl ho
      | started p => exact absurd rfl (hs p)
      | _ => exact ih hnew hr

/-- Events that neither end the exchange nor start a path keep the path. -/
theorem path_of_append {new t : List Obs}
    (h : ∀ o ∈ new, o ≠ .rearmed ∧ ∀ p, o ≠ .started p) :
    (current (new ++ t)).path = (current t).path := by
  induction new with
  | nil => rfl
  | cons o new ih =>
    obtain ⟨⟨ho, hs⟩, hnew⟩ := List.forall_mem_cons.mp h
    rw [List.cons_append, current_cons ho]
    cases o with
    | started p => exact absurd rfl (hs p)
    | _ => exact ih hnew

namespace AsyncConnection

variable (srv : Server)

/-- The executor does not take the getter of the next chunk of an unchunked
streamed response. -/
def Refuses (s : AsyncConnection) : Event → Prop
  | .runTask i a =>
    ∃ pool task, s.world.outstanding[i]? = some (.task pool task) ∧
      (task = .getNextChunk ∧ EmptyRefused a s.itsResponse ∨
        ∃ view response, task = .handleCompletedRead view ∧
          a.handler = .returned true response false ∧
          FirstRefused srv a (replyPath s.itsHeadRequest response) response)
  | .writeSome i n a =>
    (∃ buffer, s.world.outstanding[i]? = some (.write .writeStreamReply buffer)) ∧
      s.itsResponseString.length ≤ s.itsSentBytes + n ∧ a.accepts = false
  | _ => False

/-- Only a chunked response was refused a getter. -/
def Unrefused (s : AsyncConnection) : Prop :=
  s.exchange.refused = true → s.exchange.path = some .chunked

variable {srv}

theorem Unrefused.trail {A : Obs → Prop} {s t : AsyncConnection} (h : Unrefused s)
    (ht : Trail A s t) (hA : ∀ o, A o → o ≠ .refused ∧ ∀ p, o ≠ .started p) :
    Unrefused t := by
  obtain ⟨new, hnew, hev⟩ := ht.events
  intro hr
  unfold exchange at hr ⊢
  rw [hnew] at hr ⊢
  obtain ⟨hold, hpath⟩ := refused_of_append (fun o ho => hA o (hev o ho).1) hr
  rw [hpath]
  exact h hold

/-- A chunked response may be refused a getter. -/
theorem unrefused_of_chunked {A : Obs → Prop} {s t : AsyncConnection}
    (h : s.exchange.path = some .chunked) (ht : Trail A s t)
    (hA : ∀ o, A o → o ≠ .rearmed ∧ ∀ p, o ≠ .started p) : Unrefused t := by
  obtain ⟨new, hnew, hev⟩ := ht.events
  intro _
  unfold exchange at h ⊢
  rw [hnew, path_of_append (fun o ho => hA o (hev o ho).1)]
  exact h

theorem replyEvent_ne {o : Obs} (h : ReplyEvent srv o) :
    o ≠ .rearmed ∧ o ≠ .refused ∧ ∀ p, o ≠ .started p := by
  refine ⟨?_, ?_, ?_⟩
  · rintro rfl
    exact h
  · rintro rfl
    exact h
  · rintro p rfl
    exact h

/-- What is sent of a response that goes on. -/
theorem Unrefused.delivery {A : Obs → Prop} {p : Prop} {s t : AsyncConnection} (h : Unrefused s)
    (ht : Stretch (fun o => A o ∨ o = .refused ∧ p) s t)
    (hA : ∀ o, A o → o ≠ .rearmed ∧ o ≠ .refused ∧ ∀ p, o ≠ .started p)
    (hp : p → s.exchange.path = some .chunked) : Unrefused t := by
  by_cases hc : s.exchange.path = some .chunked
  · refine unrefused_of_chunked hc ht.toTrail ?_
    rintro o (ho | ⟨rfl, -⟩)
    · exact ⟨(hA o ho).1, (hA o ho).2.2⟩
    · simp
  · refine h.trail ht.toTrail ?_
    rintro o (ho | ⟨-, ha⟩)
    · exact (hA o ho).2
    · exact absurd (hp ha) hc

/-- The getters of a response under way. -/
theorem Unrefused.chunk {p : Prop} {s t : AsyncConnection} (h : Unrefused s)
    (ht : Stretch (ChunkEvent p) s t) (hp : p → s.exchange.path = some .chunked) :
    Unrefused t := by
  have hne : ∀ o, DeliveryEvent o → o ≠ .rearmed ∧ o ≠ .refused ∧ ∀ p, o ≠ .started p := by
    intro o ho
    refine ⟨?_, ?_, ?_⟩
    · rintro rfl
      exact ho
    · rintro rfl
      exact ho
    · rintro p rfl
      exact ho
  exact h.delivery ht hne hp

/-- The last call refuses no getter. -/
theorem Unrefused.run {x : Outcome} (h : Unrefused x.state) (a : Answers) :
    Unrefused (x.run srv a) := by
  refine h.trail (trail_run srv a x) ?_
  have hfinish : ∀ o, FinishEvent o → o ≠ .refused ∧ ∀ p, o ≠ .started p := by
    rintro o (rfl | ⟨_, _, rfl⟩)
    · simp
    · simp
  intro o ho
  cases x with
  | stop s => exact absurd ho id
  | reply m s books =>
    rcases ho with (⟨_, rfl⟩ | ⟨_, rfl⟩ | rfl | rfl | ho) | ho
    · simp
    · simp
    · simp
    · simp
    · exact hfinish o ho
    · exact (replyEvent_ne ho).2
  | finish s => exact hfinish o ho

/-- A handler is called, and its response is started. -/
theorem Unrefused.callHandler {s : AsyncConnection} {a : Answers}
    (hs : s.exchange.refused = false)
    (hr : ∀ response, a.handler = .returned true response false →
      ¬ FirstRefused srv a (replyPath s.itsHeadRequest response) response) :
    Unrefused (Tail.callHandler srv a s).state := by
  have h0 : ∀ u : AsyncConnection, u.exchange.refused = false → Unrefused u := by
    intro u hu hur
    rw [hu] at hur
    cases hur
  have hcalled : (Tail.called s).exchange.refused = false := hs
  have hhandled : ∀ response, (Tail.handled response (Tail.called s)).exchange.refused = false := by
    intro response
    rw [Tail.exchange_handled]
    exact hs
  rw [Tail.callHandler_eq]
  rcases Tail.returnFromHandler_cases srv a (Tail.called s) with
    ⟨-, heq⟩ | ⟨response, ⟨-, heq⟩ | ⟨-, heq⟩ | ⟨hret, heq⟩⟩
  · rw [heq]
    exact h0 _ hcalled
  · rw [heq]
    exact h0 _ (hhandled response)
  · refine h0 _ ?_
    rw [heq, Tail.exchange_sendStockReply]
    exact hhandled response
  · rw [heq]
    let v := Tail.handled response (Tail.called s)
    have hhead : v.itsHeadRequest = s.itsHeadRequest := rfl
    have hstart : Unrefused (v.emit (.started (replyPath v.itsHeadRequest v.itsResponse))) :=
      h0 _ (hhandled response)
    refine hstart.delivery (stretch_startReply srv a v) (fun _ => replyEvent_ne) ?_
    rintro (⟨hp, -⟩ | he)
    · exact congrArg some hp
    · rw [hhead] at he
      exact absurd he (hr response hret)

/-- An event of a step that runs no handler and no part of a reply path. -/
theorem Unrefused.quiet {s : AsyncConnection} {e : Event} {x : Outcome} (h : Unrefused s)
    (hx : Tail.step srv s e = some x)
    (he : ∀ o, StepEvent srv e o → o ≠ .refused ∧ ∀ p, o ≠ .started p) : Unrefused x.state :=
  h.trail (trail_step srv hx) he

/-- The code of a step in front of its last call. -/
theorem Unrefused.state {s : AsyncConnection} {e : Event} {x : Outcome} (hinv : Inv srv s)
    (h : Unrefused s) (hG : ¬ Refuses srv s e) (hx : Tail.step srv s e = some x) :
    Unrefused x.state := by
  cases e with
  | handshake i ok => exact h.quiet hx (by rintro o rfl; simp)
  | receive i bytes => exact h.quiet hx (by rintro o rfl; simp)
  | readFails i err a => exact h.quiet hx (by rintro o rfl; simp)
  | runRead i a =>
    refine h.quiet hx ?_
    rintro o (⟨_, _, rfl⟩ | ⟨_, rfl⟩ | rfl | ⟨_, rfl⟩ | rfl)
    all_goals simp
  | timerExpires => exact h.quiet hx fun o ho => absurd ho id
  | runTimer generation a => exact h.quiet hx (by rintro o rfl; simp)
  | requestShutdown => exact h.quiet hx fun o ho => absurd ho id
  | runTask i a =>
    simp only [Tail.step] at hx
    split at hx
    · rename_i pool task hi
      obtain rfl := Option.some.inj hx
      obtain ⟨-, -, hp⟩ := hinv.released srv hi
      have hrel : Unrefused (s.release i) := h
      cases task with
      | handleCompletedRead view =>
        -- a request that is queued has refused no getter
        have hfresh : s.exchange.refused = false :=
          (show Queued srv s.bare from hp).direct.refused
        show Unrefused (Tail.handleCompletedRead srv a (cancelTimer (s.release i))).state
        unfold Tail.handleCompletedRead
        split
        · exact h
        · split
          · exact h
          · refine Unrefused.callHandler hfresh ?_
            intro response hret he
            exact hG ⟨pool, _, hi, Or.inr ⟨view, response, rfl, hret, he⟩⟩
      | getNextChunk =>
        refine hrel.chunk (stretch_getNextChunk srv a _) ?_
        exact fun he => absurd ⟨pool, _, hi, Or.inl ⟨rfl, he⟩⟩ hG
      | getNextChunkedChunk =>
        refine hrel.chunk (stretch_getNextChunkedChunk srv a _) ?_
        exact fun _ => hp.2.2.path
    · cases hx
  | writeSome i n a =>
    simp only [Tail.step] at hx
    split at hx
    · rename_i handler buffer hi
      split at hx
      · obtain rfl := Option.some.inj hx
        obtain ⟨-, -, hp⟩ := hinv.released srv hi
        let u := (s.release i).emit (.wrote .handler (buffer.take n))
        have hu : Unrefused u := h
        refine hu.chunk (stretch_runWriteHandler srv a handler _ n u) ?_
        rintro ⟨hh, -, hlen, hacc⟩
        rcases hh with rfl | rfl
        · exact absurd ⟨⟨buffer, hi⟩, hlen, hacc⟩ hG
        · exact hp.2.path
      · cases hx
    · cases hx
  | writeFails i a =>
    simp only [Tail.step] at hx
    split at hx
    · rename_i handler buffer hi
      obtain rfl := Option.some.inj hx
      have hu : Unrefused (s.release i).failWrite := h
      refine hu.chunk (stretch_runWriteHandler srv a handler _ 0 _) ?_
      rintro ⟨-, he, -⟩
      cases he
    · cases hx

/-- **A step refuses chunked responses only**, unless it is one of `Refuses`. -/
theorem Unrefused.step {s s' : AsyncConnection} {e : Event} (hinv : Inv srv s)
    (h : Unrefused s) (hG : ¬ Refuses srv s e) (hstep : step srv s e = some s') :
    Unrefused s' := by
  obtain ⟨x, hx, rfl⟩ := exists_outcome srv hstep
  exact (h.state hinv hG hx).run e.answers

variable (srv)

/-- **Integrity of unchunked streamed bodies.**  In every state of a run in which
the executor takes the getters of unchunked responses, what was sent of such a
response is its header section (none, for a gateway) and behind it a part of the
streamer's bytes; the handler has to have set the status of a response with a
header section. -/
theorem stream_intact {es : List Event} {s : AsyncConnection}
    (hrun : runFrom srv (start srv) es = some s)
    (hG : Transition.Along (step srv) (fun s e => ¬ Refuses srv s e) (start srv) es) {x : Exchange}
    (hx : x ∈ exchanges s.world.trace) (hp : x.path = some .stream ∨ x.path = some .gateway)
    (hset : x.path = some .stream → ∀ h, x.handled = some h → h.status ≠ none) :
    (x.path = some .gateway → x.headBytes = []) ∧
      (x.path = some .stream → ∃ r head rest, x.heads = (.handler, r, head) :: rest ∧
        x.headBytes = head) ∧
      x.out <+: x.headBytes ++ x.streamed.flatten := by
  have hall : Inv srv s ∧ Unrefused s := by
    refine Transition.run_preserves_of (P := fun s => Inv srv s ∧ Unrefused s) ?_ hG ?_ hrun
    · exact fun u e u' hu hnot hstep => ⟨inv_step srv hu.1 hstep, hu.2.step hu.1 hnot hstep⟩
    · refine ⟨inv_start srv, ?_⟩
      have hfresh : (start srv).exchange.refused = false := by
        unfold start
        dsimp only
        split
        · rfl
        · rfl
      intro hr
      rw [hfresh] at hr
      cases hr
  obtain ⟨hinv, hun⟩ := hall
  have hsound := sound_exchanges srv hinv hx
  have hnot : x.refused = false := by
    rcases mem_exchanges.mp hx with hpast | rfl
    · exact (hinv.1.past x hpast).refused
    · by_contra hr
      have hc := hun ((Bool.not_eq_false _).mp hr)
      rcases hp with hp | hp
      · rw [show s.exchange.path = some .stream from hp] at hc
        cases hc
      · rw [show s.exchange.path = some .gateway from hp] at hc
        cases hc
  -- a page of the server's own behind a chunk would be that of a refused getter
  have hserver : x.serverBytes = [] := by
    by_contra hs
    have := (hsound.server (by rcases hp with hp | hp <;> simp [hp]) hs).1
    rw [hnot] at this
    cases this
  refine ⟨hsound.gateway, ?_, ?_⟩
  · intro hps
    obtain ⟨r, head, rest, hheads⟩ := hsound.headed (by simp [hps]) (by simp [hps])
    refine ⟨r, head, rest, hheads, ?_⟩
    unfold headBytes
    rw [hheads]
    rfl
  · have hgenuine : x.Genuine := by
      refine (genuine_exchange srv ⟨es, hrun⟩ hx).resolve_right fun hrep => ?_
      obtain ⟨hpath, h, hh, hstatus⟩ := hrep.unset
      have hstream : x.path = some .stream := by
        refine hp.resolve_right fun hgateway => ?_
        rw [hgateway] at hpath
        simp at hpath
      exact hset hstream h hh hstatus
    -- with a status set the getters were given what the streamer gave
    rw [out_eq hsound.ordered, hserver, List.append_nil, hgenuine.streamed]
    exact hsound.streamed hp

/-- A stream of ten announced bytes in two chunks; the executor takes the getter of
the second chunk, or does not. -/
def streamRun (accepts : Bool) : List Event :=
  [.receive 0 "GET /x HTTP/1.1\r\nHost: h\r\n\r\n".toList, .runRead 0 MinimalSpine.answers,
    .runTask 0 { MinimalSpine.answers with
      handler := .returned true { status := some 200, content := .stream 10 } false
      content := some "hello".toList },
    .writeSome 0 50 MinimalSpine.answers,
    .writeSome 0 43 { MinimalSpine.answers with accepts := accepts }]

theorem stream_intact_hello :
    ∃ s x, runFrom MinimalSpine.server (start MinimalSpine.server) (streamRun true) = some s ∧
      x ∈ exchanges s.world.trace ∧ x.path = some .stream ∧
      x.out <+: x.headBytes ++ x.streamed.flatten := by
  obtain ⟨s, hs, hp⟩ := MinimalSpine.reached (streamRun true)
    (fun s => s.exchange.path == some .stream &&
      s.exchange.handled.any fun (r : Response) => r.status == some 200)
    (by decide +kernel)
  simp only [Bool.and_eq_true, beq_iff_eq, Option.any_eq_true] at hp
  obtain ⟨hpath, r, hr, hstatus⟩ := hp
  have hx : s.exchange ∈ exchanges s.world.trace := mem_exchanges.mpr (Or.inr rfl)
  refine ⟨s, s.exchange, hs, hx, hpath,
    (stream_intact MinimalSpine.server hs ?_ hx (Or.inl hpath) fun _ h hh => ?_).2.2⟩
  · refine Transition.along_of_forall ?_ _
    simp [streamRun, Refuses, FirstRefused, EmptyRefused, MinimalSpine.answers]
  · rw [hr] at hh
    obtain rfl := Option.some.inj hh
    rw [hstatus]
    simp

/-- **A getter that is not taken puts a stock reply into the content**: the client
takes its first bytes for the rest of the announced ten. -/
theorem stream_not_intact :
    ∃ s x, Reachable MinimalSpine.server s ∧ x ∈ exchanges s.world.trace ∧
      x.path = some .stream ∧ x.streamed.flatten = "hello".toList ∧
      (x.out.drop x.headBytes.length).take 10 = "helloHTTP/".toList ∧
      ¬ x.out <+: x.headBytes ++ x.streamed.flatten := by
  obtain ⟨s, hs, hp⟩ := MinimalSpine.reached (streamRun false)
    (fun s => s.exchange.path == some .stream && s.exchange.streamed.flatten == "hello".toList &&
      (s.exchange.out.drop s.exchange.headBytes.length).take 10 == "helloHTTP/".toList &&
      !s.exchange.out.isPrefixOf (s.exchange.headBytes ++ s.exchange.streamed.flatten))
    (by decide +kernel)
  simp only [Bool.and_eq_true, beq_iff_eq, Bool.not_eq_true', ← Bool.not_eq_true,
    List.isPrefixOf_iff_prefix] at hp
  exact ⟨s, s.exchange, ⟨_, hs⟩, mem_exchanges.mpr (Or.inr rfl), hp.1.1.1, hp.1.1.2, hp.1.2, hp.2⟩

end AsyncConnection

end SmartMet
