/-
# Writes that fail

A write that fails leaves a mark on its exchange.  An exchange with the mark is the
last one of its connection, but for a reply of the server's own without content: there
the write of the header section is not looked at once the empty content is out.
-/
import SmartMetServer.MinimalSpine
import SmartMetServer.Origins
import SmartMetServer.Reads

namespace SmartMet

open Exchange

/-! ## The mark of a failed write -/

/-- A failed write that is followed by a re-arming left its mark on an exchange before. -/
theorem failed_of_past {new old : List Obs} {m : Message} (hr : .rearmed ∈ new) :
    ∃ x ∈ past (new ++ .writeError m :: old), x.failed = true := by
  -- by induction on the events behind the failure: the mark stays until the re-arming
  have hmark : .rearmed ∉ new ∧ (current (new ++ .writeError m :: old)).failed = true ∨
      ∃ x ∈ past (new ++ .writeError m :: old), x.failed = true := by
    clear hr
    induction new with
    | nil => exact Or.inl ⟨List.not_mem_nil, rfl⟩
    | cons o new ih =>
      rw [List.cons_append]
      by_cases ho : o = .rearmed
      · subst ho
        refine Or.inr (ih.elim ?_ ?_)
        · rintro ⟨-, hf⟩
          exact ⟨_, List.mem_cons_self, hf⟩
        · rintro ⟨x, hx, hf⟩
          exact ⟨x, List.mem_cons_of_mem _ hx, hf⟩
      · rw [current_cons ho, past_cons ho]
        refine ih.imp_left ?_
        rintro ⟨hn, hf⟩
        refine ⟨fun hm => ?_, ?_⟩
        · rcases List.mem_cons.mp hm with hm | hm
          · exact ho hm.symm
          · exact hn hm
        · cases o with
          | writeError m' => rfl
          | _ => exact hf
  exact hmark.resolve_left fun h => h.1 hr

/-- A write of the server that does not fail leaves no mark. -/
theorem World.failed_write {w : World} {m : Message} {b : Bytes} {o : WriteOutcome}
    (h : w.writeFails b o = false) :
    (SmartMet.current (w.write m b o).trace).failed = (SmartMet.current w.trace).failed := by
  rcases w.write_cases m b o with ⟨-, -, he⟩ | ⟨-, -, he⟩ | ⟨hf, -⟩ | ⟨hf, -⟩
  · rw [he]
  · rw [he]
    rfl
  · rw [h] at hf
    cases hf
  · rw [h] at hf
    cases hf

/-- After a write that failed the socket is of no use. -/
theorem World.socket_of_writeFails {w : World} {m : Message} {b : Bytes} {o : WriteOutcome}
    (h : w.writeFails b o = true) : (w.write m b o).socket ≠ .open := by
  rcases w.write_cases m b o with ⟨hf, -⟩ | ⟨hf, -⟩ | ⟨-, -, n, he⟩ | ⟨-, hs, he⟩
  · rw [h] at hf
    cases hf
  · rw [h] at hf
    cases hf
  · rw [he]
    simp
  · rw [he]
    exact hs

/-- The mark may only be there when the last call re-arms nothing. -/
def Outcome.Unfailed : Outcome → Prop
  | .stop _ => True
  | .reply _ t _ => t.itsKeepAlive = true → t.exchange.failed = false
  | .finish t => t.exchange.failed = false

namespace AsyncConnection

variable {srv : Server}

/-! ## What stands in front of the last call -/

theorem unfailed_sendStockReply (a : Answers) (st : Status) {s : AsyncConnection}
    (h : s.itsKeepAlive = true → s.exchange.failed = false) :
    (Tail.sendStockReply srv a st s).Unfailed := fun hk => h (keepAlive_of_stockResponse srv a hk)

theorem unfailed_scheduleGetter (a : Answers) (task : Task) (s : AsyncConnection) :
    (Tail.scheduleGetter srv a task s).Unfailed := by
  unfold Tail.scheduleGetter
  split
  · trivial
  · exact unfailed_sendStockReply a _ (by simp)

theorem failed_flushPendingHeaders {a : Answers} {s : AsyncConnection}
    (h : flushFails a s = false) :
    (flushPendingHeaders a s).exchange.failed = s.exchange.failed := by
  unfold flushPendingHeaders
  split
  · rfl
  · exact World.failed_write h

theorem unfailed_getNextChunk (a : Answers) {s : AsyncConnection}
    (h : s.exchange.failed = false) : (Tail.getNextChunk srv a s).Unfailed := by
  have hend : ∀ (st : StreamerStatus) (own : Bool), (
      if flushFails a (s.emit (.streamEnded st own)) then
        Outcome.stop (flushPendingHeaders a (s.emit (.streamEnded st own)))
      else Tail.finishStream st (flushPendingHeaders a (s.emit (.streamEnded st own)))).Unfailed := by
    intro st own
    split
    · trivial
    · rename_i hf
      have hl : LogOnly (flushPendingHeaders a (s.emit (.streamEnded st own)))
          (notifyBackendFinished st
            (finalizeStreamLogging (flushPendingHeaders a (s.emit (.streamEnded st own))))) :=
        (logOnly_finalizeStreamLogging _).trans (logOnly_notifyBackendFinished st _)
      show (notifyBackendFinished st (finalizeStreamLogging _)).exchange.failed = false
      rw [hl.exchange, failed_flushPendingHeaders (by simpa using hf)]
      exact h
  unfold Tail.getNextChunk
  cases getStreamingStatus a s.itsResponse with
  | ok =>
    cases nextContent a s.itsResponse with
    | none => trivial
    | some content =>
      dsimp only
      split
      · trivial
      split
      · trivial
      · exact unfailed_scheduleGetter a _ _
  | exitOk => exact hend .exitOk _
  | exitError => exact hend .exitError _

theorem unfailed_getNextChunkedChunk (a : Answers) (s : AsyncConnection) :
    (Tail.getNextChunkedChunk srv a s).Unfailed := by
  unfold Tail.getNextChunkedChunk
  cases getStreamingStatus a s.itsResponse with
  | ok =>
    cases nextContent a s.itsResponse with
    | none => trivial
    | some content =>
      dsimp only
      split
      · trivial
      split
      · trivial
      · exact unfailed_scheduleGetter a _ _
  | exitOk => trivial
  | exitError => trivial

/-- The completion handler of a write. -/
theorem unfailed_runWriteHandler (a : Answers) (handler : WriteHandler) {e : ErrorCode} (n : ℕ)
    {s : AsyncConnection} (h : e = .success → s.exchange.failed = false) :
    (Tail.runWriteHandler srv a handler e n s).Unfailed := by
  have hcont : ∀ (next : AsyncConnection → Outcome) (failed : Books),
      (∀ t, t.exchange.failed = false → (next t).Unfailed) →
      (Tail.continueWrite srv a handler e n next failed s).Unfailed := by
    intro next failed hnext
    unfold Tail.continueWrite
    dsimp only
    split
    · rename_i he
      split
      · trivial
      · exact hnext _ (h he)
    · intro hk
      exact absurd (keepAlive_of_stockResponse srv a hk) (by simp)
  have hlog : ∀ {t u : AsyncConnection}, LogOnly t u → t.exchange.failed = false →
      u.exchange.failed = false := fun hl ht => by rw [hl.exchange]; exact ht
  cases handler with
  | writeRegularReply =>
    exact hcont (fun s => .finish _) _ fun t => hlog (logOnly_notifyBackendFinished .exitOk t)
  | writeStreamReply => exact hcont _ _ fun t _ => unfailed_scheduleGetter a _ t
  | writeChunkedReply => exact hcont _ _ fun t _ => unfailed_scheduleGetter a _ t
  | finalizeChunkedReply =>
    exact hcont (fun s => .finish _) _ fun t => hlog (logOnly_finalizeStreamLogging t)

theorem unfailed_startStreamReply (a : Answers) {s : AsyncConnection}
    (h : s.exchange.failed = false) : (Tail.startStreamReply srv a s).Unfailed := by
  have hpending : ∀ u : AsyncConnection,
      (preparePendingHeaders srv u).exchange.failed = u.exchange.failed := fun _ => rfl
  unfold Tail.startStreamReply
  refine unfailed_getNextChunk a ?_
  rw [hpending]
  exact h

theorem unfailed_startReply (a : Answers) {s : AsyncConnection}
    (h : s.exchange.failed = false) : (Tail.startReply srv a s).Unfailed := by
  have hstarted : ∀ p, (setServerHeaders srv a (s.emit (.started p))).exchange.failed = false :=
    fun _ => h
  unfold Tail.startReply
  split
  · trivial
  split
  · split
    · exact unfailed_getNextChunk a h
    split
    · exact unfailed_getNextChunkedChunk a _
    · exact unfailed_startStreamReply a (hstarted .stream)
  · trivial

theorem unfailed_handleCompletedRead (a : Answers) {s : AsyncConnection}
    (h : s.world.socket ≠ .closed → s.exchange.failed = false) :
    (Tail.handleCompletedRead srv a s).Unfailed := by
  unfold Tail.handleCompletedRead
  split
  · trivial
  split
  · trivial
  rename_i hopen
  have hs := h hopen
  rw [Tail.callHandler_eq]
  rcases Tail.returnFromHandler_cases srv a (Tail.called s) with
    ⟨-, heq⟩ | ⟨response, ⟨-, heq⟩ | ⟨-, heq⟩ | ⟨-, heq⟩⟩
  · rw [heq]
    trivial
  · rw [heq]
    trivial
  · rw [heq]
    exact unfailed_sendStockReply a _ fun _ => hs
  · rw [heq]
    exact unfailed_startReply a hs

theorem unfailed_scheduleRequest (a : Answers) (view : HandlerView) {s : AsyncConnection}
    (h : s.exchange.failed = false) : (Tail.scheduleRequest srv a view s).Unfailed := by
  unfold Tail.scheduleRequest
  split
  · dsimp only
    split
    · trivial
    · exact unfailed_sendStockReply a _ fun _ => h
  · dsimp only
    split
    · trivial
    · exact unfailed_sendStockReply a _ fun _ => h

theorem unfailed_routeRequest (a : Answers) {s : AsyncConnection}
    (h : s.exchange.failed = false) : (Tail.routeRequest srv a s).Unfailed := by
  unfold Tail.routeRequest
  split
  · exact fun _ => h
  split
  · exact unfailed_sendStockReply a _ fun _ => h
  dsimp only
  split
  · exact unfailed_sendStockReply a _ fun _ => h
  · exact unfailed_scheduleRequest a _ h

/-- A request is taken up: the socket is not closed, so nothing was written yet. -/
theorem unfailed_handleParsedRequest (a : Answers) {s : AsyncConnection}
    (h : s.world.socket ≠ .closed → s.exchange.failed = false) :
    (Tail.handleParsedRequest srv a s).Unfailed := by
  unfold Tail.handleParsedRequest
  dsimp only
  split
  · trivial
  rename_i u hu
  obtain ⟨hopen, ip, rfl⟩ := resolveClientIP_eq srv a hu
  split
  · exact unfailed_sendStockReply a _ (by simp)
  · exact unfailed_routeRequest a (h hopen)

theorem unfailed_handleIncompleteRequest (a : Answers) (s : AsyncConnection) :
    (Tail.handleIncompleteRequest srv a s).Unfailed := by
  unfold Tail.handleIncompleteRequest
  split
  · exact unfailed_sendStockReply a _ (by simp)
  dsimp only
  split
  · trivial
  unfold Tail.handleExpectContinue
  split
  · trivial
  dsimp only
  split
  · trivial
  split
  · trivial
  split
  · trivial
  split
  · split
    · trivial
    · trivial
  · exact unfailed_sendStockReply a _ (by simp)

theorem unfailed_handleTimer (a : Answers) (err : ErrorCode) (generation : ℕ)
    (s : AsyncConnection) : (Tail.handleTimer srv a err generation s).Unfailed := by
  unfold Tail.handleTimer
  split
  · trivial
  split
  · trivial
  dsimp only
  split
  · trivial
  · exact unfailed_sendStockReply a _ (by simp)

/-- **In front of the last call** no write of an exchange that goes on has failed. -/
theorem unfailed_step {s : AsyncConnection} {e : Event} {x : Outcome} (hinv : Inv srv s)
    (hx : Tail.step srv s e = some x) : x.Unfailed := by
  -- these steps end in nothing that is written
  have hstop : ∀ {o : Option AsyncConnection}, o.map Outcome.stop = some x → x.Unfailed := by
    intro o ho
    obtain ⟨t, -, rfl⟩ := Option.map_eq_some_iff.mp ho
    trivial
  cases e with
  | readFails i e a =>
    simp only [Tail.step] at hx
    split at hx
    · rename_i hi
      split at hx
      · rename_i he
        obtain rfl := Option.some.inj hx
        obtain ⟨hrel, -, hph⟩ := hinv.released srv hi
        have hr : Reading srv s.bare := hph
        rw [hrel]
        unfold Tail.handleRead
        split
        · exact unfailed_sendStockReply a _ (by rw [hr.keepAlive]; simp)
        · trivial
      · cases hx
    · cases hx
  | runRead i a =>
    simp only [Tail.step] at hx
    split at hx
    · rename_i hi
      obtain rfl := Option.some.inj hx
      obtain ⟨t, ht, ⟨-, he⟩ | ⟨-, -, he⟩ | ⟨-, -, hr, -, he⟩⟩ := hinv.runRead_cases hi a
      · rw [he]
        exact unfailed_sendStockReply a _ (by rw [ht.keepAlive]; simp)
      · rw [he]
        exact unfailed_sendStockReply a _ (by rw [ht.keepAlive]; simp)
      · rw [he]
        unfold Tail.parseBuffer
        split
        · exact unfailed_handleParsedRequest a fun hs => (hr.blank hs).failed
        · exact unfailed_sendStockReply a _ (by rw [hr.keepAlive]; simp)
        · exact unfailed_handleIncompleteRequest a t
    · cases hx
  | runTask i a =>
    simp only [Tail.step] at hx
    split at hx
    · rename_i pool task hi
      obtain rfl := Option.some.inj hx
      obtain ⟨hrel, -, hph⟩ := hinv.released srv hi
      rw [hrel]
      cases task with
      | handleCompletedRead view =>
        have hq : Queued srv s.bare := hph
        exact unfailed_handleCompletedRead a (s := cancelTimer s.bare) fun hs => (hq.blank hs).failed
      | getNextChunk => exact unfailed_getNextChunk a (s := s.bare) hph.1.failed
      | getNextChunkedChunk => exact unfailed_getNextChunkedChunk a s.bare
    · cases hx
  | writeSome i n a =>
    simp only [Tail.step] at hx
    split at hx
    · rename_i handler buffer hi
      split at hx
      · obtain rfl := Option.some.inj hx
        obtain ⟨-, -, hph⟩ := hinv.released srv hi
        have hw : s.bare.exchange.failed = false := by
          cases handler with
          | writeRegularReply => exact hph.1.failed
          | writeStreamReply => exact hph.1.failed
          | writeChunkedReply => exact hph.1.failed
          | finalizeChunkedReply => exact hph.1.failed
        exact unfailed_runWriteHandler a handler n fun _ => hw
      · cases hx
    · cases hx
  | writeFails i a =>
    simp only [Tail.step] at hx
    split at hx
    · obtain rfl := Option.some.inj hx
      exact unfailed_runWriteHandler a _ 0 (by simp)
    · cases hx
  | runTimer generation a =>
    simp only [Tail.step] at hx
    split at hx
    · obtain rfl := Option.some.inj hx
      exact unfailed_handleTimer a _ generation _
    · cases hx
  | handshake i ok => exact hstop hx
  | receive i bytes => exact hstop hx
  | timerExpires => exact hstop hx
  | requestShutdown =>
    obtain rfl := Option.some.inj hx
    trivial

/-! ## The reply whose header section is lost -/

/-- The step ends in a reply of the server's own on a connection that may be reused,
the reply has no content, and the write of its header section fails. -/
def HeaderLost (srv : Server) (s : AsyncConnection) (e : Event) : Prop :=
  match Tail.step srv s e with
  | some (.reply _ t _) => mayReuse t = true ∧ t.itsResponse.status.isSome = true ∧
      t.itsResponse.getContent = [] ∧
      t.world.writeFails (srv.spine.headerSection t.itsResponse) e.answers.headerWrite = true
  | _ => False

instance (s : AsyncConnection) (e : Event) : Decidable (HeaderLost srv s e) := by
  unfold HeaderLost
  split <;> infer_instance

/-- No exchange before the one under way has a failed write. -/
def Clean (s : AsyncConnection) : Prop := ∀ x ∈ past s.world.trace, x.failed = false

/-- The end of a response. -/
theorem clean_finishResponse {s : AsyncConnection} (h : Clean s)
    (hf : mayReuse s = true → s.exchange.failed = false) : Clean (finishResponse srv s) := by
  unfold finishResponse
  split
  · rename_i hr
    have hpast : past (resumeReading (armForNextRequest srv (resetRequestState s))).world.trace
        = s.exchange :: past s.world.trace := by
      unfold resumeReading
      split
      · rfl
      · rfl
    intro x hx
    rw [hpast] at hx
    rcases List.mem_cons.mp hx with rfl | hx
    · exact hf hr
    · exact h x hx
  · exact h

/-- A reply of the server's own. -/
theorem clean_sendSimpleReply {s : AsyncConnection} (a : Answers) (m : Message) (h : Clean s)
    (hf : s.itsKeepAlive = true → s.exchange.failed = false)
    (hlost : ¬ (mayReuse s = true ∧ s.itsResponse.status.isSome = true ∧
      s.itsResponse.getContent = [] ∧
      s.world.writeFails (srv.spine.headerSection s.itsResponse) a.headerWrite = true)) :
    Clean (sendSimpleReply srv a m s) := by
  unfold sendSimpleReply headersToString
  split
  · exact h
  rename_i head hhead
  split at hhead
  swap
  · cases hhead
  rename_i hset
  obtain rfl := Option.some.inj hhead
  let u := writeHead a m (srv.spine.headerSection s.itsResponse) s
  let v := writeContent a m u
  let w := s.world.emit (.rendered m s.itsResponse (srv.spine.headerSection s.itsResponse))
  have hd := w.write_delivers m (srv.spine.headerSection s.itsResponse) a.headerWrite
  have hd' := u.world.write_delivers m u.itsResponse.getContent a.contentWrite
  have hv : Clean v := by
    intro x hx
    refine h x ?_
    have hpast : past v.world.trace = past s.world.trace := hd'.past.trans hd.past
    rwa [hpast] at hx
  show Clean (if v.itsKeepAlive = true then finishResponse srv v else closeSocket v)
  split
  swap
  · exact hv
  rename_i hk
  refine clean_finishResponse hv fun hr => ?_
  -- the content went out, so the header section did, unless there was no content
  have hk' : (s.itsKeepAlive && !u.world.writeFails u.itsResponse.getContent a.contentWrite) = true :=
    hk
  rw [Bool.and_eq_true, Bool.not_eq_true'] at hk'
  obtain ⟨hkeep, hcontent⟩ := hk'
  have hhead : s.world.writeFails (srv.spine.headerSection s.itsResponse) a.headerWrite = false := by
    by_contra hne
    have hfails : s.world.writeFails (srv.spine.headerSection s.itsResponse) a.headerWrite = true := by
      simpa using hne
    have hsock : u.world.socket ≠ .open := World.socket_of_writeFails
      (w := w) hfails
    have hempty : s.itsResponse.getContent = [] := by
      have hc : u.world.writeFails s.itsResponse.getContent a.contentWrite = false := hcontent
      unfold World.writeFails at hc
      have hs : (u.world.socket != .open) = true := by simpa using hsock
      rw [hs, Bool.true_or, Bool.and_true, Bool.not_eq_false'] at hc
      simpa using hc
    have hshut : v.world.shutdownRequested = s.world.shutdownRequested :=
      hd'.shutdownRequested.trans hd.shutdownRequested
    refine hlost ⟨?_, hset, hempty, hfails⟩
    unfold mayReuse at hr ⊢
    rw [hshut] at hr
    rw [hkeep]
    have htime : v.hasTimedOut = s.hasTimedOut := rfl
    rw [hk, htime] at hr
    exact hr
  show v.exchange.failed = false
  rw [show v.exchange.failed = u.exchange.failed from World.failed_write hcontent,
    show u.exchange.failed = s.exchange.failed from World.failed_write (w := s.world.emit
      (.rendered m s.itsResponse (srv.spine.headerSection s.itsResponse))) hhead]
  exact hf hkeep

/-- **A step that loses no header section re-arms no exchange with a failed write.** -/
theorem clean_step {s s' : AsyncConnection} {e : Event} (hinv : Inv srv s) (h : Clean s)
    (hlost : ¬ HeaderLost srv s e) (hstep : step srv s e = some s') : Clean s' := by
  obtain ⟨x, hx, rfl⟩ := exists_outcome srv hstep
  have hf := unfailed_step hinv hx
  have hstate : Clean x.state := by
    obtain ⟨new, hnew, hev⟩ := (trail_step srv hx).events
    intro y hy
    rw [hnew, past_append fun o ho => not_rearmed_of_stepEvent srv (hev o ho).1] at hy
    exact h y hy
  cases x with
  | stop t => exact hstate
  | finish t => exact clean_finishResponse hstate fun _ => hf
  | reply m t books =>
    have hreply : Clean (sendSimpleReply srv e.answers m t) := by
      refine clean_sendSimpleReply e.answers m hstate hf ?_
      unfold HeaderLost at hlost
      rw [hx] at hlost
      exact hlost
    intro y hy
    exact hreply y ((logOnly_keep books (sendSimpleReply srv e.answers m t)).past ▸ hy)

/-- **No failed write leads to reuse.**  In a run without a lost header section the
connection is not re-armed after a write has failed. -/
theorem failed_write_ends {s : AsyncConnection} {es : List Event}
    (hrun : runFrom srv (start srv) es = some s)
    (hlost : Transition.Along (step srv) (fun s e => ¬ HeaderLost srv s e) (start srv) es)
    {new old : List Obs} {m : Message} (h : s.world.trace = new ++ .writeError m :: old) :
    .rearmed ∉ new := by
  have hclean : Inv srv s ∧ Clean s := by
    refine Transition.run_preserves_of (P := fun u => Inv srv u ∧ Clean u) ?_ hlost
      ⟨inv_start srv, ?_⟩ hrun
    · rintro u e u' ⟨hinv, hu⟩ hG hstep
      exact ⟨inv_step srv hinv hstep, clean_step hinv hu hG hstep⟩
    · intro x hx
      rw [start_trace] at hx
      cases hx
  intro hr
  obtain ⟨x, hx, hf⟩ := @failed_of_past new old m hr
  rw [← h] at hx
  rw [hclean.2 x hx] at hf
  cases hf

/-- The client is gone when the answer to its request is written. -/
def goneRun : List Event :=
  [.receive 0 "GET /x HTTP/1.1\r\nHost: h\r\n\r\n".toList, .runRead 0 MinimalSpine.answers,
    .runTask 0 { MinimalSpine.answers with
      handler := .returned true { status := some 200, content := .buffer "a".toList } false },
    .writeFails 0 MinimalSpine.answers]

theorem failed_write_ends_gone :
    ∃ s, runFrom MinimalSpine.server (start MinimalSpine.server) goneRun = some s ∧
      ∃ new old, s.world.trace = new ++ .writeError .handler :: old ∧ .rearmed ∉ new := by
  obtain ⟨s, hs, hp⟩ := MinimalSpine.reached goneRun
    (fun s => s.world.trace.any (· == .writeError .handler)) (by decide +kernel)
  obtain ⟨o, ho, heq⟩ := List.any_eq_true.mp hp
  obtain rfl := beq_iff_eq.mp heq
  obtain ⟨new, old, hsplit⟩ := List.append_of_mem ho
  exact ⟨s, hs, new, old, hsplit, failed_write_ends hs (by decide +kernel) hsplit⟩

/-- The header section of the answer to `OPTIONS *` is cut off, and the connection is
re-armed. -/
theorem reused_after_failed_write :
    ∃ s, runFrom MinimalSpine.server (start MinimalSpine.server)
        [.receive 0 "OPTIONS * HTTP/1.1\r\nHost: h\r\n\r\n".toList,
          .runRead 0 { MinimalSpine.answers with headerWrite := .failed 5 }] = some s ∧
      ∃ new old, s.world.trace = new ++ .writeError .options :: old ∧ .rearmed ∈ new := by
  obtain ⟨s, hs, hp⟩ := MinimalSpine.reached
    [.receive 0 "OPTIONS * HTTP/1.1\r\nHost: h\r\n\r\n".toList,
      .runRead 0 { MinimalSpine.answers with headerWrite := .failed 5 }]
    (fun s => (s.world.trace.take 2).contains .rearmed &&
      (s.world.trace.drop 2).head? == some (.writeError .options)) (by decide +kernel)
  simp only [Bool.and_eq_true, beq_iff_eq, List.contains_iff_mem] at hp
  obtain ⟨hr, hhead⟩ := hp
  obtain ⟨old, hold⟩ := List.head?_eq_some_iff.mp hhead
  refine ⟨s, hs, s.world.trace.take 2, old, ?_, hr⟩
  rw [← hold, List.take_append_drop]

end AsyncConnection

end SmartMet
