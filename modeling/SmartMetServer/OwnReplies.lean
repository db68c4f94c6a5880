/-
# The server's own replies

A step ends in a reply of the server's own only with the statuses listed here:
those of the read path, of the timer, of a full executor and of a handler that
turned a request down.
-/
import SmartMetServer.Stretches

namespace SmartMet

/-- A task of a pool or a write. -/
def Activity.Works : Activity → Prop
  | .task _ _ => True
  | .write _ _ => True
  | _ => False

/-- A write of a response of a handler, or the wait for its next chunk. -/
def Activity.Answers : Activity → Prop
  | .task _ .getNextChunk => True
  | .task _ .getNextChunkedChunk => True
  | .write _ _ => True
  | _ => False

/-- To answer a request is to work on it. -/
theorem Activity.Answers.works {y : Activity} (h : y.Answers) : y.Works := by
  rcases y with _ | _ | bytes | ⟨pool, _ | _ | _⟩ | ⟨handler, buffer⟩
  · exact h
  · exact h
  · exact h
  · trivial
  · trivial
  · trivial
  · trivial

/-- A function called in the state `s` ends with a reply that `A` allows, or
without one; what it leaves outstanding is a task or a write. -/
def Outcome.Ends (A : Message → Prop) (s : AsyncConnection) : Outcome → Prop
  | .stop t => t.world.outstanding = s.world.outstanding ∨
      ∃ y : Activity, y.Works ∧ t.world.outstanding = s.world.outstanding ++ [y]
  | .reply m t _ => A m ∧ t.world.outstanding = s.world.outstanding
  | .finish t => t.world.outstanding = s.world.outstanding

/-- More messages may be allowed. -/
theorem Outcome.Ends.mono {A B : Message → Prop} {s : AsyncConnection} {x : Outcome}
    (h : x.Ends A s) (hab : ∀ m, A m → B m) : x.Ends B s := by
  cases x with
  | reply m t books => exact ⟨hab m h.1, h.2⟩
  | stop t => exact h
  | finish t => exact h

/-- What was done before started nothing. -/
theorem Outcome.Ends.behind {A : Message → Prop} {s t : AsyncConnection} {x : Outcome}
    (h : x.Ends A t) (ht : t.world.outstanding = s.world.outstanding) : x.Ends A s := by
  cases x with
  | reply m u books => exact ⟨h.1, h.2.trans ht⟩
  | stop u =>
    rcases h with h | ⟨y, hy, h⟩
    · exact Or.inl (h.trans ht)
    · exact Or.inr ⟨y, hy, h.trans (by rw [ht])⟩
  | finish u => exact h.trans ht

/-- A function of the reply paths ends likewise, and what it leaves outstanding goes
on with the response. -/
def Outcome.Replies (A : Message → Prop) (s : AsyncConnection) : Outcome → Prop
  | .stop t => t.world.outstanding = s.world.outstanding ∨
      ∃ y : Activity, y.Answers ∧ t.world.outstanding = s.world.outstanding ++ [y]
  | .reply m t _ => A m ∧ t.world.outstanding = s.world.outstanding
  | .finish t => t.world.outstanding = s.world.outstanding

/-- A reply is an end. -/
theorem Outcome.Replies.ends {A : Message → Prop} {s : AsyncConnection} {x : Outcome}
    (h : x.Replies A s) : x.Ends A s := by
  cases x with
  | stop t => exact h.imp_right fun ⟨y, hy, ht⟩ => ⟨y, hy.works, ht⟩
  | reply m t books => exact h
  | finish t => exact h

/-- More messages may be allowed. -/
theorem Outcome.Replies.mono {A B : Message → Prop} {s : AsyncConnection} {x : Outcome}
    (h : x.Replies A s) (hab : ∀ m, A m → B m) : x.Replies B s := by
  cases x with
  | reply m t books => exact ⟨hab m h.1, h.2⟩
  | stop t => exact h
  | finish t => exact h

/-- What was done before started nothing. -/
theorem Outcome.Replies.behind {A : Message → Prop} {s t : AsyncConnection} {x : Outcome}
    (h : x.Replies A t) (ht : t.world.outstanding = s.world.outstanding) : x.Replies A s := by
  cases x with
  | reply m u books => exact ⟨h.1, h.2.trans ht⟩
  | stop u =>
    rcases h with h | ⟨y, hy, h⟩
    · exact Or.inl (h.trans ht)
    · exact Or.inr ⟨y, hy, h.trans (by rw [ht])⟩
  | finish u => exact h.trans ht

/-- A function ends with a reply that `A` allows, or without one. -/
def Outcome.Says (A : Message → Prop) : Outcome → Prop
  | .reply m _ _ => A m
  | _ => True

/-- More messages may be allowed. -/
theorem Outcome.Says.mono {A B : Message → Prop} {x : Outcome} (h : x.Says A)
    (hab : ∀ m, A m → B m) : x.Says B := by
  cases x with
  | reply m s books => exact hab m h
  | stop s => trivial
  | finish s => trivial

/-- Who ends says no more than that. -/
theorem Outcome.Ends.toSays {A : Message → Prop} {s : AsyncConnection} {x : Outcome}
    (h : x.Ends A s) : x.Says A := by
  cases x with
  | reply m t books => exact h.1
  | stop t => trivial
  | finish t => trivial

/-- The steps that go on with a reply, and those in which a read has failed. -/
def Event.Resumes : Event → Prop
  | .readFails _ _ _ => True
  | .runTask _ _ => True
  | .writeSome _ _ _ => True
  | .writeFails _ _ => True
  | _ => False

/-- The message is a stock reply with one of these statuses. -/
def Message.StockOf (sts : List Status) (m : Message) : Prop := ∃ st ∈ sts, m = .stock st

/-- More statuses may be allowed. -/
theorem Message.StockOf.mono {sts sts' : List Status} {m : Message} (h : m.StockOf sts)
    (hsub : sts ⊆ sts') : m.StockOf sts' := by
  obtain ⟨st, hst, hm⟩ := h
  exact ⟨st, hsub hst, hm⟩

namespace AsyncConnection

variable (srv : Server)

/-! ## Functions that leave nothing outstanding -/

/-- The notification of a backend starts nothing, -/
theorem outstanding_notifyBackendFinished (st : StreamerStatus) (s : AsyncConnection) :
    (notifyBackendFinished st s).world.outstanding = s.world.outstanding := by
  unfold notifyBackendFinished
  split
  · rfl
  · rfl

/-- nor does the log -/
theorem outstanding_finalizeStreamLogging (s : AsyncConnection) :
    (finalizeStreamLogging s).world.outstanding = s.world.outstanding := by
  unfold finalizeStreamLogging
  split
  · rfl
  · rfl

/-- or the write of a header section. -/
theorem outstanding_flushPendingHeaders (a : Answers) (s : AsyncConnection) :
    (flushPendingHeaders a s).world.outstanding = s.world.outstanding := by
  unfold flushPendingHeaders
  split
  · rfl
  · exact (World.write_delivers _ _ _ _).outstanding

/-! ## The reply paths -/

/-- A getter that is not taken is answered with a 503, -/
theorem replies_scheduleGetter (a : Answers) (task : Task)
    (htask : ∀ pool, (Activity.task pool task).Answers) (s : AsyncConnection) :
    (Tail.scheduleGetter srv a task s).Replies (Message.StockOf [.serviceUnavailable]) s := by
  unfold Tail.scheduleGetter
  split
  · exact Or.inr ⟨.task (chunkPool s) task, htask _, rfl⟩
  · exact ⟨⟨_, List.mem_singleton.mpr rfl, rfl⟩, rfl⟩

/-- in a stream of announced length -/
theorem replies_getNextChunk (a : Answers) (s : AsyncConnection) :
    (Tail.getNextChunk srv a s).Replies (Message.StockOf [.serviceUnavailable]) s := by
  have hend : ∀ (st : StreamerStatus) (own : Bool), (
      if flushFails a (s.emit (.streamEnded st own)) then
        Outcome.stop (flushPendingHeaders a (s.emit (.streamEnded st own)))
      else Tail.finishStream st (flushPendingHeaders a (s.emit (.streamEnded st own)))).Replies
        (Message.StockOf [.serviceUnavailable]) s := by
    intro st own
    split
    · exact Or.inl (outstanding_flushPendingHeaders a _)
    · show (notifyBackendFinished st (finalizeStreamLogging _)).world.outstanding = _
      rw [outstanding_notifyBackendFinished, outstanding_finalizeStreamLogging]
      exact outstanding_flushPendingHeaders a _
  unfold Tail.getNextChunk
  cases getStreamingStatus a s.itsResponse with
  | ok =>
    cases nextContent a s.itsResponse with
    | none => exact Or.inl rfl
    | some content =>
      dsimp only
      split
      · exact Or.inr ⟨.write _ _, trivial, rfl⟩
      split
      · exact Or.inl (outstanding_flushPendingHeaders a _)
      · exact (replies_scheduleGetter srv a .getNextChunk (fun _ => trivial) _).behind
          (outstanding_flushPendingHeaders a _)
  | exitOk => exact hend .exitOk _
  | exitError => exact hend .exitError _

/-- and in a chunked one. -/
theorem replies_getNextChunkedChunk (a : Answers) (s : AsyncConnection) :
    (Tail.getNextChunkedChunk srv a s).Replies (Message.StockOf [.serviceUnavailable]) s := by
  have hnotify : ∀ (st : StreamerStatus) (own : Bool),
      (notifyBackendFinished st (s.emit (.streamEnded st own))).world.outstanding
        = s.world.outstanding := fun st _ => outstanding_notifyBackendFinished st _
  unfold Tail.getNextChunkedChunk
  cases getStreamingStatus a s.itsResponse with
  | ok =>
    cases nextContent a s.itsResponse with
    | none => exact Or.inl rfl
    | some content =>
      dsimp only
      split
      · exact Or.inr ⟨.write _ _, trivial, rfl⟩
      split
      · exact Or.inl (outstanding_flushPendingHeaders a _)
      · exact (replies_scheduleGetter srv a .getNextChunkedChunk (fun _ => trivial) _).behind
          (outstanding_flushPendingHeaders a _)
  | exitOk =>
    have hawait : ∀ (own : Bool) (b : Bytes), ∃ y : Activity, y.Answers ∧
        (notifyBackendFinished .exitOk (s.emit (.streamEnded .exitOk own))).world.outstanding
          ++ [Activity.write .finalizeChunkedReply b] = s.world.outstanding ++ [y] :=
      fun own b => ⟨.write .finalizeChunkedReply b, trivial, by rw [hnotify]⟩
    exact Or.inr (hawait _ _)
  | exitError =>
    refine Or.inl ?_
    show (finalizeStreamLogging (flushPendingHeaders a _)).world.outstanding = _
    rw [outstanding_finalizeStreamLogging, outstanding_flushPendingHeaders]
    exact hnotify _ _

/-- A written part of a response. -/
theorem replies_runWriteHandler (a : Answers) (handler : WriteHandler) (e : ErrorCode) (n : ℕ)
    (s : AsyncConnection) :
    (Tail.runWriteHandler srv a handler e n s).Replies (Message.StockOf [.serviceUnavailable]) s := by
  have hcont : ∀ (next : AsyncConnection → Outcome) (failed : Books),
      (∀ t, (next t).Replies (Message.StockOf [.serviceUnavailable]) t) →
      (Tail.continueWrite srv a handler e n next failed s).Replies
        (Message.StockOf [.serviceUnavailable]) s := by
    intro next failed hnext
    unfold Tail.continueWrite
    dsimp only
    split
    · split
      · exact Or.inr ⟨.write _ _, trivial, rfl⟩
      · exact (hnext _).behind rfl
    · exact ⟨⟨_, List.mem_singleton.mpr rfl, rfl⟩, rfl⟩
  cases handler with
  | writeRegularReply =>
    exact hcont (fun s => .finish _) _ fun t => outstanding_notifyBackendFinished .exitOk t
  | writeStreamReply =>
    exact hcont _ _ (replies_scheduleGetter srv a .getNextChunk fun _ => trivial)
  | writeChunkedReply =>
    exact hcont _ _ (replies_scheduleGetter srv a .getNextChunkedChunk fun _ => trivial)
  | finalizeChunkedReply =>
    exact hcont (fun s => .finish _) _ fun t => outstanding_finalizeStreamLogging t

/-- Behind the handler's return come a 400, a 503 or its response, -/
theorem replies_returnFromHandler (a : Answers) (s : AsyncConnection) :
    (Tail.returnFromHandler srv a s).Replies
      (Message.StockOf [.badRequest, .serviceUnavailable]) s := by
  have hlater : ∀ {t : AsyncConnection} {x : Outcome},
      x.Replies (Message.StockOf [.serviceUnavailable]) t →
      t.world.outstanding = s.world.outstanding →
      x.Replies (Message.StockOf [.badRequest, .serviceUnavailable]) s :=
    fun h ht => (h.mono fun _ hm => hm.mono (by simp)).behind ht
  rcases Tail.returnFromHandler_cases srv a s with
    ⟨-, heq⟩ | ⟨response, ⟨-, heq⟩ | ⟨-, heq⟩ | ⟨-, heq⟩⟩
  · rw [heq]
    exact Or.inl rfl
  · rw [heq]
    exact Or.inl rfl
  · rw [heq]
    exact ⟨⟨.badRequest, by simp, rfl⟩, rfl⟩
  rw [heq]
  unfold Tail.startReply
  split
  · exact Or.inr ⟨.write .writeRegularReply _, trivial, rfl⟩
  split
  · split
    · exact hlater (replies_getNextChunk srv a _) rfl
    split
    · exact hlater (replies_getNextChunkedChunk srv a _) rfl
    · exact hlater (replies_getNextChunk srv a _) rfl
  · exact Or.inr ⟨.write .writeRegularReply _, trivial, rfl⟩

/-- and so in the whole task. -/
theorem replies_handleCompletedRead (a : Answers) (s : AsyncConnection) :
    (Tail.handleCompletedRead srv a s).Replies
      (Message.StockOf [.badRequest, .serviceUnavailable]) s := by
  unfold Tail.handleCompletedRead
  split
  · exact Or.inl rfl
  split
  · exact Or.inl rfl
  rw [Tail.callHandler_eq]
  exact (replies_returnFromHandler srv a _).behind rfl

/-- The timer answers with a 408. -/
theorem ends_handleTimer (a : Answers) (err : ErrorCode) (generation : ℕ) (s : AsyncConnection) :
    (Tail.handleTimer srv a err generation s).Ends (Message.StockOf [.requestTimeout]) s := by
  unfold Tail.handleTimer
  split
  · exact Or.inl rfl
  split
  · exact Or.inl rfl
  dsimp only
  split
  · exact Or.inl rfl
  · exact ⟨⟨_, List.mem_singleton.mpr rfl, rfl⟩, rfl⟩

/-- A wait with another stamp does nothing. -/
theorem handleTimer_inert {a : Answers} {err : ErrorCode} {generation : ℕ} {s : AsyncConnection}
    (h : generation ≠ s.itsTimerGeneration) :
    Tail.handleTimer srv a err generation s = .stop s := by
  unfold Tail.handleTimer
  split
  · rfl
  · rfl

/-! ## The read path -/

/-- The replies to a parsed request that is given to no handler. -/
theorem ends_handleParsedRequest (a : Answers) (s : AsyncConnection) :
    (Tail.handleParsedRequest srv a s).Ends (fun m => m = .options ∨
      m.StockOf [.badRequest, .notFound, .serviceUnavailable, srv.spine.highLoad]) s := by
  have hstock : ∀ st t, st ∈ [Status.badRequest, .notFound, .serviceUnavailable,
      srv.spine.highLoad] → t.world.outstanding = s.world.outstanding →
      (Tail.sendStockReply srv a st t).Ends (fun m => m = .options ∨
        m.StockOf [.badRequest, .notFound, .serviceUnavailable, srv.spine.highLoad]) s :=
    fun st t hst ht => ⟨Or.inr ⟨st, hst, rfl⟩, ht⟩
  unfold Tail.handleParsedRequest
  dsimp only
  cases hip : resolveClientIP srv a (s.emit (.parsed s.itsRequest)) with
  | none => exact Or.inl rfl
  | some u =>
    obtain ⟨-, ip, rfl⟩ := resolveClientIP_eq srv a hip
    dsimp only
    split
    · exact hstock _ _ (by simp) rfl
    unfold Tail.routeRequest
    split
    · exact ⟨Or.inl rfl, rfl⟩
    split
    · exact hstock _ _ (by simp) rfl
    dsimp only
    split
    · exact hstock _ _ (by simp) rfl
    unfold Tail.scheduleRequest
    split
    · split
      · exact Or.inr ⟨.task .fast _, trivial, rfl⟩
      · exact hstock _ _ (by simp) rfl
    · dsimp only
      split
      · exact Or.inr ⟨.task _ _, trivial, rfl⟩
      · exact hstock _ _ (by simp) rfl

/-- The replies to the beginning of a request. -/
theorem says_handleIncompleteRequest (a : Answers) (s : AsyncConnection) :
    (Tail.handleIncompleteRequest srv a s).Says
      (Message.StockOf [.requestHeaderFieldsTooLarge, .expectationFailed]) := by
  unfold Tail.handleIncompleteRequest
  split
  · exact ⟨_, List.mem_cons_self, rfl⟩
  unfold Tail.handleExpectContinue
  split
  · trivial
  dsimp only
  split
  · trivial
  split
  · trivial
  split
  · trivial
  split
  · split
    · trivial
    · trivial
  · exact ⟨.expectationFailed, by simp, rfl⟩

/-- The statuses of the replies to what is buffered. -/
def readStatuses : List Status :=
  [.badRequest, .notFound, .serviceUnavailable, srv.spine.highLoad, .requestHeaderFieldsTooLarge,
    .expectationFailed]

/-- The replies to what is buffered. -/
theorem says_parseBuffer (a : Answers) (s : AsyncConnection) :
    (Tail.parseBuffer srv a s).Says fun m => m = .options ∨ m.StockOf (readStatuses srv) := by
  unfold Tail.parseBuffer
  split
  · refine (ends_handleParsedRequest srv a _).toSays.mono fun m hm => hm.imp_right fun h => ?_
    exact h.mono (by simp [readStatuses])
  · exact Or.inr ⟨_, List.mem_cons_self, rfl⟩
  · refine (says_handleIncompleteRequest srv a s).mono fun m hm => Or.inr ?_
    exact hm.mono (by simp [readStatuses])

/-! ## A step -/

/-- The statuses of the replies of the steps that read nothing. -/
def otherStatuses : List Status :=
  [.badRequest, .serviceUnavailable, .requestTimeout, srv.spine.shutdown]

/-- **How the steps end that read nothing.** -/
theorem ends_step {s : AsyncConnection} {e : Event} {x : Outcome}
    (h : Tail.step srv s e = some x) (he : e.Resumes) :
    ∃ i y, s.world.outstanding[i]? = some y ∧
      x.Ends (Message.StockOf (otherStatuses srv)) (s.release i) := by
  -- the statuses of each path are among those of the replies here
  have hlater : ∀ {t u : AsyncConnection} {x : Outcome} {sts : List Status},
      x.Replies (Message.StockOf sts) t → sts ⊆ otherStatuses srv →
      t.world.outstanding = u.world.outstanding →
      x.Ends (Message.StockOf (otherStatuses srv)) u :=
    fun h hsub ht => (h.ends.mono fun _ hm => hm.mono hsub).behind ht
  cases e with
  | readFails i err a =>
    simp only [Tail.step] at h
    split at h
    · rename_i hi
      split at h
      · obtain rfl := Option.some.inj h
        refine ⟨i, _, hi, ?_⟩
        unfold Tail.handleRead
        split
        · exact ⟨⟨srv.spine.shutdown, by simp [otherStatuses], rfl⟩, rfl⟩
        · exact Or.inl rfl
      · cases h
    · cases h
  | runTask i a =>
    simp only [Tail.step] at h
    split at h
    · rename_i pool task hi
      obtain rfl := Option.some.inj h
      refine ⟨i, _, hi, ?_⟩
      cases task with
      | handleCompletedRead view =>
        exact hlater (replies_handleCompletedRead srv a _) (by simp [otherStatuses]) rfl
      | getNextChunk => exact hlater (replies_getNextChunk srv a _) (by simp [otherStatuses]) rfl
      | getNextChunkedChunk =>
        exact hlater (replies_getNextChunkedChunk srv a _) (by simp [otherStatuses]) rfl
    · cases h
  | writeSome i n a =>
    simp only [Tail.step] at h
    split at h
    · rename_i handler buffer hi
      split at h
      · obtain rfl := Option.some.inj h
        exact ⟨i, _, hi,
          hlater (replies_runWriteHandler srv a _ _ n _) (by simp [otherStatuses]) rfl⟩
      · cases h
    · cases h
  | writeFails i a =>
    simp only [Tail.step] at h
    split at h
    · rename_i handler buffer hi
      obtain rfl := Option.some.inj h
      exact ⟨i, _, hi,
        hlater (replies_runWriteHandler srv a _ _ 0 _) (by simp [otherStatuses]) rfl⟩
    · cases h
  | _ => exact absurd he id

/-- The replies of the steps that take no request from the buffer. -/
theorem says_step {s : AsyncConnection} {e : Event} {x : Outcome}
    (h : Tail.step srv s e = some x) (he : ∀ i a, e ≠ .runRead i a) :
    x.Says (Message.StockOf (otherStatuses srv)) := by
  have hstop : ∀ {u : Option AsyncConnection}, u.map Outcome.stop = some x →
      x.Says (Message.StockOf (otherStatuses srv)) := by
    intro u hu
    obtain ⟨t, -, rfl⟩ := Option.map_eq_some_iff.mp hu
    trivial
  by_cases hr : e.Resumes
  · obtain ⟨_, _, _, hends⟩ := ends_step srv h hr
    exact hends.toSays
  cases e with
  | runRead i a => exact absurd rfl (he i a)
  | handshake i ok => exact hstop h
  | receive i bytes => exact hstop h
  | timerExpires => exact hstop h
  | runTimer generation a =>
    simp only [Tail.step] at h
    split at h
    · obtain rfl := Option.some.inj h
      exact (ends_handleTimer srv a _ generation _).toSays.mono fun _ hm =>
        hm.mono (by simp [otherStatuses])
    · cases h
  | requestShutdown =>
    obtain rfl := Option.some.inj h
    trivial
  | _ => exact absurd trivial hr

/-! ## The reply path of a phase -/

variable {srv}

/-- No reply path was taken yet. -/
theorem Inv.path_of_reading {s : AsyncConnection} (h : Inv srv s) {i : ℕ} {y : Activity}
    (hi : s.world.outstanding[i]? = some y) (hy : ¬ y.Works) : s.exchange.path = none := by
  have hph := (h.released srv hi).2.2
  cases y with
  | handshake => exact (show Reading srv s.bare from hph).direct.path
  | read => exact (show Reading srv s.bare from hph).direct.path
  | handleRead bytes => exact (show Reading srv s.bare from hph).direct.path
  | task pool task => exact absurd trivial hy
  | write handler buffer => exact absurd trivial hy

/-- The wait of the current stamp acts only where no reply path was taken. -/
theorem Inv.path_of_acts {s : AsyncConnection} (h : Inv srv s) {w : TimerWait}
    (hw : w ∈ s.world.waits) (hg : w.generation = s.itsTimerGeneration) :
    s.exchange.path = none := by
  refine (h.waiting srv ?_).direct.path
  intro hu
  have hlt : w.generation < s.itsTimerGeneration := hu w hw
  omega

/-- A stream is on its path, -/
theorem Streaming.path_ne {t : AsyncConnection} {unsent : Bytes} (h : Streaming srv t unsent) :
    t.exchange.path ≠ none := by
  rcases h.path with hp | hp
  · rw [hp]
    simp
  · rw [hp]
    simp

/-- and so is a chunked one. -/
theorem Chunking.path_ne {t : AsyncConnection} {unsent : Bytes} (h : Chunking srv t unsent) :
    t.exchange.path ≠ none := by
  rw [h.path]
  simp

/-- A write belongs to a reply path. -/
theorem Inv.path_of_writing {s : AsyncConnection} (h : Inv srv s) {i : ℕ} {handler : WriteHandler}
    {buffer : Bytes} (hi : s.world.outstanding[i]? = some (.write handler buffer)) :
    s.exchange.path ≠ none := by
  have hph := (h.released srv hi).2.2
  cases handler with
  | writeRegularReply =>
    have hp : s.exchange.path = some .regular := hph.2.path
    rw [hp]
    simp
  | writeStreamReply => exact Streaming.path_ne (t := s.bare) hph.2
  | writeChunkedReply => exact Chunking.path_ne (t := s.bare) hph.2
  | finalizeChunkedReply =>
    have hp : s.exchange.path = some .chunked := hph.2.1.path
    rw [hp]
    simp

end AsyncConnection

end SmartMet
