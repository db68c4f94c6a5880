/-
# The pools

All tasks of a request are put into one pool.  It is settled when the request is
scheduled, and the getters of the chunks of its response follow the handler there.

* `HandlerView.pool` : the pool of a request;
* `SameLane` : what the reply paths leave alone;
* `placed_step` : one step;
* `one_pool` : every run.
-/
import SmartMetServer.Draining
import SmartMetServer.Ordering
import SmartMetServer.Origins
import SmartMetServer.ReadDeadline

namespace SmartMet

open AsyncConnection

/-- The pool `scheduleRequest` puts the handler of a request into. -/
def HandlerView.pool (srv : Server) (view : HandlerView) : Pool :=
  if view.isCatchNoMatch then .fast
  else if view.isAdminQuery && srv.adminPoolSize > 0 then .admin
  else if srv.slowPoolSize == 0 || view.queryIsFast then .fast
  else .slow

namespace AsyncConnection

/-- The request under way, and the pool of its tasks. -/
def lane (s : AsyncConnection) : Request × Pool := (s.itsRequest, chunkPool s)

/-- The code between `s` and `t` has left the request and its pool alone, and has put
tasks into this pool only. -/
structure SameLane (s t : AsyncConnection) : Prop where
  lane : t.lane = s.lane
  tasks : ∀ pool task, .task pool task ∈ t.world.outstanding →
    .task pool task ∈ s.world.outstanding ∨ pool = chunkPool s

namespace SameLane

variable {s t u : AsyncConnection}

/-- The request is the same, -/
theorem request (h : SameLane s t) : t.itsRequest = s.itsRequest := congrArg Prod.fst h.lane

/-- and so is its pool. -/
theorem pool (h : SameLane s t) : chunkPool t = chunkPool s := congrArg Prod.snd h.lane

/-- Nothing new is outstanding. -/
theorem silent (hl : t.lane = s.lane) (ho : t.world.outstanding = s.world.outstanding) :
    SameLane s t := by
  refine ⟨hl, fun pool task ht => Or.inl ?_⟩
  rwa [ho] at ht

/-- Nothing was changed. -/
theorem refl (s : AsyncConnection) : SameLane s s := silent rfl rfl

/-- Two parts in a row. -/
theorem trans (h : SameLane s t) (h' : SameLane t u) : SameLane s u := by
  refine ⟨h'.lane.trans h.lane, fun pool task hu => ?_⟩
  rcases h'.tasks pool task hu with ht | ht
  · exact h.tasks pool task ht
  · exact Or.inr (ht.trans h.pool)

/-- Only members and other parts of the world were set before. -/
theorem behind (h : SameLane t u) (hl : t.lane = s.lane)
    (ho : t.world.outstanding = s.world.outstanding) : SameLane s u := (silent hl ho).trans h

/-- A write, or a task in the pool, is outstanding besides. -/
theorem await {y : Activity} (hl : t.lane = s.lane)
    (ho : t.world.outstanding = s.world.outstanding ++ [y])
    (hy : ∀ pool task, y = .task pool task → pool = chunkPool s) : SameLane s t := by
  refine ⟨hl, fun pool task ht => ?_⟩
  rw [ho] at ht
  rcases List.mem_append.mp ht with ht | ht
  · exact Or.inl ht
  · exact Or.inr (hy pool task (List.mem_singleton.mp ht).symm)

/-- A write takes no pool. -/
theorem write {handler : WriteHandler} {buffer : Bytes} (hl : t.lane = s.lane)
    (ho : t.world.outstanding = s.world.outstanding ++ [.write handler buffer]) : SameLane s t :=
  await hl ho fun _ _ h => by cases h

end SameLane

variable (srv : Server)

/-! ## The reply paths -/

/-- The notification of a backend stays in the lane, -/
theorem lane_notifyBackendFinished (st : StreamerStatus) (s : AsyncConnection) :
    SameLane s (notifyBackendFinished st s) := by
  refine SameLane.silent ?_ (outstanding_notifyBackendFinished st s)
  unfold notifyBackendFinished
  split
  · rfl
  · rfl

/-- and so does the log, -/
theorem lane_finalizeStreamLogging (s : AsyncConnection) :
    SameLane s (finalizeStreamLogging s) := by
  refine SameLane.silent ?_ (outstanding_finalizeStreamLogging s)
  unfold finalizeStreamLogging
  split
  · rfl
  · rfl

/-- the write of a header section, -/
theorem lane_flushPendingHeaders (a : Answers) (s : AsyncConnection) :
    SameLane s (flushPendingHeaders a s) := by
  refine SameLane.silent ?_ (outstanding_flushPendingHeaders a s)
  unfold flushPendingHeaders
  split
  · rfl
  · rfl

/-- a chunk that is taken, -/
theorem lane_takeChunk (c : Bytes) (s : AsyncConnection) : SameLane s (takeChunk c s) :=
  SameLane.silent rfl rfl

/-- a page of the server, -/
theorem lane_sendStockReply (a : Answers) (st : Status) (s : AsyncConnection) :
    SameLane s (Tail.sendStockReply srv a st s).state := SameLane.silent rfl rfl

/-- the next getter, which goes into the pool of the request, -/
theorem lane_scheduleGetter (a : Answers) (task : Task) (s : AsyncConnection) :
    SameLane s (Tail.scheduleGetter srv a task s).state := by
  unfold Tail.scheduleGetter
  split
  · exact SameLane.await rfl rfl fun _ _ h => (Activity.task.inj h).1.symm
  · exact (lane_sendStockReply srv a .serviceUnavailable _).behind rfl rfl

/-- a getter, -/
theorem lane_getNextChunk (a : Answers) (s : AsyncConnection) :
    SameLane s (Tail.getNextChunk srv a s).state := by
  have hend : ∀ (st : StreamerStatus) (own : Bool), SameLane s (
      if flushFails a (s.emit (.streamEnded st own)) then
        Outcome.stop (flushPendingHeaders a (s.emit (.streamEnded st own)))
      else Tail.finishStream st (flushPendingHeaders a (s.emit (.streamEnded st own)))).state := by
    intro st own
    have hflush : SameLane s (flushPendingHeaders a (s.emit (.streamEnded st own))) :=
      (lane_flushPendingHeaders a _).behind rfl rfl
    split
    · exact hflush
    · exact hflush.trans ((lane_finalizeStreamLogging _).trans
        ((lane_notifyBackendFinished st _).trans (SameLane.silent rfl rfl)))
  unfold Tail.getNextChunk
  cases getStreamingStatus a s.itsResponse with
  | ok =>
    cases nextContent a s.itsResponse with
    | none => exact SameLane.refl s
    | some content =>
      have hflush := (lane_takeChunk content s).trans (lane_flushPendingHeaders a _)
      dsimp only
      split
      · exact SameLane.write rfl rfl
      split
      · exact hflush
      · exact hflush.trans (lane_scheduleGetter srv a _ _)
  | exitOk => exact hend .exitOk _
  | exitError => exact hend .exitError _

/-- also of a chunked stream, -/
theorem lane_getNextChunkedChunk (a : Answers) (s : AsyncConnection) :
    SameLane s (Tail.getNextChunkedChunk srv a s).state := by
  have hended : ∀ (st : StreamerStatus) (own : Bool),
      SameLane s (notifyBackendFinished st (s.emit (.streamEnded st own))) := fun st _ =>
    (lane_notifyBackendFinished st _).behind rfl rfl
  unfold Tail.getNextChunkedChunk
  cases getStreamingStatus a s.itsResponse with
  | ok =>
    cases nextContent a s.itsResponse with
    | none => exact SameLane.refl s
    | some content =>
      have hflush := (lane_takeChunk content s).trans (lane_flushPendingHeaders a _)
      dsimp only
      split
      · exact SameLane.write rfl rfl
      split
      · exact hflush
      · exact hflush.trans (lane_scheduleGetter srv a _ _)
  | exitOk => exact (hended .exitOk _).trans (SameLane.write rfl rfl)
  | exitError =>
    exact (hended .exitError _).trans ((lane_flushPendingHeaders a _).trans
      ((lane_finalizeStreamLogging _).trans (SameLane.silent rfl rfl)))

/-- a completed write, -/
theorem lane_runWriteHandler (a : Answers) (handler : WriteHandler) (e : ErrorCode) (n : ℕ)
    (s : AsyncConnection) : SameLane s (Tail.runWriteHandler srv a handler e n s).state := by
  have hcont : ∀ (next : AsyncConnection → Outcome) (failed : Books),
      (∀ t, SameLane t (next t).state) →
      SameLane s (Tail.continueWrite srv a handler e n next failed s).state := by
    intro next failed hnext
    unfold Tail.continueWrite
    dsimp only
    split
    · split
      · exact SameLane.write rfl rfl
      · exact (hnext _).behind rfl rfl
    · exact (lane_sendStockReply srv a .serviceUnavailable _).behind rfl rfl
  unfold Tail.runWriteHandler
  cases handler with
  | writeRegularReply => exact hcont _ _ fun t => lane_notifyBackendFinished .exitOk t
  | writeStreamReply => exact hcont _ _ (lane_scheduleGetter srv a _)
  | writeChunkedReply => exact hcont _ _ (lane_scheduleGetter srv a _)
  | finalizeChunkedReply => exact hcont _ _ lane_finalizeStreamLogging

/-- the server's fields, -/
theorem lane_setServerHeaders (a : Answers) (s : AsyncConnection) :
    SameLane s (setServerHeaders srv a s) := SameLane.silent rfl rfl

/-- a buffered reply, -/
theorem lane_startRegularReply (s : AsyncConnection) : SameLane s (startRegularReply srv s) :=
  SameLane.write rfl rfl

/-- a header section, -/
theorem lane_preparePendingHeaders (s : AsyncConnection) :
    SameLane s (preparePendingHeaders srv s) := SameLane.silent rfl rfl

/-- the start of a reply, -/
theorem lane_startReply (a : Answers) (s : AsyncConnection) :
    SameLane s (Tail.startReply srv a s).state := by
  have hheaders : ∀ path, SameLane s (setServerHeaders srv a (s.emit (.started path))) :=
    fun path => (lane_setServerHeaders srv a _).behind rfl rfl
  have hregular : SameLane s
      (startRegularReply srv (setServerHeaders srv a (s.emit (.started .regular)))) :=
    (hheaders .regular).trans (lane_startRegularReply srv _)
  unfold Tail.startReply
  split
  · exact hregular
  split
  · split
    · exact (lane_getNextChunk srv a _).behind rfl rfl
    split
    · refine (hheaders .chunked).trans ?_
      unfold Tail.startChunkedReply
      dsimp only
      exact ((lane_preparePendingHeaders srv _).trans
        (lane_getNextChunkedChunk srv a _)).behind rfl rfl
    · refine (hheaders .stream).trans ?_
      unfold Tail.startStreamReply
      dsimp only
      exact ((lane_preparePendingHeaders srv _).trans (lane_getNextChunk srv a _)).behind rfl rfl
  · exact hregular

/-- the task that calls the handler -/
theorem lane_handleCompletedRead (a : Answers) (s : AsyncConnection) :
    SameLane s (Tail.handleCompletedRead srv a s).state := by
  unfold Tail.handleCompletedRead
  split
  · exact SameLane.refl s
  split
  · exact SameLane.refl s
  have hcalled : SameLane s (Tail.called s) := SameLane.silent rfl rfl
  have hhandled : ∀ response, SameLane s (Tail.handled response (Tail.called s)) :=
    fun _ => hcalled.trans (SameLane.silent rfl rfl)
  rw [Tail.callHandler_eq]
  rcases Tail.returnFromHandler_cases srv a (Tail.called s) with
    ⟨-, heq⟩ | ⟨response, ⟨-, heq⟩ | ⟨-, heq⟩ | ⟨-, heq⟩⟩
  · rw [heq]
    exact hcalled
  · rw [heq]
    exact hhandled response
  · rw [heq]
    exact (hhandled response).trans (lane_sendStockReply srv a .badRequest _)
  · rw [heq]
    exact (hhandled response).trans (lane_startReply srv a _)

/-- and the timer, -/
theorem lane_handleTimer (a : Answers) (err : ErrorCode) (generation : ℕ) (s : AsyncConnection) :
    SameLane s (Tail.handleTimer srv a err generation s).state := by
  unfold Tail.handleTimer
  split
  · exact SameLane.refl s
  split
  · exact SameLane.refl s
  dsimp only
  split
  · exact SameLane.silent rfl rfl
  · exact (lane_sendStockReply srv a .requestTimeout _).behind rfl rfl

/-- which starts nothing. -/
theorem outstanding_handleTimer (a : Answers) (err : ErrorCode) (generation : ℕ)
    (s : AsyncConnection) :
    (Tail.handleTimer srv a err generation s).state.world.outstanding = s.world.outstanding := by
  unfold Tail.handleTimer
  split
  · rfl
  split
  · rfl
  dsimp only
  split
  · rfl
  · rfl

/-! ## The last call -/

/-- Only the end of the exchange gives the request up. -/
theorem lane_finishResponse {s : AsyncConnection}
    (h : past (finishResponse srv s).world.trace = past s.world.trace) :
    (finishResponse srv s).lane = s.lane := by
  unfold finishResponse at h ⊢
  by_cases hreuse : mayReuse s = true
  · rw [if_pos hreuse] at h
    have hpast : past (resumeReading (armForNextRequest srv (resetRequestState s))).world.trace =
        s.exchange :: past s.world.trace := by
      unfold resumeReading
      split
      · rfl
      · rfl
    rw [hpast] at h
    exact absurd h (List.cons_ne_self _ _)
  · rw [if_neg hreuse]

/-- The writes of the server's own reply leave the lane, -/
theorem lane_writes (a : Answers) (m : Message) (head : Bytes) (s : AsyncConnection) :
    (writeContent a m (writeHead a m head s)).lane = s.lane := by
  unfold lane chunkPool writeContent writeHead
  rfl

/-- the reply does unless it ends the exchange, -/
theorem lane_sendSimpleReply {a : Answers} {m : Message} {s : AsyncConnection}
    (h : past (sendSimpleReply srv a m s).world.trace = past s.world.trace) :
    (sendSimpleReply srv a m s).lane = s.lane := by
  unfold sendSimpleReply at h ⊢
  cases hh : headersToString srv.spine s.itsResponse with
  | none => rfl
  | some head =>
    let t := writeContent a m (writeHead a m head s)
    have ht : Rests s t := rests_writes a m head s
    have hlane : t.lane = s.lane := lane_writes a m head s
    rw [hh] at h
    change past (if t.itsKeepAlive then finishResponse srv t else closeSocket t).world.trace =
      _ at h
    rw [← hlane]
    show (if t.itsKeepAlive then finishResponse srv t else closeSocket t).lane = t.lane
    split at h
    · rename_i hk
      rw [if_pos hk]
      exact lane_finishResponse srv (h.trans ht.past.symm)
    · rename_i hk
      rw [if_neg hk]
      rfl

/-- the books leave it, -/
theorem lane_keep (books : Books) (s : AsyncConnection) : (books.keep s).lane = s.lane := by
  cases books with
  | none => rfl
  | log => exact (lane_finalizeStreamLogging s).lane
  | logAndNotify st =>
    exact (lane_notifyBackendFinished _ _).lane.trans (lane_finalizeStreamLogging s).lane

/-- and the last call as the reply does. -/
theorem lane_run {a : Answers} {x : Outcome}
    (h : past (x.run srv a).world.trace = past x.state.world.trace) :
    (x.run srv a).lane = x.state.lane := by
  cases x with
  | stop s => rfl
  | finish s => exact lane_finishResponse srv h
  | reply m s books =>
    obtain ⟨hst, ho, hb, -⟩ := Threads.steady_keep books (sendSimpleReply srv a m s)
    have hkeep := Rests.of_steady hst (fun o ho => (Threads.inside_book ho).1) ho hb
    exact (lane_keep books _).trans (lane_sendSimpleReply srv (hkeep.past.symm.trans h))

/-! ## One step -/

/-- The tasks that are outstanding are in one pool, and it is the one of the request. -/
structure Placed (s : AsyncConnection) : Prop where
  tasks : ∀ pool task, .task pool task ∈ s.world.outstanding → pool = chunkPool s
  view : (∃ y ∈ s.world.outstanding, y.Works) →
    ∃ view, srv.spine.getHandlerView s.itsRequest = some view ∧ chunkPool s = view.pool srv

variable {srv}

/-- No task and no write is outstanding. -/
theorem placed_of_idle {s : AsyncConnection} (h : ∀ y ∈ s.world.outstanding, ¬ y.Works) :
    Placed srv s := by
  refine ⟨fun pool task ht => absurd trivial (h _ ht), ?_⟩
  rintro ⟨y, hy, hw⟩
  exact absurd hw (h y hy)

/-- Nothing is outstanding, -/
theorem placed_of_none {s : AsyncConnection} (h : s.world.outstanding = []) : Placed srv s := by
  refine placed_of_idle fun y hy => ?_
  rw [h] at hy
  cases hy

/-- or one activity that is no work on the request. -/
theorem placed_of_one {s : AsyncConnection} {y : Activity} (h : s.world.outstanding = [y])
    (hy : ¬ y.Works) : Placed srv s := by
  refine placed_of_idle fun z hz => ?_
  rw [h] at hz
  rw [List.mem_singleton.mp hz]
  exact hy

/-- The pools of the tasks depend on the lane and on what is outstanding. -/
theorem Placed.of_lane {s t : AsyncConnection} (h : Placed srv s) (hl : t.lane = s.lane)
    (ho : t.world.outstanding = s.world.outstanding) : Placed srv t := by
  have hr : t.itsRequest = s.itsRequest := congrArg Prod.fst hl
  have hp : chunkPool t = chunkPool s := congrArg Prod.snd hl
  refine ⟨?_, ?_⟩
  · rw [ho, hp]
    exact h.tasks
  · rw [ho, hp, hr]
    exact h.view

/-- A reply path goes on. -/
theorem Placed.sameLane {s t : AsyncConnection} (h : Placed srv s) (hl : SameLane s t)
    (hw : ∃ y ∈ s.world.outstanding, y.Works) : Placed srv t := by
  refine ⟨fun pool task ht => ?_, fun _ => ?_⟩
  · rw [hl.pool]
    rcases hl.tasks pool task ht with hs | hs
    · exact h.tasks pool task hs
    · exact hs
  · rw [hl.pool, hl.request]
    exact h.view hw

/-- The request is scheduled. -/
theorem placed_scheduleRequest {a : Answers} {view : HandlerView} {s : AsyncConnection}
    (ho : s.world.outstanding = []) (hview : srv.spine.getHandlerView s.itsRequest = some view)
    (hadmin : s.itsAdminQuery =
      (!view.isCatchNoMatch && view.isAdminQuery && decide (srv.adminPoolSize > 0))) :
    Placed srv (Tail.scheduleRequest srv a view s).state := by
  have htask : ∀ (t : AsyncConnection) (pool : Pool), t.world.outstanding = [] →
      t.itsRequest = s.itsRequest → pool = chunkPool t → pool = view.pool srv →
      Placed srv (t.await (.task pool (.handleCompletedRead view))) := by
    intro t pool ht hr hp hv
    refine ⟨fun pool' task hmem => ?_, fun _ => ⟨view, ?_, ?_⟩⟩
    · have hmem' : Activity.task pool' task ∈
          t.world.outstanding ++ [.task pool (.handleCompletedRead view)] := hmem
      rw [ht] at hmem'
      obtain ⟨rfl, -⟩ := Activity.task.inj (List.mem_singleton.mp hmem')
      exact hp
    · exact (congrArg srv.spine.getHandlerView hr).trans hview
    · exact hp.symm.trans hv
  unfold Tail.scheduleRequest
  by_cases hcatch : view.isCatchNoMatch = true
  · rw [if_pos hcatch]
    dsimp only
    split
    · refine htask _ _ ho rfl rfl ?_
      unfold HandlerView.pool
      rw [if_pos hcatch]
    · exact placed_of_none ho
  · rw [if_neg hcatch]
    dsimp only
    split
    · refine htask _ _ ho rfl rfl ?_
      unfold HandlerView.pool
      rw [if_neg hcatch, hadmin, Bool.eq_false_iff.mpr hcatch]
      rfl
    · exact placed_of_none ho

/-- A complete request goes into the pool of its handler, -/
theorem placed_handleParsedRequest (a : Answers) {s : AsyncConnection}
    (ho : s.world.outstanding = []) : Placed srv (Tail.handleParsedRequest srv a s).state := by
  unfold Tail.handleParsedRequest
  dsimp only
  cases h : resolveClientIP srv a (s.emit (.parsed s.itsRequest)) with
  | none => exact placed_of_none ho
  | some u =>
    obtain ⟨-, ip, rfl⟩ := resolveClientIP_eq srv a h
    dsimp only
    split
    · exact placed_of_none ho
    unfold Tail.routeRequest
    split
    · exact placed_of_none ho
    split
    · exact placed_of_none ho
    rename_i view hview
    dsimp only
    split
    · exact placed_of_none ho
    · exact placed_scheduleRequest ho hview rfl

/-- an incomplete one into none. -/
theorem placed_handleIncompleteRequest (a : Answers) {s : AsyncConnection}
    (ho : s.world.outstanding = []) : Placed srv (Tail.handleIncompleteRequest srv a s).state := by
  have hwrite : (continued a s).world.outstanding = [] :=
    (World.write_delivers _ _ _ _).outstanding.trans ho
  have hread : ∀ t : AsyncConnection, t.world.outstanding = [] → Placed srv (startRead t) := by
    intro t ht
    refine placed_of_one (y := .read) ?_ id
    show t.world.outstanding ++ [Activity.read] = _
    rw [ht]
    rfl
  unfold Tail.handleIncompleteRequest
  split
  · exact placed_of_none ho
  dsimp only
  rcases handleExpectContinue_cases srv a s with ⟨-, h⟩ | ⟨-, -, h⟩ |
    ⟨-, -, -, ⟨-, h⟩ | ⟨-, ⟨-, h⟩ | ⟨-, h⟩⟩⟩
  · rw [h]
    exact hread _ ho
  · rw [h]
    exact placed_of_none ho
  · rw [h]
    exact hread _ ho
  · rw [h]
    exact placed_of_none hwrite
  · rw [h]
    exact hread _ hwrite

/-- The completion handler of a read. -/
theorem placed_handleRead (a : Answers) (bytes : Bytes) {s : AsyncConnection}
    (ho : s.world.outstanding = []) :
    Placed srv (Tail.handleRead srv a .success bytes s).state := by
  unfold Tail.handleRead
  split
  · exact placed_of_none ho
  dsimp only
  rw [if_pos rfl]
  have hleave : (leaveIdle srv { s with itsFinalStatus := .success }).world.outstanding = [] := by
    unfold leaveIdle
    split
    · exact ho
    · exact ho
  unfold Tail.handleReadBytes
  dsimp only
  split
  · exact placed_of_none hleave
  unfold Tail.parseBuffer
  dsimp only
  split
  · exact placed_handleParsedRequest a hleave
  · exact placed_of_none hleave
  · exact placed_handleIncompleteRequest a hleave

/-- What is outstanding goes on with the request. -/
def Working (s : AsyncConnection) : Prop := ∀ y ∈ s.world.outstanding, y.Works

/-- A step of a connection with a task or a write. -/
theorem sameLane_step {s : AsyncConnection} {e : Event} {x : Outcome}
    (hw : Working s) (hx : Tail.step srv s e = some x) :
    SameLane s x.state := by
  have hwork : ∀ {i : ℕ} {y : Activity}, s.world.outstanding[i]? = some y → y.Works :=
    fun hi => hw _ (List.mem_of_getElem? hi)
  have hreleased : ∀ i, SameLane s (s.release i) := by
    intro i
    exact ⟨rfl, fun pool task ht => Or.inl (List.mem_of_mem_eraseIdx ht)⟩
  cases e with
  | runTask i a =>
    simp only [Tail.step] at hx
    split at hx
    · rename_i pool task hi
      obtain rfl := Option.some.inj hx
      refine (hreleased i).trans ?_
      cases task with
      | handleCompletedRead view => exact (lane_handleCompletedRead srv a _).behind rfl rfl
      | getNextChunk => exact lane_getNextChunk srv a _
      | getNextChunkedChunk => exact lane_getNextChunkedChunk srv a _
    · cases hx
  | writeSome i n a =>
    simp only [Tail.step] at hx
    split at hx
    · rename_i handler buffer hi
      split at hx
      · obtain rfl := Option.some.inj hx
        exact (hreleased i).trans ((lane_runWriteHandler srv a handler _ n _).behind rfl rfl)
      · cases hx
    · cases hx
  | writeFails i a =>
    simp only [Tail.step] at hx
    split at hx
    · rename_i handler buffer hi
      obtain rfl := Option.some.inj hx
      exact (hreleased i).trans ((lane_runWriteHandler srv a handler _ 0 _).behind rfl rfl)
    · cases hx
  | timerExpires =>
    simp only [Tail.step, AsyncConnection.step] at hx
    split at hx
    · obtain rfl := Option.some.inj hx
      exact SameLane.silent rfl rfl
    · cases hx
  | runTimer generation a =>
    simp only [Tail.step] at hx
    split at hx
    · obtain rfl := Option.some.inj hx
      exact (lane_handleTimer srv a _ generation _).behind rfl rfl
    · cases hx
  | requestShutdown =>
    obtain rfl := Option.some.inj hx
    exact SameLane.silent rfl rfl
  | _ =>
    simp only [Tail.step, AsyncConnection.step] at hx
    split at hx
    · rename_i hi
      exact absurd (hwork hi) id
    · cases hx

/-- A step of a connection that reads. -/
theorem placed_reading {s : AsyncConnection} {e : Event} {x : Outcome} (hinv : Inv srv s)
    (hw : ∀ y ∈ s.world.outstanding, ¬ y.Works) (hx : Tail.step srv s e = some x) :
    Placed srv x.state := by
  -- what is outstanding here is a read or a look at what was read, never a task
  have hread : ∀ {i : ℕ} {y : Activity}, s.world.outstanding[i]? = some y → ¬ y.Works :=
    fun hi => hw _ (List.mem_of_getElem? hi)
  have hsame : ∀ {t : AsyncConnection}, t.world.outstanding = s.world.outstanding →
      Placed srv t := by
    intro t ht
    refine placed_of_idle ?_
    rwa [ht]
  cases e with
  | handshake i ok =>
    simp only [Tail.step, AsyncConnection.step] at hx
    split at hx
    · rename_i hi
      obtain rfl := Option.some.inj hx
      obtain ⟨-, -, -, ho⟩ := hinv.held_release hi
      cases ok with
      | true =>
        refine placed_of_one (y := .read) ?_ id
        show (s.release i).world.outstanding ++ [Activity.read] = _
        rw [ho]
        rfl
      | false => exact placed_of_none ho
    · cases hx
  | receive i bytes =>
    simp only [Tail.step, AsyncConnection.step] at hx
    split at hx
    · rename_i hi
      split at hx
      · obtain rfl := Option.some.inj hx
        obtain ⟨-, -, -, ho⟩ := hinv.held_release hi
        refine placed_of_one (y := .handleRead bytes) ?_ id
        show (s.release i).world.outstanding ++ [Activity.handleRead bytes] = _
        rw [ho]
        rfl
      · cases hx
    · cases hx
  | readFails i err a =>
    simp only [Tail.step] at hx
    split at hx
    · rename_i hi
      split at hx
      · rename_i herr
        obtain rfl := Option.some.inj hx
        obtain ⟨-, -, -, ho⟩ := hinv.held_release hi
        unfold Tail.handleRead
        split
        · exact placed_of_none ho
        · exact placed_of_none ho
      · cases hx
    · cases hx
  | runRead i a =>
    simp only [Tail.step] at hx
    split at hx
    · rename_i bytes hi
      obtain rfl := Option.some.inj hx
      obtain ⟨-, -, -, ho⟩ := hinv.held_release hi
      exact placed_handleRead a bytes ho
    · cases hx
  | timerExpires =>
    simp only [Tail.step, AsyncConnection.step] at hx
    split at hx
    · obtain rfl := Option.some.inj hx
      exact hsame rfl
    · cases hx
  | runTimer generation a =>
    simp only [Tail.step] at hx
    split at hx
    · obtain rfl := Option.some.inj hx
      exact hsame (outstanding_handleTimer srv a _ generation _)
    · cases hx
  | requestShutdown =>
    obtain rfl := Option.some.inj hx
    exact hsame rfl
  | _ =>
    simp only [Tail.step] at hx
    split at hx
    · rename_i hi
      exact absurd trivial (hread hi)
    · cases hx

/-- What is outstanding reads, or it is a task or a write. -/
theorem Inv.works_or_reads {s : AsyncConnection} (hinv : Inv srv s) :
    (∀ y ∈ s.world.outstanding, ¬ y.Works) ∨
      ∃ y, s.world.outstanding = [y] ∧ y.Works := by
  have hlen := Inv.outstanding_length srv hinv
  cases ho : s.world.outstanding with
  | nil => exact Or.inl fun y hy => by cases hy
  | cons y ys =>
    rw [ho, List.length_cons] at hlen
    obtain rfl : ys = [] := List.length_eq_zero_iff.mp (by omega)
    by_cases hy : y.Works
    · exact Or.inr ⟨y, rfl, hy⟩
    · left
      intro z hz
      rw [List.mem_singleton.mp hz]
      exact hy

/-- **One step** keeps the tasks in their pool. -/
theorem Placed.step {s s' : AsyncConnection} {e : Event} (hinv : Inv srv s) (h : Placed srv s)
    (hstep : step srv s e = some s') : Placed srv s' := by
  have hinv' := inv_step srv hinv hstep
  obtain ⟨x, hx, rfl⟩ := exists_outcome srv hstep
  rcases rests_or_rearms srv e.answers x with hrest | hre
  · have hstate : Placed srv x.state := by
      rcases hinv.works_or_reads with hread | ⟨y, ho, hy⟩
      · exact placed_reading hinv hread hx
      · refine h.sameLane (sameLane_step ?_ hx) ⟨y, ?_, hy⟩
        · unfold Working
          rw [ho]
          exact List.forall_mem_singleton.mpr hy
        · rw [ho]
          exact List.mem_singleton_self y
    exact hstate.of_lane (lane_run srv hrest.past) hrest.outstanding
  · -- a connection that was re-armed reads
    have hlen := Inv.outstanding_length srv hinv'
    rw [hre.outstanding, List.length_append, List.length_singleton] at hlen
    have hnil : x.state.world.outstanding = [] := List.length_eq_zero_iff.mp (by omega)
    refine placed_of_one (y := nextActivity x.state.itsBuffer) ?_ ?_
    · rw [hre.outstanding, hnil]
      rfl
    · unfold nextActivity
      split
      · exact id
      · exact id

variable (srv)

/-- The tasks of a reached state are in the pool of its request. -/
theorem placed_reachable {s : AsyncConnection} (h : Reachable srv s) : Placed srv s := by
  obtain ⟨es, hrun⟩ := h
  have hstart : Inv srv (start srv) ∧ Placed srv (start srv) := by
    refine ⟨inv_start srv, ?_⟩
    unfold start
    dsimp only
    split
    · exact placed_of_one (y := .handshake) rfl id
    · exact placed_of_one (y := .read) rfl id
  refine (Transition.run_preserves (P := fun s => Inv srv s ∧ Placed srv s) ?_ hstart hrun).2
  rintro s e s' ⟨hinv, hp⟩ hstep
  exact ⟨inv_step srv hinv hstep, hp.step hinv hstep⟩

/-- A task or a write belongs to the only request of its exchange. -/
theorem Inv.request_of_works {s : AsyncConnection} (h : Inv srv s) {y : Activity}
    (ho : s.world.outstanding = [y]) (hy : y.Works) : ∃ q, s.exchange.requests = [q] := by
  have hph : Phase srv s.bare y :=
    (h.released srv (i := 0) (by rw [ho]; rfl)).2.2
  have hanswering : Answering s.bare → ∃ q, s.exchange.requests = [q] := by
    intro ha
    obtain ⟨q, hq, -⟩ := ha.request
    exact ⟨q, hq⟩
  rcases y with _ | _ | bytes | ⟨pool, view | _ | _⟩ | ⟨_ | _ | _ | _, buffer⟩
  · exact absurd hy id
  · exact absurd hy id
  · exact absurd hy id
  · obtain ⟨q, hq, -⟩ := (show Queued srv s.bare from hph).request
    exact ⟨q, hq⟩
  · exact hanswering hph.1
  · exact hanswering hph.1
  · exact hanswering hph.1.toAnswering
  · exact hanswering hph.1.toAnswering
  · exact hanswering hph.1.toAnswering
  · exact hanswering hph.1.toAnswering

variable {srv}

/-- What a step leaves outstanding in front of its last call. -/
theorem working_tail {s : AsyncConnection} {e : Event} {x : Outcome} (hinv : Inv srv s)
    (hw : Working s) (hx : Tail.step srv s e = some x) : Working x.state := by
  have hwork : ∀ {i : ℕ} {y : Activity}, s.world.outstanding[i]? = some y → y.Works :=
    fun hi => hw _ (List.mem_of_getElem? hi)
  have hsame : ∀ {t : AsyncConnection}, t.world.outstanding = s.world.outstanding → Working t := by
    intro t ht
    unfold Working
    rwa [ht]
  by_cases hr : e.Resumes
  · obtain ⟨i, y, hi, hends⟩ := ends_step srv hx hr
    obtain ⟨-, -, -, ho⟩ := hinv.held_release hi
    -- where nothing is outstanding there is nothing to show
    have hnone : x.state.world.outstanding = (s.release i).world.outstanding →
        Working x.state := by
      intro hx' z hz
      rw [hx', ho] at hz
      cases hz
    cases x with
    | stop t =>
      rcases hends with hout | ⟨z, hz, hout⟩
      · exact hnone hout
      · intro y' hy'
        have hmem : y' ∈ (s.release i).world.outstanding ++ [z] := hout ▸ hy'
        rw [ho] at hmem
        rw [List.mem_singleton.mp hmem]
        exact hz
    | reply m t books => exact hnone hends.2
    | finish t => exact hnone hends
  cases e with
  | timerExpires =>
    simp only [Tail.step, AsyncConnection.step] at hx
    split at hx
    · obtain rfl := Option.some.inj hx
      exact hsame rfl
    · cases hx
  | runTimer generation a =>
    simp only [Tail.step] at hx
    split at hx
    · obtain rfl := Option.some.inj hx
      exact hsame (outstanding_handleTimer srv a _ generation _)
    · cases hx
  | requestShutdown =>
    obtain rfl := Option.some.inj hx
    exact hsame rfl
  | handshake i ok =>
    simp only [Tail.step, AsyncConnection.step] at hx
    split at hx
    · rename_i hi
      exact absurd (hwork hi) id
    · cases hx
  | receive i bytes =>
    simp only [Tail.step, AsyncConnection.step] at hx
    split at hx
    · rename_i hi
      exact absurd (hwork hi) id
    · cases hx
  | runRead i a =>
    simp only [Tail.step] at hx
    split at hx
    · rename_i hi
      exact absurd (hwork hi) id
    · cases hx
  | _ => exact absurd trivial hr

/-- A step within an exchange. -/
theorem lane_step {s s' : AsyncConnection} {e : Event} (hinv : Inv srv s) (hw : Working s)
    (hstep : step srv s e = some s') (hsame : past s'.world.trace = past s.world.trace) :
    s'.lane = s.lane ∧ Working s' := by
  obtain ⟨x, hx, rfl⟩ := exists_outcome srv hstep
  have hquiet : past x.state.world.trace = past s.world.trace := by
    obtain ⟨new, hnew, hev⟩ := (trail_step srv hx).events
    rw [hnew]
    exact past_append fun o ho => not_rearmed_of_stepEvent srv (hev o ho).1
  rcases rests_or_rearms srv e.answers x with hrest | hre
  · refine ⟨(lane_run srv hrest.past).trans (sameLane_step hw hx).lane, ?_⟩
    unfold Working
    rw [hrest.outstanding]
    exact working_tail hinv hw hx
  · exact absurd (hsame.trans hquiet.symm) hre.past

/-- A run within an exchange. -/
theorem lane_of_run {s s' : AsyncConnection} {es : List Event} (hinv : Inv srv s)
    (hw : Working s) (hrun : runFrom srv s es = some s')
    (hsame : past s'.world.trace = past s.world.trace) : s'.lane = s.lane := by
  induction es generalizing s with
  | nil =>
    obtain rfl := Option.some.inj hrun
    rfl
  | cons e es ih =>
    obtain ⟨t, hstep, hrest⟩ := Transition.run_cons.mp hrun
    -- no exchange ended in between
    have hone : runFrom srv s [e] = some t := Transition.run_cons.mpr ⟨t, hstep, rfl⟩
    have h2 := past_suffix_run hrest
    rw [hsame] at h2
    have hmid : past t.world.trace = past s.world.trace :=
      h2.eq_of_length_le (past_suffix_run hone).length_le
    obtain ⟨hl, hw'⟩ := lane_step hinv hw hstep hmid
    exact (ih (inv_step srv hinv hstep) hw' hrest (hsame.trans hmid.symm)).trans hl

variable (srv)

/-- **One pool for a request.**  A task that is outstanding is in the pool of the handler
that the request of its exchange was given to; and all tasks of one exchange, the handler
and the getters of its chunks, are in the same pool. -/
theorem one_pool {s : AsyncConnection} (h : Reachable srv s) {pool : Pool} {task : Task}
    (ht : .task pool task ∈ s.world.outstanding) :
    (∃ q ip view, s.exchange.requests = [q] ∧
      srv.spine.getHandlerView (handedOn q ip) = some view ∧ pool = view.pool srv) ∧
    ∀ es t pool' task', runFrom srv s es = some t → past t.world.trace = past s.world.trace →
      .task pool' task' ∈ t.world.outstanding → pool' = pool := by
  have hinv := inv_reachable srv h
  have hplaced := placed_reachable srv h
  have hpool := hplaced.tasks pool task ht
  refine ⟨?_, fun es t pool' task' hrun hsame ht' => ?_⟩
  · obtain ⟨view, hview, hv⟩ := hplaced.view ⟨_, ht, trivial⟩
    obtain ⟨y, ho, hy⟩ := hinv.works_or_reads.resolve_left fun hread => hread _ ht trivial
    obtain ⟨q, hq⟩ := Inv.request_of_works srv hinv ho hy
    have hlive : Live srv s := by
      refine (traced_reachable srv h).2.stage.resolve_right fun hl => ?_
      rw [hl.outstanding] at ho
      cases ho
    obtain ⟨ip, hip⟩ := hlive.request hq
    exact ⟨q, ip, view, hq, hip ▸ hview, hpool.trans hv⟩
  · obtain ⟨fs, hfs⟩ := h
    have hplaced' : Placed srv t := placed_reachable srv ⟨fs ++ es, Transition.run_append hfs hrun⟩
    have hw : Working s := by
      obtain ⟨y, ho, hy⟩ := hinv.works_or_reads.resolve_left fun hread => hread _ ht trivial
      unfold Working
      rw [ho]
      exact List.forall_mem_singleton.mpr hy
    have hlane := lane_of_run hinv hw hrun hsame
    have hpool' := hplaced'.tasks pool' task' ht'
    exact hpool'.trans ((congrArg Prod.snd hlane).trans hpool.symm)

/-- A request whose response is chunked: up to the queue, and on to the second chunk. -/
def queuedForHandler : List Event :=
  [.receive 0 "GET /x HTTP/1.1\r\nHost: h\r\n\r\n".toList, .runRead 0 MinimalSpine.answers]

/-- The handler returns a chunked stream, and its first chunk is written. -/
def queuedForChunk : List Event :=
  [.runTask 0 { MinimalSpine.answers with
      handler := .returned true
        { status := some 200, content := .stream 0, chunked := true, version := "1.1".toList } false
      content := some "hello".toList },
    .writeSome 0 10 MinimalSpine.answers, .writeSome 0 96 MinimalSpine.answers]

/-- The handler of `/x` and the getter of its second chunk. -/
theorem one_pool_chunked :
    ∃ s t pool task pool', runFrom MinimalSpine.server (start MinimalSpine.server)
        queuedForHandler = some s ∧ runFrom MinimalSpine.server s queuedForChunk = some t ∧
      s.world.outstanding = [.task pool task] ∧
      t.world.outstanding = [.task pool' .getNextChunkedChunk] ∧ pool' = pool ∧
      ∃ q ip view, s.exchange.requests = [q] ∧
        MinimalSpine.spine.getHandlerView (handedOn q ip) = some view ∧
        pool = view.pool MinimalSpine.server := by
  obtain ⟨s, hs, hp⟩ := MinimalSpine.reached queuedForHandler
    (fun s => s.world.outstanding == [.task .fast (.handleCompletedRead
        { isCatchNoMatch := false, isAdminQuery := false, queryIsFast := true })] &&
      (runFrom MinimalSpine.server s queuedForChunk).any fun t =>
        past t.world.trace == past s.world.trace &&
          t.world.outstanding == [.task .fast .getNextChunkedChunk]) (by decide +kernel)
  simp only [Bool.and_eq_true, beq_iff_eq, Option.any_eq_true] at hp
  obtain ⟨ho, t, ht, hpast, ho'⟩ := hp
  obtain ⟨hview, hpool⟩ := one_pool MinimalSpine.server ⟨_, hs⟩ (by rw [ho]; exact .head _)
  exact ⟨s, t, _, _, _, hs, ht, ho, ho',
    hpool _ t _ _ ht hpast (by rw [ho']; exact .head _), hview⟩

end AsyncConnection

end SmartMet
