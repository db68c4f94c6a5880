/-
# The slot of a connection

A connection object lives as long as a handler owns it, and counts against
`maxconnections` until then.  The wait of the timer is such an owner, and only
`handleCompletedRead` cancels it: a connection that is over before its request
has reached a handler is held until the timer runs out (`Abandons`).

* `Closing.step` : the invariant of the runs in which no connection is abandoned;
* `slot_released` : in such a run a connection that is over has no owner left.
-/
import SmartMetServer.MinimalSpine
import SmartMetServer.Pulls
import SmartMetServer.Rearming

namespace SmartMet

/-- The socket was closed behind a header section of the same exchange: by a reply. -/
def closedByReply : List Obs → Bool
  | [] => false
  | .closed :: t => !(current t).heads.isEmpty || closedByReply t
  | _ :: t => closedByReply t

/-- Events that neither close the socket nor end a read. -/
def Obs.Ongoing (o : Obs) : Prop := o ≠ .closed ∧ o ≠ .readError

namespace AsyncConnection

/-- The connection is over: a read has failed, or a reply path has closed the socket. -/
def Finished (s : AsyncConnection) : Prop :=
  .readError ∈ s.world.trace ∨ closedByReply s.world.trace = true

/-- No handler waits to be called: nothing is outstanding, and no wait of the timer
has run out or was cancelled. -/
def Still (s : AsyncConnection) : Prop :=
  s.world.outstanding = [] ∧ ∀ w ∈ s.world.waits, w.status = .pending

/-- A connection that is over, and has no handler to be called, has no owner. -/
def Released (s : AsyncConnection) : Prop := s.Finished → s.Still → s.owners = 0

variable (srv : Server)

/-- `sendSimpleReply` closes the socket. -/
def Closes (a : Answers) (m : Message) (s : AsyncConnection) : Prop :=
  ∃ head ∈ headersToString srv.spine s.itsResponse,
    (writeContent a m (writeHead a m head s)).itsKeepAlive = false

instance decidableDisarmed (s : AsyncConnection) : Decidable (Disarmed s) :=
  inferInstanceAs (Decidable (∀ w ∈ s.world.waits, w.status ≠ .pending))

instance decidableCloses (a : Answers) (m : Message) (s : AsyncConnection) :
    Decidable (Closes srv a m s) :=
  decidable_of_iff ((headersToString srv.spine s.itsResponse).any (fun head =>
    !(writeContent a m (writeHead a m head s)).itsKeepAlive) = true) <| by
    unfold Closes
    rw [Option.any_eq_true]
    simp

/-- A reply closes the socket of a connection whose timer is armed. -/
def ClosesArmed (a : Answers) : Outcome → Prop
  | .reply m t _ => Closes srv a m t ∧ ¬ Disarmed t
  | _ => False

instance decidableClosesArmed (a : Answers) : ∀ x, Decidable (ClosesArmed srv a x)
  | .stop _ => isFalse id
  | .finish _ => isFalse id
  | .reply m t _ => inferInstanceAs (Decidable (Closes srv a m t ∧ ¬ Disarmed t))

/-- The step ends a connection whose timer is armed: a read fails, or a request is
answered by a reply of the server's own that closes the socket. -/
def Abandons (s : AsyncConnection) : Event → Prop
  | .readFails _ _ _ => ¬ Disarmed s
  | .runRead i a => ∃ x ∈ Tail.step srv s (.runRead i a), ClosesArmed srv a x
  | _ => False

instance decidableAbandons (s : AsyncConnection) : ∀ e, Decidable (Abandons srv s e)
  | .readFails _ _ _ => inferInstanceAs (Decidable (¬ Disarmed s))
  | .runRead i a =>
    decidable_of_iff ((Tail.step srv s (.runRead i a)).any (fun x =>
      decide (ClosesArmed srv a x)) = true) <| by
      unfold Abandons
      rw [Option.any_eq_true]
      simp
  | .handshake _ _ => isFalse id
  | .receive _ _ => isFalse id
  | .runTask _ _ => isFalse id
  | .writeSome _ _ _ => isFalse id
  | .writeFails _ _ => isFalse id
  | .timerExpires => isFalse id
  | .runTimer _ _ => isFalse id
  | .requestShutdown => isFalse id

/-! ## Code that ends no connection -/

/-- The connection has not come to its end between `s` and `t`. -/
structure Goes (s t : AsyncConnection) : Prop where
  finished : t.Finished ↔ s.Finished
  socket : t.world.socket = .closed ↔ s.world.socket = .closed

namespace Goes

variable {s t u : AsyncConnection}

/-- The connection stays as it is. -/
theorem refl (s : AsyncConnection) : Goes s s := ⟨Iff.rfl, Iff.rfl⟩

/-- Two parts in a row. -/
theorem trans (h : Goes s t) (h' : Goes t u) : Goes s u :=
  ⟨h'.finished.trans h.finished, h'.socket.trans h.socket⟩

/-- Only members and other parts of the world were set. -/
theorem silent (ht : t.world.trace = s.world.trace) (hs : t.world.socket = s.world.socket) :
    Goes s t := by
  refine ⟨?_, ?_⟩
  · unfold Finished
    rw [ht]
  · rw [hs]

/-- An event that is no end. -/
theorem emit (s : AsyncConnection) {o : Obs} (ho : o.Ongoing) : Goes s (s.emit o) := by
  refine ⟨?_, Iff.rfl⟩
  have hclosed : closedByReply (o :: s.world.trace) = closedByReply s.world.trace := by
    cases o with
    | closed => exact absurd rfl ho.1
    | _ => rfl
  have hread : .readError ∈ o :: s.world.trace ↔ .readError ∈ s.world.trace := by
    rw [List.mem_cons, or_iff_right fun h : Obs.readError = o => ho.2 h.symm]
  show (.readError ∈ o :: s.world.trace ∨ closedByReply (o :: s.world.trace) = true) ↔
    (.readError ∈ s.world.trace ∨ closedByReply s.world.trace = true)
  rw [hclosed, hread]

/-- Members and other parts of the world were set before. -/
theorem behind (h : Goes t u) (ht : t.world.trace = s.world.trace)
    (hs : t.world.socket = s.world.socket) : Goes s u := (silent ht hs).trans h

/-- A synchronous write breaks a socket, but closes none. -/
theorem write (m : Message) (b : Bytes) (o : WriteOutcome) (s : AsyncConnection) :
    Goes s (AsyncConnection.write m b o s) := by
  have hw : ∀ c, (Obs.wrote m c).Ongoing := fun c => by simp [Obs.Ongoing]
  have he : (Obs.writeError m).Ongoing := by simp [Obs.Ongoing]
  rcases s.world.write_cases m b o with ⟨-, -, h⟩ | ⟨-, -, h⟩ | ⟨-, hs, n, h⟩ | ⟨-, -, h⟩
  · exact silent (congrArg World.trace h) (congrArg World.socket h)
  · exact (emit s (hw b)).trans (silent (congrArg World.trace h) (congrArg World.socket h))
  · have hwrote := (emit s (hw (b.dropLast.take n))).trans (emit _ he)
    refine ⟨?_, ?_⟩
    · rw [← hwrote.finished]
      unfold Finished
      rw [show (AsyncConnection.write m b o s).world.trace = _ from congrArg World.trace h]
      rfl
    · show (World.write s.world m b o).socket = .closed ↔ s.world.socket = .closed
      rw [h, hs]
      simp
  · exact (emit s he).trans (silent (congrArg World.trace h) (congrArg World.socket h))

/-- An asynchronous write that fails does likewise. -/
theorem failWrite (s : AsyncConnection) : Goes s s.failWrite := by
  refine ⟨(emit s (o := .writeError .handler) (by simp [Obs.Ongoing])).finished, ?_⟩
  show (if s.world.socket = .open then SocketState.broken else s.world.socket) = .closed ↔ _
  split
  · rename_i ho
    rw [ho]
    simp
  · exact Iff.rfl

end Goes

/-- The connection is over, or its socket was closed without a reply. -/
def Ended (s : AsyncConnection) : Prop := s.Finished ∨ s.world.socket = .closed

/-- A connection that goes on has ended before or not at all. -/
theorem Goes.ended {s t : AsyncConnection} (h : Goes s t) : t.Ended ↔ s.Ended :=
  or_congr h.finished h.socket

/-! ## The last call -/

/-- The end of a response ends no connection, -/
theorem goes_finishResponse (s : AsyncConnection) : Goes s (finishResponse srv s) := by
  unfold finishResponse
  split
  · let n := if s.itsBuffer.isEmpty then srv.itsKeepAliveTimeout else srv.itsTimeout
    let u : AsyncConnection := armForNextRequest srv (resetRequestState s)
    have hu : Goes s u := by
      refine (Goes.emit s (o := .rearmed) (by simp [Obs.Ongoing])).trans ?_
      refine (Goes.emit (s.emit .rearmed) (o := .armed (s.itsTimerGeneration + 1) n)
        (by simp [Obs.Ongoing])).trans ?_
      exact Goes.silent rfl rfl
    unfold resumeReading
    split
    · exact hu.trans (Goes.silent rfl rfl)
    · exact hu.trans (Goes.silent rfl rfl)
  · exact Goes.refl s

/-- A reply of the server's own closes the socket, or ends no connection. -/
theorem goes_or_closes_sendSimpleReply (a : Answers) (m : Message) (s : AsyncConnection) :
    Goes s (sendSimpleReply srv a m s) ∨
      Closes srv a m s ∧ Rests s (sendSimpleReply srv a m s) := by
  unfold Closes sendSimpleReply
  cases headersToString srv.spine s.itsResponse with
  | none => exact Or.inl (Goes.refl s)
  | some head =>
    let t := writeContent a m (writeHead a m head s)
    have ht : Goes s t :=
      ((Goes.emit s (by simp [Obs.Ongoing])).trans (Goes.write m head _ _)).trans
        ((Goes.write m _ _ _).trans (Goes.silent rfl rfl))
    show Goes s (if t.itsKeepAlive then finishResponse srv t else closeSocket t) ∨
      _ ∧ Rests s (if t.itsKeepAlive then finishResponse srv t else closeSocket t)
    split
    · exact Or.inl (ht.trans (goes_finishResponse srv t))
    · rename_i hk
      refine Or.inr ⟨⟨head, rfl, by simpa using hk⟩, ?_⟩
      exact (rests_writes a m head s).trans (rests_closeSocket t)

/-- nor does the notification of a backend, -/
theorem goes_notifyBackendFinished (st : StreamerStatus) (s : AsyncConnection) :
    Goes s (notifyBackendFinished st s) := by
  unfold notifyBackendFinished
  split
  · exact Goes.refl s
  · exact (Goes.emit s (by simp [Obs.Ongoing])).trans (Goes.silent rfl rfl)

/-- the log, -/
theorem goes_finalizeStreamLogging (s : AsyncConnection) : Goes s (finalizeStreamLogging s) := by
  unfold finalizeStreamLogging
  split
  · exact (Goes.emit s (by simp [Obs.Ongoing])).trans (Goes.silent rfl rfl)
  · exact Goes.refl s

/-- the keeping of the books -/
theorem goes_keep (books : Books) (s : AsyncConnection) : Goes s (books.keep s) := by
  cases books with
  | none => exact Goes.refl s
  | log => exact goes_finalizeStreamLogging s
  | logAndNotify st =>
    exact (goes_finalizeStreamLogging s).trans (goes_notifyBackendFinished _ _)

/-- The last call ends no connection, or it is a reply that closes the socket. -/
theorem goes_or_closes (a : Answers) (x : Outcome) :
    Goes x.state (x.run srv a) ∨
      Rests x.state (x.run srv a) ∧ ∃ m t books, x = .reply m t books ∧ Closes srv a m t := by
  cases x with
  | stop s => exact Or.inl (Goes.refl s)
  | finish s => exact Or.inl (goes_finishResponse srv s)
  | reply m s books =>
    obtain ⟨hst, ho, hb, -⟩ := Threads.steady_keep books (sendSimpleReply srv a m s)
    rcases goes_or_closes_sendSimpleReply srv a m s with h | ⟨hc, hrest⟩
    · exact Or.inl (h.trans (goes_keep books _))
    · refine Or.inr ⟨hrest.trans ?_, m, s, books, rfl, hc⟩
      exact Rests.of_steady hst (fun o h => (Threads.inside_book h).1) ho hb

/-! ## The look at a request -/

/-- or the swap of the timer. -/
theorem goes_leaveIdle (s : AsyncConnection) : Goes s (leaveIdle srv s) := by
  unfold leaveIdle
  split
  · exact (Goes.emit s (o := .armed (s.itsTimerGeneration + 1) srv.itsTimeout)
      (by simp [Obs.Ongoing])).trans (Goes.silent rfl rfl)
  · exact Goes.silent rfl rfl

/-- A request is scheduled, -/
theorem goes_scheduleRequest (a : Answers) (view : HandlerView) (s : AsyncConnection) :
    Goes s (Tail.scheduleRequest srv a view s).state := by
  unfold Tail.scheduleRequest
  split
  · dsimp only
    split
    · exact Goes.silent rfl rfl
    · exact Goes.silent rfl rfl
  · dsimp only
    split
    · exact Goes.silent rfl rfl
    · exact Goes.silent rfl rfl

/-- finds its pool, -/
theorem goes_routeRequest (a : Answers) (s : AsyncConnection) :
    Goes s (Tail.routeRequest srv a s).state := by
  unfold Tail.routeRequest
  split
  · exact Goes.silent rfl rfl
  cases srv.spine.getHandlerView s.itsRequest with
  | none => exact Goes.silent rfl rfl
  | some view =>
    dsimp only
    split
    · exact Goes.silent rfl rfl
    · exact Goes.behind (goes_scheduleRequest srv a view _) rfl rfl

/-- is taken up -/
theorem goes_handleParsedRequest (a : Answers) (s : AsyncConnection) :
    Goes s (Tail.handleParsedRequest srv a s).state := by
  unfold Tail.handleParsedRequest
  dsimp only
  refine (Goes.emit s (o := .parsed s.itsRequest) (by simp [Obs.Ongoing])).trans ?_
  cases h : resolveClientIP srv a (s.emit (.parsed s.itsRequest)) with
  | none => exact Goes.emit _ (o := .peerUnknown) (by simp [Obs.Ongoing])
  | some u =>
    obtain ⟨-, ip, rfl⟩ := resolveClientIP_eq srv a h
    dsimp only
    split
    · exact Goes.silent rfl rfl
    · exact Goes.behind (goes_routeRequest srv a _) rfl rfl

/-- or is read on, and the connection goes on. -/
theorem goes_handleIncompleteRequest (a : Answers) (s : AsyncConnection) :
    Goes s (Tail.handleIncompleteRequest srv a s).state := by
  unfold Tail.handleIncompleteRequest
  split
  · exact Goes.silent rfl rfl
  have hwrite : Goes s (continued a s) :=
    Goes.behind (t := { s with itsExpectHandled := true }) (Goes.write .interim _ _ _) rfl rfl
  dsimp only
  rcases handleExpectContinue_cases srv a s with ⟨-, h⟩ | ⟨-, -, h⟩ |
    ⟨-, -, -, ⟨-, h⟩ | ⟨-, ⟨-, h⟩ | ⟨-, h⟩⟩⟩
  · rw [h]
    exact Goes.silent rfl rfl
  · rw [h]
    exact Goes.silent rfl rfl
  · rw [h]
    exact Goes.silent rfl rfl
  · rw [h]
    exact hwrite.trans (Goes.silent rfl rfl)
  · rw [h]
    exact hwrite.trans (Goes.silent rfl rfl)

/-- A queued call of `handleRead` ends no connection in front of its last call. -/
theorem goes_handleRead (a : Answers) (bytes : Bytes) (s : AsyncConnection) :
    Goes s (Tail.handleRead srv a .success bytes s).state := by
  unfold Tail.handleRead
  split
  · exact Goes.silent rfl rfl
  dsimp only
  rw [if_pos rfl]
  refine Goes.trans (t := leaveIdle srv { s with itsFinalStatus := .success }) ?_ ?_
  · exact Goes.behind (goes_leaveIdle srv _) rfl rfl
  unfold Tail.handleReadBytes
  dsimp only
  split
  · exact Goes.silent rfl rfl
  unfold Tail.parseBuffer
  dsimp only
  cases srv.spine.parseOneRequest _ with
  | complete request consumed => exact Goes.behind (goes_handleParsedRequest srv a _) rfl rfl
  | failed => exact Goes.silent rfl rfl
  | incomplete => exact Goes.behind (goes_handleIncompleteRequest srv a _) rfl rfl

/-! ## The reply paths -/

/-- A function of the reply paths that closes the socket itself returns, and leaves
nothing outstanding. -/
def Flows (s : AsyncConnection) (x : Outcome) : Prop :=
  Goes s x.state ∨ ∃ t, x = .stop t ∧ t.world.outstanding = s.world.outstanding

/-- What was done before goes on too. -/
theorem Flows.behind {s t : AsyncConnection} {x : Outcome} (h : Flows t x)
    (ht : Goes s t) (ho : t.world.outstanding = s.world.outstanding) : Flows s x := by
  rcases h with h | ⟨u, rfl, hu⟩
  · exact Or.inl (ht.trans h)
  · exact Or.inr ⟨u, rfl, hu.trans ho⟩

/-- A header section is written, -/
theorem goes_flushPendingHeaders (a : Answers) (s : AsyncConnection) :
    Goes s (flushPendingHeaders a s) := by
  unfold flushPendingHeaders
  split
  · exact Goes.refl s
  · exact (Goes.write .handler _ _ s).trans (Goes.silent rfl rfl)

/-- a chunk taken, -/
theorem goes_takeChunk (c : Bytes) (s : AsyncConnection) : Goes s (takeChunk c s) :=
  (Goes.emit s (o := .chunk c _) (by simp [Obs.Ongoing])).trans (Goes.silent rfl rfl)

/-- the next getter scheduled. -/
theorem goes_scheduleGetter (a : Answers) (task : Task) (s : AsyncConnection) :
    Goes s (Tail.scheduleGetter srv a task s).state := by
  unfold Tail.scheduleGetter
  split
  · exact Goes.silent rfl rfl
  · exact (Goes.emit s (o := .refused) (by simp [Obs.Ongoing])).trans (Goes.silent rfl rfl)

/-- A stream of announced length closes by its last call only, -/
theorem goes_getNextChunk (a : Answers) (s : AsyncConnection) :
    Goes s (Tail.getNextChunk srv a s).state := by
  have hend : ∀ (st : StreamerStatus) (own : Bool), Goes s (
      if flushFails a (s.emit (.streamEnded st own)) then
        Outcome.stop (flushPendingHeaders a (s.emit (.streamEnded st own)))
      else Tail.finishStream st (flushPendingHeaders a (s.emit (.streamEnded st own)))).state := by
    intro st own
    have hflush : Goes s (flushPendingHeaders a (s.emit (.streamEnded st own))) :=
      (Goes.emit s (by simp [Obs.Ongoing])).trans (goes_flushPendingHeaders a _)
    split
    · exact hflush
    · exact hflush.trans ((goes_finalizeStreamLogging _).trans
        ((goes_notifyBackendFinished st _).trans (Goes.silent rfl rfl)))
  unfold Tail.getNextChunk
  cases getStreamingStatus a s.itsResponse with
  | ok =>
    cases nextContent a s.itsResponse with
    | none => exact Goes.refl s
    | some content =>
      have hflush := (goes_takeChunk content s).trans (goes_flushPendingHeaders a _)
      dsimp only
      split
      · exact (goes_takeChunk content s).trans (Goes.silent rfl rfl)
      split
      · exact hflush
      · exact hflush.trans (goes_scheduleGetter srv a _ _)
  | exitOk => exact hend .exitOk _
  | exitError => exact hend .exitError _

/-- A chunked stream that has failed is closed. -/
theorem flows_getNextChunkedChunk (a : Answers) (s : AsyncConnection) :
    Flows s (Tail.getNextChunkedChunk srv a s) := by
  have hended : ∀ (st : StreamerStatus) (own : Bool),
      Goes s (notifyBackendFinished st (s.emit (.streamEnded st own))) := fun st _ =>
    (Goes.emit s (by simp [Obs.Ongoing])).trans (goes_notifyBackendFinished st _)
  unfold Tail.getNextChunkedChunk
  cases getStreamingStatus a s.itsResponse with
  | ok =>
    left
    cases nextContent a s.itsResponse with
    | none => exact Goes.refl s
    | some content =>
      have hflush := (goes_takeChunk content s).trans (goes_flushPendingHeaders a _)
      dsimp only
      split
      · exact (goes_takeChunk content s).trans (Goes.silent rfl rfl)
      split
      · exact hflush
      · exact hflush.trans (goes_scheduleGetter srv a _ _)
  | exitOk => exact Or.inl ((hended .exitOk _).trans (Goes.silent rfl rfl))
  | exitError =>
    refine Or.inr ⟨_, rfl, ?_⟩
    show (finalizeStreamLogging (flushPendingHeaders a _)).world.outstanding = _
    rw [outstanding_finalizeStreamLogging, outstanding_flushPendingHeaders]
    exact outstanding_notifyBackendFinished _ _

/-- as a completed write does. -/
theorem goes_runWriteHandler (a : Answers) (handler : WriteHandler) (e : ErrorCode) (n : ℕ)
    (s : AsyncConnection) : Goes s (Tail.runWriteHandler srv a handler e n s).state := by
  have hcont : ∀ (next : AsyncConnection → Outcome) (failed : Books),
      (∀ t, Goes t (next t).state) →
      Goes s (Tail.continueWrite srv a handler e n next failed s).state := by
    intro next failed hnext
    unfold Tail.continueWrite
    dsimp only
    split
    · split
      · exact Goes.silent rfl rfl
      · exact Goes.behind (hnext _) rfl rfl
    · exact Goes.silent rfl rfl
  cases handler with
  | writeRegularReply => exact hcont (fun s => .finish _) _ (goes_notifyBackendFinished .exitOk)
  | writeStreamReply => exact hcont _ _ (goes_scheduleGetter srv a .getNextChunk)
  | writeChunkedReply => exact hcont _ _ (goes_scheduleGetter srv a .getNextChunkedChunk)
  | finalizeChunkedReply => exact hcont (fun s => .finish _) _ goes_finalizeStreamLogging

/-- A header section is prepared, -/
theorem goes_preparePendingHeaders (s : AsyncConnection) :
    Goes s (preparePendingHeaders srv s) :=
  (Goes.emit s (o := .rendered .handler (renderHeaders srv s.itsResponse).1
    (renderHeaders srv s.itsResponse).2) (by simp [Obs.Ongoing])).trans (Goes.silent rfl rfl)

/-- a buffered reply started. -/
theorem goes_startRegularReply (s : AsyncConnection) : Goes s (startRegularReply srv s) := by
  let r := renderHeaders srv (frameResponse srv s.itsHeadRequest
    (echoETag srv s.itsRequest (encodeResponse srv s.itsRequest s.itsResponse)))
  exact (Goes.emit s (o := .rendered .handler r.1 r.2) (by simp [Obs.Ongoing])).trans
    (Goes.silent rfl rfl)

/-- A reply that closes the socket itself leaves nothing outstanding, -/
theorem flows_startReply (a : Answers) (s : AsyncConnection) :
    Flows s (Tail.startReply srv a s) := by
  have hstarted : ∀ p, Goes s (setServerHeaders srv a (s.emit (.started p))) := fun p =>
    (Goes.emit s (by simp [Obs.Ongoing])).trans (Goes.silent rfl rfl)
  rw [startReply_path]
  cases replyPath s.itsHeadRequest s.itsResponse with
  | regular => exact Or.inl ((hstarted .regular).trans (goes_startRegularReply srv _))
  | gateway =>
    refine Or.inl (Goes.trans (t := s.emit (.started .gateway)) ?_ ?_)
    · exact Goes.emit s (by simp [Obs.Ongoing])
    · exact Goes.behind (goes_getNextChunk srv a _) rfl rfl
  | stream =>
    refine Or.inl ((hstarted .stream).trans ?_)
    exact Goes.behind ((goes_preparePendingHeaders srv _).trans (goes_getNextChunk srv a _)) rfl rfl
  | chunked =>
    refine (flows_getNextChunkedChunk srv a _).behind ((hstarted .chunked).trans ?_) rfl
    exact Goes.behind (goes_preparePendingHeaders srv _) rfl rfl

/-- and so does the task that calls the handler. -/
theorem flows_handleCompletedRead (a : Answers) (s : AsyncConnection) :
    Flows s (Tail.handleCompletedRead srv a s) := by
  unfold Tail.handleCompletedRead
  split
  · exact Or.inl (Goes.refl s)
  split
  · exact Or.inl (Goes.refl s)
  let v := Tail.called s
  have hv : Goes s v :=
    (Goes.emit s (o := .clientStarted _) (by simp [Obs.Ongoing])).trans
      (Goes.emit _ (o := .dispatched _) (by simp [Obs.Ongoing]))
  have hw : ∀ response, Goes s (Tail.handled response v) := fun response =>
    (hv.trans (Goes.emit v (o := .handled response) (by simp [Obs.Ongoing]))).trans
      (Goes.silent rfl rfl)
  rw [Tail.callHandler_eq]
  rcases Tail.returnFromHandler_cases srv a v with
    ⟨-, heq⟩ | ⟨response, ⟨-, heq⟩ | ⟨-, heq⟩ | ⟨-, heq⟩⟩
  · rw [heq]
    exact Or.inl hv
  · rw [heq]
    exact Or.inl (hw response)
  · rw [heq]
    exact Or.inl ((hw response).trans (Goes.silent rfl rfl))
  · rw [heq]
    exact (flows_startReply srv a _).behind (hw response) rfl

/-! ## The timer of a reply path -/

variable {srv}

/-- Every pending wait has the current stamp: none is pending once that wait is gone. -/
theorem disarmed_of_unarmed {s : AsyncConnection} (hc : Common srv s.bare)
    (hu : Unarmed s.bare) : Disarmed s := by
  intro w hw hp
  have hgen : w.generation = s.itsTimerGeneration := hc.pending w hw hp
  have hlt : w.generation < s.itsTimerGeneration := hu w hw
  omega

/-- A cancelled timer has no pending wait. -/
theorem disarmed_cancelTimer (s : AsyncConnection) : Disarmed (cancelTimer s) := by
  intro w hw
  obtain ⟨w', -, rfl⟩ := List.mem_map.mp (show w ∈ s.world.waits.map TimerWait.cancel from hw)
  unfold TimerWait.cancel
  dsimp only
  split
  · simp
  · assumption

/-- The timer is not armed while a response is written. -/
theorem unarmed_of_writing {s : AsyncConnection} {handler : WriteHandler} {buffer : Bytes}
    (h : Phase srv s (.write handler buffer)) : Unarmed s := by
  cases handler with
  | writeRegularReply => exact h.1.unarmed
  | writeStreamReply => exact h.1.unarmed
  | writeChunkedReply => exact h.1.unarmed
  | finalizeChunkedReply => exact h.1.unarmed

/-- The wait that acts is the last pending one. -/
theorem disarmed_erase {s : AsyncConnection} {w : TimerWait} (hc : Common srv s.bare)
    (hd : Distinct s) (hw : w ∈ s.world.waits) (hgen : w.generation = s.itsTimerGeneration) :
    Disarmed { s with world.waits := s.world.waits.erase w } := by
  intro v hv hp
  have hmem : v ∈ s.world.waits := List.mem_of_mem_erase hv
  have heq : v.generation = w.generation := (hc.pending v hmem hp).trans hgen.symm
  have hsub : (s.world.waits.erase w).Sublist s.world.waits := List.erase_sublist
  have hnd : s.world.waits.Nodup := List.Nodup.of_map _ hd
  obtain rfl : v = w := List.inj_on_of_nodup_map hd hmem hw heq
  exact absurd hv (hnd.not_mem_erase)

/-! ## The invariant -/

/-- Nothing reads on behind the end of a connection, and the timer is not armed behind
the end that counts. -/
structure Closing (s : AsyncConnection) : Prop where
  distinct : Distinct s
  timedOut : s.hasTimedOut = true → Disarmed s
  ended : s.Ended → s.world.outstanding = [] ∨ s.hasTimedOut = true
  disarmed : s.Finished → Disarmed s

/-- A connection that has timed out has its timer at rest. -/
theorem closing_of_timedOut {s : AsyncConnection} (hd : Distinct s) (ht : s.hasTimedOut = true)
    (hdis : Disarmed s) : Closing s :=
  ⟨hd, fun _ => hdis, fun _ => Or.inr ht, fun _ => hdis⟩

/-- One with nothing outstanding may have ended. -/
theorem closing_of_none {s : AsyncConnection} (hd : Distinct s) (ho : s.world.outstanding = [])
    (hdis : Disarmed s) : Closing s :=
  ⟨hd, fun _ => hdis, fun _ => Or.inl ho, fun _ => hdis⟩

/-- One that has not ended reads on as it likes. -/
theorem closing_of_ongoing {s : AsyncConnection} (hd : Distinct s) (hs : ¬ s.Ended)
    (ht : s.hasTimedOut = true → Disarmed s) : Closing s :=
  ⟨hd, ht, fun he => absurd he hs, fun hf => absurd (Or.inl hf) hs⟩

/-- The handler of the timer that has acted re-arms nothing. -/
theorem rests_of_timedOut {x : Outcome} (a : Answers) (h : x.state.hasTimedOut = true) :
    Rests x.state (x.run srv a) := by
  refine (rests_or_rearms srv a x).resolve_right fun hre => ?_
  have hnot := hre.timedOut.1
  rw [h] at hnot
  cases hnot

/-- The last call starts at most one wait, and that of a new arming. -/
theorem Distinct.run {x : Outcome} (a : Answers) (h : Distinct x.state) (hst : Stamped x.state) :
    Distinct (x.run srv a) := by
  rcases rests_or_rearms srv a x with hrest | hre
  · exact h.winds (.of_eq hrest.waits)
  · exact hre.distinct hst h

/-- Where no connection ends in front of the last call, a reply that closes the socket
finds the timer disarmed. -/
theorem closing_run {s : AsyncConnection} {x : Outcome} {a : Answers}
    (hd : Distinct (x.run srv a)) (hs : ¬ s.Ended) (hgo : Goes s x.state)
    (ht : x.state.hasTimedOut = true → Disarmed x.state)
    (hclose : ∀ m t books, x = .reply m t books → Closes srv a m t →
      Disarmed t ∧ t.world.outstanding = []) : Closing (x.run srv a) := by
  rcases goes_or_closes srv a x with hg | ⟨hrest, m, t, books, rfl, hc⟩
  · refine closing_of_ongoing hd (fun he => hs ((hgo.trans hg).ended.mp he)) fun hto => ?_
    rcases rests_or_rearms srv a x with hrest | hre
    · exact (ht (hrest.timedOut.symm.trans hto)).winds (.of_eq hrest.waits)
    · have hnot := hre.timedOut.2
      rw [hto] at hnot
      cases hnot
  · obtain ⟨hdis, ho⟩ := hclose m t books rfl hc
    exact closing_of_none hd (hrest.outstanding.trans ho) (hdis.winds (.of_eq hrest.waits))

/-- The server replies to bytes it has looked at with nothing outstanding. -/
theorem outstanding_handleRead {a : Answers} {bytes : Bytes} {s t : AsyncConnection} {m : Message}
    {books : Books} (h : Tail.handleRead srv a .success bytes s = .reply m t books) :
    t.world.outstanding = s.world.outstanding := by
  unfold Tail.handleRead at h
  split at h
  · obtain ⟨-, rfl, -⟩ := Outcome.reply.inj h
    rfl
  dsimp only at h
  rw [if_pos rfl] at h
  have hreads : Threads.Reads srv _ (Tail.handleReadBytes srv a bytes _) :=
    Threads.reads_handleReadBytes bytes a (leaveIdle srv { s with itsFinalStatus := .success })
  rw [h] at hreads
  refine (show t.world.outstanding = _ from hreads).trans ?_
  unfold leaveIdle
  split
  · rfl
  · rfl

/-- A step of the reply paths, with the timer disarmed. -/
theorem closing_resumed {s : AsyncConnection} {e : Event} {x : Outcome} (hinv : Inv srv s)
    (hx : Tail.step srv s e = some x) (he : e.Resumes) (hs : ¬ s.Ended)
    (hd : Distinct (x.run srv e.answers)) (hflow : Flows s.bare x) (hdis : Disarmed x.state) :
    Closing (x.run srv e.answers) := by
  obtain ⟨i, y, hi, hends⟩ := ends_step srv hx he
  obtain ⟨-, -, -, ho⟩ := hinv.held_release hi
  rcases hflow with hgo | ⟨t, rfl, ht⟩
  · refine closing_run hd hs (hgo.behind rfl rfl) (fun _ => hdis) ?_
    rintro m t books rfl -
    exact ⟨hdis, hends.2.trans ho⟩
  · exact closing_of_none hd ht hdis

variable (srv) in
/-- A read that has failed. -/
theorem handleRead_fails (a : Answers) {err : ErrorCode} {s : AsyncConnection}
    (hshut : ¬ s.world.shutdownRequested = true) (herr : err ≠ .success) :
    Tail.handleRead srv a err [] s = .stop (handleReadError { s with itsFinalStatus := err }) := by
  unfold Tail.handleRead
  rw [if_neg hshut]
  exact if_neg herr

/-- **One step** that does not abandon the connection. -/
theorem Closing.step {s s' : AsyncConnection} {e : Event} (hinv : Inv srv s) (h : Closing s)
    (hkeep : ¬ Abandons srv s e) (hstep : step srv s e = some s') : Closing s' := by
  obtain ⟨x, hx, rfl⟩ := exists_outcome srv hstep
  have hst : Stamped s := hinv.1.stamped
  have hd : Distinct (x.run srv e.answers) :=
    (distinct_tail srv hst h.distinct hx).run e.answers (stamped_tail srv hst hx)
  by_cases hto : s.hasTimedOut = true
  · -- the timer has acted: nothing arms it again
    obtain ⟨htx, hw⟩ := winds_tail srv hto hx
    have hrest : Rests x.state (x.run srv e.answers) := rests_of_timedOut e.answers htx
    refine closing_of_timedOut hd (hrest.timedOut.trans htx) ?_
    exact ((h.timedOut hto).winds hw).winds (.of_eq hrest.waits)
  -- a connection that has ended has nothing outstanding whose handler could be called
  have hlive : ∀ {i : ℕ} {y : Activity}, s.world.outstanding[i]? = some y → ¬ s.Ended := by
    intro i y hi hend
    obtain ⟨ho, -⟩ := hinv.held_release hi
    rcases h.ended hend with hnone | ht
    · rw [ho] at hnone
      cases hnone
    · exact hto ht
  cases e with
  | handshake i ok =>
    simp only [Tail.step, AsyncConnection.step] at hx
    split at hx
    · rename_i hi
      obtain rfl := Option.some.inj hx
      obtain ⟨hrel, -, hph⟩ := hinv.released srv hi
      obtain ⟨-, -, -, ho⟩ := hinv.held_release hi
      have hr : Reading srv s.bare := hph
      have hs := hlive hi
      cases ok with
      | true => exact closing_run hd hs (Goes.silent rfl rfl) (fun ht => absurd ht hto) (by simp)
      | false =>
        refine ⟨hd, fun ht => absurd ht hto, fun _ => Or.inl ho, fun hf => absurd ?_ hs⟩
        have hheads : (current s.world.trace).heads = [] := (hr.live fun hc => hs (Or.inr hc)).1
        rcases hf with hf | hf
        · refine Or.inl (Or.inl ((List.mem_cons.mp hf).resolve_left (by simp)))
        · refine Or.inl (Or.inr ?_)
          have hf' : (!(current s.world.trace).heads.isEmpty || closedByReply s.world.trace)
            = true := hf
          rw [hheads] at hf'
          simpa using hf'
    · cases hx
  | receive i bytes =>
    simp only [Tail.step, AsyncConnection.step] at hx
    split at hx
    · rename_i hi
      split at hx
      · obtain rfl := Option.some.inj hx
        refine closing_run hd (hlive hi) ?_ (fun ht => absurd ht hto) (by simp)
        exact (Goes.emit s (o := .received bytes) (by simp [Obs.Ongoing])).trans
          (Goes.silent rfl rfl)
      · cases hx
    · cases hx
  | readFails i err a =>
    have hdis : Disarmed s := not_not.mp hkeep
    simp only [Tail.step] at hx
    split at hx
    · rename_i hi
      split at hx
      · rename_i herr
        obtain rfl := Option.some.inj hx
        obtain ⟨-, -, -, ho⟩ := hinv.held_release hi
        -- a failed read ends in the reply to a shutdown, or in nothing
        by_cases hshut : s.world.shutdownRequested = true
        · have hx' : Tail.handleRead srv a err [] (s.release i) =
              Tail.sendStockReply srv a srv.spine.shutdown (s.release i) := if_pos hshut
          refine closing_run hd (hlive hi) ?_ ?_ ?_
          · rw [hx']
            exact Goes.silent rfl rfl
          · rw [hx']
            exact fun ht => absurd ht hto
          · intro m t books heq _
            obtain ⟨-, rfl, -⟩ := Outcome.reply.inj (hx'.symm.trans heq)
            exact ⟨hdis, ho⟩
        · have hx' := handleRead_fails srv a hshut herr (s := s.release i)
          rw [hx'] at hd ⊢
          exact closing_of_none hd ho hdis
      · cases hx
    · cases hx
  | runRead i a =>
    have hx' := hx
    simp only [Tail.step] at hx
    split at hx
    · rename_i bytes hi
      obtain ⟨-, -, -, ho⟩ := hinv.held_release hi
      have heq := Option.some.inj hx
      subst heq
      have hgo : Goes s (Tail.handleRead srv a .success bytes (s.release i)).state :=
        (goes_handleRead srv a bytes (s.release i)).behind rfl rfl
      refine closing_run hd (hlive hi) hgo (fun ht => absurd ?_ hto) ?_
      · rcases steady_handleRead srv a bytes (s.release i) with ⟨hsteady, -⟩ | ⟨hsteady, -⟩
        · exact hsteady.timedOut.symm.trans ht
        · have hidle : (leaveIdle srv { s.release i with itsFinalStatus := .success }).hasTimedOut
              = s.hasTimedOut := by
            unfold leaveIdle
            split
            · rfl
            · rfl
          exact hidle.symm.trans (hsteady.timedOut.symm.trans ht)
      · intro m t books hreply hc
        refine ⟨?_, (outstanding_handleRead hreply).trans ho⟩
        -- a reply that closes an armed connection is the step `hkeep` excludes
        by_contra hnot
        exact hkeep ⟨_, hx', by rw [hreply]; exact ⟨hc, hnot⟩⟩
    · cases hx
  | runTask i a =>
    have hx' := hx
    simp only [Tail.step] at hx
    split at hx
    · rename_i pool task hi
      have heq := Option.some.inj hx
      subst heq
      obtain ⟨hrel, hc, hph⟩ := hinv.released srv hi
      rw [hrel] at hx' hd ⊢
      cases task with
      | handleCompletedRead view =>
        refine closing_resumed hinv hx' trivial (hlive hi) hd ?_ ?_
        · exact (flows_handleCompletedRead srv a _).behind (Goes.silent rfl rfl) rfl
        · have hst := stretch_handleCompletedRead srv a (cancelTimer s.bare)
          exact (disarmed_cancelTimer s.bare).winds (.of_eq hst.waits)
      | getNextChunk =>
        have hun : Unarmed s.bare := hph.1.unarmed
        refine closing_resumed hinv hx' trivial (hlive hi) hd
          (Or.inl (goes_getNextChunk srv a _)) ?_
        exact (disarmed_of_unarmed hc hun).winds (.of_eq (stretch_getNextChunk srv a s.bare).waits)
      | getNextChunkedChunk =>
        have hun : Unarmed s.bare := hph.1.unarmed
        refine closing_resumed hinv hx' trivial (hlive hi) hd (flows_getNextChunkedChunk srv a _) ?_
        exact (disarmed_of_unarmed hc hun).winds
          (.of_eq (stretch_getNextChunkedChunk srv a s.bare).waits)
    · cases hx
  | writeSome i n a =>
    have hx' := hx
    simp only [Tail.step] at hx
    split at hx
    · rename_i handler buffer hi
      split at hx
      · have heq := Option.some.inj hx
        subst heq
        obtain ⟨hrel, hc, hph⟩ := hinv.released srv hi
        let u := s.bare.emit (.wrote .handler (buffer.take n))
        have hx'' : Tail.runWriteHandler srv a handler .success n
            ((s.release i).emit (.wrote .handler (buffer.take n))) =
              Tail.runWriteHandler srv a handler .success n u := by rw [hrel]
        rw [hx''] at hx' hd ⊢
        refine closing_resumed hinv hx' trivial (hlive hi) hd (Or.inl ?_) ?_
        · exact (Goes.emit s.bare (by simp [Obs.Ongoing])).trans
            (goes_runWriteHandler srv a handler .success n u)
        · exact (disarmed_of_unarmed hc (unarmed_of_writing hph)).winds
            (.of_eq (stretch_runWriteHandler srv a handler .success n u).waits)
      · cases hx
    · cases hx
  | writeFails i a =>
    have hx' := hx
    simp only [Tail.step] at hx
    split at hx
    · rename_i handler buffer hi
      have heq := Option.some.inj hx
      subst heq
      obtain ⟨hrel, hc, hph⟩ := hinv.released srv hi
      rw [hrel] at hx' hd ⊢
      refine closing_resumed hinv hx' trivial (hlive hi) hd (Or.inl ?_) ?_
      · refine Goes.trans ?_ (goes_runWriteHandler srv a handler .other 0 s.bare.failWrite)
        exact Goes.failWrite s.bare
      · exact (disarmed_of_unarmed hc (unarmed_of_writing hph)).winds
          (.of_eq (stretch_runWriteHandler srv a handler .other 0 s.bare.failWrite).waits)
    · cases hx
  | timerExpires =>
    simp only [Tail.step, AsyncConnection.step] at hx
    split at hx
    · obtain rfl := Option.some.inj hx
      exact ⟨hd, fun ht => absurd ht hto, h.ended,
        fun hf => (h.disarmed hf).winds (winds_expire s.world.waits)⟩
    · cases hx
  | runTimer generation a =>
    simp only [Tail.step] at hx
    split at hx
    · rename_i w hw
      obtain ⟨hmem, hgen, -⟩ := readyWait_spec hw
      obtain rfl := Option.some.inj hx
      -- the wait was cancelled or is stale
      have hquiet : Closing { s with world.waits := s.world.waits.erase w } :=
        ⟨h.distinct.winds (winds_erase _ w), fun ht => absurd ht hto, h.ended,
          fun hf => (h.disarmed hf).winds (winds_erase _ w)⟩
      by_cases hab : w.status = .aborted
      · rw [if_pos hab]
        exact hquiet
      by_cases hg : generation = s.itsTimerGeneration
      · rw [if_neg hab] at hd ⊢
        -- the wait that acts is the last one pending
        have hdis := disarmed_erase hinv.1 h.distinct hmem (hgen.trans hg)
        have htx : (Tail.handleTimer srv a .success generation
            { s with world.waits := s.world.waits.erase w }).state.hasTimedOut = true := by
          unfold Tail.handleTimer
          rw [if_neg (by simp), if_neg (not_not.mpr hg)]
          dsimp only
          split
          · rfl
          · rfl
        have hrest := @rests_of_timedOut srv _ a htx
        refine closing_of_timedOut hd (hrest.timedOut.trans htx) ?_
        exact (hdis.winds (unlooked_handleTimer srv a _ _ _).waits).winds (.of_eq hrest.waits)
      · rw [handleTimer_inert srv (s := { s with world.waits := s.world.waits.erase w }) hg]
        exact hquiet
    · cases hx
  | requestShutdown =>
    obtain rfl := Option.some.inj hx
    exact ⟨hd, h.timedOut, h.ended, h.disarmed⟩

/-! ## Runs -/

variable (srv)

/-- A connection that has just been started has not ended. -/
theorem closing_start : Closing (start srv) := by
  have htrace := start_trace srv
  have hopen : (start srv).world.socket = .open ∧ (start srv).hasTimedOut = false ∧
      (start srv).world.waits = [⟨1, .pending⟩] := by
    unfold start
    dsimp only
    split
    · exact ⟨rfl, rfl, rfl⟩
    · exact ⟨rfl, rfl, rfl⟩
  refine closing_of_ongoing ?_ ?_ ?_
  · unfold Distinct
    rw [hopen.2.2]
    simp
  · rintro ((hf | hf) | hf)
    · rw [htrace] at hf
      simp at hf
    · rw [htrace] at hf
      exact absurd hf (by simp [closedByReply])
    · rw [hopen.1] at hf
      cases hf
  · intro ht
    rw [hopen.2.1] at ht
    cases ht

/-- **A finished connection releases its slot**, in a run in which no step ends a
connection whose timer is armed. -/
theorem slot_released {s : AsyncConnection} {es : List Event}
    (hes : Transition.Along (step srv) (fun s e => ¬ Abandons srv s e) (start srv) es)
    (hrun : runFrom srv (start srv) es = some s) : s.Released := by
  obtain ⟨hinv, h⟩ := Transition.run_preserves_of (P := fun s => Inv srv s ∧ Closing s)
    (fun _ _ _ hs hg hstep => ⟨inv_step srv hs.1 hstep, hs.2.step hs.1 hg hstep⟩) hes
    ⟨inv_start srv, closing_start srv⟩ hrun
  rintro hover ⟨ho, hwaits⟩
  have hnone : s.world.waits = [] := by
    refine List.eq_nil_iff_forall_not_mem.mpr fun w hw => ?_
    exact h.disarmed hover w hw (hwaits w hw)
  unfold owners
  rw [ho, hnone]
  rfl

/-- A refused request: the reply closes the socket while the timer is disarmed. -/
def refusedRun : List Event :=
  [.receive 0 "GET /x HTTP/1.1\r\nHost: h\r\nConnection: close\r\n\r\n".toList,
    .runRead 0 MinimalSpine.answers,
    .runTask 0 { MinimalSpine.answers with handler := .returned false {} false },
    .runTimer 1 MinimalSpine.answers]

/-- A request that is refused gives its slot back. -/
theorem slot_released_refused :
    ∃ s, runFrom MinimalSpine.server (start MinimalSpine.server) refusedRun = some s ∧
      s.Finished ∧ s.owners = 0 := by
  obtain ⟨s, hs, hp⟩ := MinimalSpine.reached refusedRun
    (fun s => closedByReply s.world.trace && s.world.outstanding.isEmpty && s.world.waits.isEmpty)
    (by decide +kernel)
  simp only [Bool.and_eq_true, List.isEmpty_iff] at hp
  obtain ⟨⟨hclosed, ho⟩, hw⟩ := hp
  have hover : s.Finished := Or.inr hclosed
  have hes : Transition.Along (step MinimalSpine.server)
      (fun s e => ¬ Abandons MinimalSpine.server s e) (start MinimalSpine.server) refusedRun := by
    decide +kernel
  refine ⟨s, hs, hover, slot_released MinimalSpine.server hes hs hover ⟨ho, ?_⟩⟩
  rw [hw]
  intro w hmem
  cases hmem

variable {srv}

/-! ## A connection that is abandoned -/

/-- The server's own reply closes a connection that does not persist. -/
theorem closes_of_keepAlive {a : Answers} {m : Message} {s : AsyncConnection}
    (hr : s.itsResponse.status.isSome) (hk : s.itsKeepAlive = false) : Closes srv a m s := by
  refine ⟨srv.spine.headerSection s.itsResponse, ?_, ?_⟩
  · exact if_pos hr
  · show (s.itsKeepAlive && _) = false
    rw [hk]
    rfl

/-- A reply that closes the socket ends the connection, and leaves the timer alone. -/
theorem finished_of_closes {a : Answers} {m : Message} {s : AsyncConnection} (books : Books)
    (h : Closes srv a m s) : ((Outcome.reply m s books).run srv a).Finished ∧
      Rests s ((Outcome.reply m s books).run srv a) := by
  obtain ⟨head, hhead, hk⟩ := h
  let w₀ := s.world.emit (.rendered m s.itsResponse head)
  let t := writeContent a m (writeHead a m head s)
  have heq : sendSimpleReply srv a m s = closeSocket t := by
    unfold sendSimpleReply
    rw [hhead]
    exact if_neg (by simp [hk])
  have hheads : (current t.world.trace).heads ≠ [] := by
    obtain ⟨extra, f, he, -⟩ :=
      (World.write_write_delivers w₀ m head s.itsResponse.getContent a.headerWrite
        a.contentWrite).current
    rw [show current t.world.trace = _ from he]
    exact List.append_ne_nil_of_right_ne_nil _ (List.cons_ne_nil _ _)
  obtain ⟨hst, ho, hb, -⟩ := Threads.steady_keep books (sendSimpleReply srv a m s)
  have hkeep := Rests.of_steady hst (fun o h => (Threads.inside_book h).1) ho hb
  refine ⟨(goes_keep books (sendSimpleReply srv a m s)).finished.mpr ?_, Rests.trans ?_ hkeep⟩
  · rw [heq]
    refine Or.inr ?_
    show (!(current t.world.trace).heads.isEmpty || closedByReply t.world.trace) = true
    simp [hheads]
  · rw [heq]
    exact (rests_writes a m head s).trans (rests_closeSocket t)

/-- **A connection that is abandoned keeps its slot**: it is over and nothing is
outstanding, but the wait of the timer owns it. -/
theorem slot_held {s s' : AsyncConnection} {e : Event} (h : Reachable srv s)
    (habandons : Abandons srv s e) (hstep : step srv s e = some s') :
    s'.Finished ∧ s'.world.outstanding = [] ∧ (∃ w ∈ s'.world.waits, w.status = .pending) ∧
      0 < s'.owners := by
  have hinv := inv_reachable srv h
  obtain ⟨x, hx, rfl⟩ := exists_outcome srv hstep
  have harmed : ∀ {t : AsyncConnection}, ¬ Disarmed t →
      ∃ w ∈ t.world.waits, w.status = .pending := by
    intro t ht
    simpa [Disarmed] using ht
  -- a reply that closes the socket leaves the wait pending
  have hreply : ∀ {m t books}, x = .reply m t books → Closes srv e.answers m t →
      t.world.outstanding = [] → ¬ Disarmed t →
      (x.run srv e.answers).Finished ∧ (x.run srv e.answers).world.outstanding = [] ∧
        ∃ w ∈ (x.run srv e.answers).world.waits, w.status = .pending := by
    rintro m t books rfl hc ho hd
    obtain ⟨hf, hrest⟩ := finished_of_closes books hc
    refine ⟨hf, hrest.outstanding.trans ho, ?_⟩
    rw [hrest.waits]
    exact harmed hd
  have hall : (x.run srv e.answers).Finished ∧ (x.run srv e.answers).world.outstanding = [] ∧
      ∃ w ∈ (x.run srv e.answers).world.waits, w.status = .pending := by
    cases e with
    | readFails i err a =>
      simp only [Tail.step] at hx
      split at hx
      · rename_i hi
        split at hx
        · rename_i herr
          obtain rfl := Option.some.inj hx
          obtain ⟨hrel, -, hph⟩ := hinv.released srv hi
          obtain ⟨-, -, -, ho⟩ := hinv.held_release hi
          have hr : Reading srv s.bare := hph
          by_cases hshut : s.world.shutdownRequested = true
          · have hx' : Tail.handleRead srv a err [] (s.release i) =
                Tail.sendStockReply srv a srv.spine.shutdown (s.release i) := if_pos hshut
            refine hreply hx' (closes_of_keepAlive (stockResponse_status srv a _ _) ?_) ho habandons
            show (s.itsKeepAlive && _ && _) = false
            rw [show s.itsKeepAlive = false from hr.keepAlive]
            rfl
          · rw [handleRead_fails srv a hshut herr (s := s.release i)]
            exact ⟨Or.inl List.mem_cons_self, ho, harmed habandons⟩
        · cases hx
      · cases hx
    | runRead i a =>
      obtain ⟨y, hy, hcloses⟩ := habandons
      obtain rfl := Option.some.inj (hy.symm.trans hx)
      simp only [Tail.step] at hx
      split at hx
      · rename_i bytes hi
        obtain ⟨-, -, -, ho⟩ := hinv.held_release hi
        have heq := Option.some.inj hx
        cases y with
        | reply m t books =>
          exact hreply rfl hcloses.1 ((outstanding_handleRead heq).trans ho) hcloses.2
        | stop t => exact absurd hcloses id
        | finish t => exact absurd hcloses id
      · cases hx
    | _ => exact absurd habandons id
  obtain ⟨hf, ho, w, hw, hp⟩ := hall
  refine ⟨hf, ho, ⟨w, hw, hp⟩, ?_⟩
  have hpos : 0 < (x.run srv e.answers).world.waits.length := List.length_pos_of_mem hw
  unfold owners
  omega

/-- The client closes its connection without a request. -/
theorem slot_held_eof :
    ∃ s, step MinimalSpine.server (start MinimalSpine.server)
        (.readFails 0 .eof MinimalSpine.answers) = some s ∧ s.Finished ∧ 0 < s.owners := by
  obtain ⟨s, hs, -⟩ := MinimalSpine.reached [.readFails 0 .eof MinimalSpine.answers]
    (fun _ => true) (by decide +kernel)
  obtain ⟨t, ht, hrest⟩ := Transition.run_cons.mp hs
  obtain rfl := Option.some.inj hrest
  obtain ⟨hf, -, -, ho⟩ := @slot_held MinimalSpine.server _ _ _ ⟨[], rfl⟩ (by decide) ht
  exact ⟨t, ht, hf, ho⟩

end AsyncConnection

end SmartMet
