/-
# Connections that go on alike

A connection that has served requests has used up stamps of its timer, has waits of
earlier armings, a final status and a trace.  No function looks at the final status or
the trace, only the last stamp and its wait tell anything, and the idle flag is read by
the timer and by its swap alone.  Two connections that agree in all else do the same.

* `Alike` : the two connections agree;
* `alike_tail` : so do the two ends of a handler that is called on both;
* `alike_run`, `alike_step` : and what the last call leaves.
-/
import SmartMetServer.Rearming

namespace SmartMet

/-! ## The traces -/

/-- The event is an arming of the timer. -/
def Obs.isArming : Obs → Bool
  | .armed _ _ => true
  | _ => false

/-- The events, the armings of the timer apart. -/
def untimed (t : List Obs) : List Obs := t.filter fun o => !o.isArming

/-- The two traces have the same events behind `h` and `k`. -/
def Follow (h k t u : List Obs) : Prop := ∃ new, untimed t = new ++ h ∧ untimed u = new ++ k

section Follow

variable {h k t u : List Obs}

/-- The two traces change places. -/
theorem Follow.symm (hf : Follow h k t u) : Follow k h u t := by
  obtain ⟨new, h1, h2⟩ := hf
  exact ⟨new, h2, h1⟩

/-- The same event on both sides. -/
theorem Follow.cons (hf : Follow h k t u) (o : Obs) : Follow h k (o :: t) (o :: u) := by
  obtain ⟨new, h1, h2⟩ := hf
  unfold Follow untimed
  by_cases ho : o.isArming = true
  · refine ⟨new, ?_, ?_⟩
    · rw [List.filter_cons_of_neg (by simp [ho])]
      exact h1
    · rw [List.filter_cons_of_neg (by simp [ho])]
      exact h2
  · refine ⟨o :: new, ?_, ?_⟩
    · rw [List.filter_cons_of_pos (by simp [ho])]
      exact congrArg (o :: ·) h1
    · rw [List.filter_cons_of_pos (by simp [ho])]
      exact congrArg (o :: ·) h2

/-- An arming on one side. -/
theorem Follow.armed (hf : Follow h k t u) (g n : ℕ) : Follow h k (.armed g n :: t) u := hf

/-- The same events on both sides. -/
theorem Follow.append (hf : Follow h k t u) (new : List Obs) :
    Follow h k (new ++ t) (new ++ u) := by
  induction new with
  | nil => exact hf
  | cons o new ih => exact ih.cons o

end Follow

/-! ## The connections -/

/-- The events of the timer. -/
def Event.isTimer : Event → Bool
  | .timerExpires => true
  | .runTimer _ _ => true
  | _ => false

/-- What may differ between connections that go on alike. -/
structure History where
  generation : ℕ
  finalStatus : ErrorCode
  counted : Bool
  idle : Bool
  waits : List TimerWait
  trace : List Obs

/-- Two values of an `if` are related when those of its branches are. -/
theorem rel_ite {α β : Type} {R : α → β → Prop} {c : Prop} [Decidable c] {a b : α} {a' b' : β}
    (ht : c → R a a') (hf : ¬ c → R b b') : R (if c then a else b) (if c then a' else b') := by
  by_cases hc : c
  · rw [if_pos hc, if_pos hc]
    exact ht hc
  · rw [if_neg hc, if_neg hc]
    exact hf hc

namespace AsyncConnection

/-- The connection with another history. -/
def recast (p : History) (s : AsyncConnection) : AsyncConnection :=
  { s with
    itsTimerGeneration := p.generation
    itsFinalStatus := p.finalStatus
    itsCounted := p.counted
    itsIdle := p.idle
    world := { s.world with waits := p.waits, trace := p.trace } }

/-- The timer can act: the last arming has its wait, and was not cancelled. -/
def Ticking (s : AsyncConnection) : Prop :=
  ∃ w ∈ s.world.waits, w.generation = s.itsTimerGeneration ∧ w.status ≠ .aborted

/-- The connections agree in all but their histories, and so far as the timer can act;
with `i`, both or none of them are idle. -/
def Alike (i : Bool) (h k : List Obs) (s t : AsyncConnection) : Prop :=
  ∃ p, t = s.recast p ∧ Follow h k s.world.trace p.trace ∧ (Ticking s ↔ Ticking t) ∧
    (i = true → p.idle = s.itsIdle)

/-- The handlers on the two connections end in the same call. -/
inductive EndAlike (i : Bool) (h k : List Obs) : Outcome → Outcome → Prop where
  | stop {s t : AsyncConnection} (hst : Alike i h k s t) : EndAlike i h k (.stop s) (.stop t)
  | reply {s t : AsyncConnection} (m : Message) (books : Books) (hst : Alike i h k s t) :
      EndAlike i h k (.reply m s books) (.reply m t books)
  | finish {s t : AsyncConnection} (hst : Alike i h k s t) : EndAlike i h k (.finish s) (.finish t)

variable {i : Bool} {h k : List Obs} {s t : AsyncConnection}

/-- Handlers that end alike leave the connections alike in front of the last call. -/
theorem EndAlike.state {x y : Outcome} (hxy : EndAlike i h k x y) :
    Alike i h k x.state y.state := by
  cases hxy with
  | stop hst => exact hst
  | reply m books hst => exact hst
  | finish hst => exact hst

/-- The two connections change places. -/
theorem Alike.symm (hst : Alike i h k s t) : Alike i k h t s := by
  obtain ⟨p, rfl, htr, hw, hi⟩ := hst
  exact ⟨⟨s.itsTimerGeneration, s.itsFinalStatus, s.itsCounted, s.itsIdle, s.world.waits,
    s.world.trace⟩, rfl, htr.symm, hw.symm, fun h => (hi h).symm⟩

/-! ### What agrees -/

/-- They serve the same request, -/
theorem Alike.request (hst : Alike i h k s t) : t.itsRequest = s.itsRequest := by
  obtain ⟨p, rfl, -, -, -⟩ := hst
  rfl

/-- hold the same response, -/
theorem Alike.response (hst : Alike i h k s t) : t.itsResponse = s.itsResponse := by
  obtain ⟨p, rfl, -, -, -⟩ := hst
  rfl

/-- and the same unread bytes; -/
theorem Alike.buffer (hst : Alike i h k s t) : t.itsBuffer = s.itsBuffer := by
  obtain ⟨p, rfl, -, -, -⟩ := hst
  rfl

/-- their sockets stand alike, -/
theorem Alike.socket (hst : Alike i h k s t) : t.world.socket = s.world.socket := by
  obtain ⟨p, rfl, -, -, -⟩ := hst
  rfl

/-- the same activities are outstanding, -/
theorem Alike.outstanding (hst : Alike i h k s t) :
    t.world.outstanding = s.world.outstanding := by
  obtain ⟨p, rfl, -, -, -⟩ := hst
  rfl

/-- and they persist, or both end. -/
theorem Alike.keepAlive (hst : Alike i h k s t) : t.itsKeepAlive = s.itsKeepAlive := by
  obtain ⟨p, rfl, -, -, -⟩ := hst
  rfl

/-- They reply in the same version. -/
theorem Alike.version (hst : Alike i h k s t) : t.itsResponseVersion = s.itsResponseVersion := by
  obtain ⟨p, rfl, -, -, -⟩ := hst
  rfl

/-- The events since. -/
theorem Alike.follow (hst : Alike i h k s t) : Follow h k s.world.trace t.world.trace := by
  obtain ⟨p, rfl, htr, -, -⟩ := hst
  exact htr

variable (srv : Server) (a : Answers)

/-! ## The world -/

/-- The same event is recorded, -/
theorem Alike.emit (hst : Alike i h k s t) (o : Obs) : Alike i h k (s.emit o) (t.emit o) := by
  obtain ⟨p, rfl, htr, hw, hi⟩ := hst
  exact ⟨{ p with trace := o :: p.trace }, rfl, htr.cons o, hw, hi⟩

/-- the same activity is started, -/
theorem Alike.await (hst : Alike i h k s t) (y : Activity) :
    Alike i h k (s.await y) (t.await y) := by
  obtain ⟨p, rfl, htr, hw, hi⟩ := hst
  exact ⟨p, rfl, htr, hw, hi⟩

/-- or an activity completes. -/
theorem Alike.release (hst : Alike i h k s t) (j : ℕ) :
    Alike i h k (s.release j) (t.release j) := by
  obtain ⟨p, rfl, htr, hw, hi⟩ := hst
  exact ⟨p, rfl, htr, hw, hi⟩

/-- Both sockets are closed. -/
theorem Alike.closeSocket (hst : Alike i h k s t) :
    Alike i h k (closeSocket s) (closeSocket t) := by
  obtain ⟨p, rfl, htr, hw, hi⟩ := hst
  exact ⟨{ p with trace := .closed :: p.trace }, rfl, htr.cons _, hw, hi⟩

/-- A write fails on both. -/
theorem Alike.failWrite (hst : Alike i h k s t) : Alike i h k s.failWrite t.failWrite := by
  obtain ⟨p, rfl, htr, hw, hi⟩ := hst
  exact ⟨{ p with trace := .writeError .handler :: p.trace }, rfl, htr.cons _, hw, hi⟩

/-- The same bytes are written, with the same outcome. -/
theorem Alike.write (hst : Alike i h k s t) (m : Message) (b : Bytes) (o : WriteOutcome) :
    Alike i h k (write m b o s) (write m b o t) := by
  obtain ⟨p, rfl, htr, hw, hi⟩ := hst
  unfold AsyncConnection.write World.write
  by_cases hb : b.isEmpty = true
  · rw [if_pos hb, if_pos hb]
    exact ⟨p, rfl, htr, hw, hi⟩
  rw [if_neg hb, if_neg hb]
  -- the socket is that of `s`
  rw [show (s.recast p).world.socket = s.world.socket from rfl]
  have herror : Alike i h k { s with world := s.world.emit (.writeError m) }
      { s.recast p with world := (s.recast p).world.emit (.writeError m) } :=
    ⟨{ p with trace := .writeError m :: p.trace }, rfl, htr.cons _, hw, hi⟩
  cases s.world.socket with
  | «open» =>
    cases o with
    | done => exact ⟨{ p with trace := .wrote m b :: p.trace }, rfl, htr.cons _, hw, hi⟩
    | failed n =>
      exact ⟨{ p with trace := .writeError m :: .wrote m (b.dropLast.take n) :: p.trace }, rfl,
        (htr.cons _).cons _, hw, hi⟩
  | broken => exact herror
  | closed => exact herror

/-! ## The timer -/

/-- An armed timer can act. -/
theorem ticking_armTimer (n : ℕ) (s : AsyncConnection) : Ticking (armTimer n s) :=
  ⟨⟨s.itsTimerGeneration + 1, .pending⟩, List.mem_cons_self, rfl, WaitStatus.noConfusion⟩

/-- An arming makes the timers able to act, whatever they were before. -/
theorem Alike.armTimer (hst : Alike i h k s t) (n n' : ℕ) :
    Alike i h k (armTimer n s) (armTimer n' t) := by
  obtain ⟨p, rfl, htr, hw, hi⟩ := hst
  exact ⟨{ p with
      generation := p.generation + 1
      waits := ⟨p.generation + 1, .pending⟩ :: p.waits.map TimerWait.cancel
      trace := .armed (p.generation + 1) n' :: p.trace },
    rfl, htr, iff_of_true (ticking_armTimer n s) (ticking_armTimer n' (s.recast p)), hi⟩

/-- A timer that was cancelled cannot act. -/
theorem not_ticking_cancelTimer (hs : Stamped s) : ¬ Ticking (cancelTimer s) := by
  rintro ⟨w, hw, hgen, -⟩
  obtain ⟨v, hv, rfl⟩ := List.mem_map.mp hw
  have hle : v.generation ≤ s.itsTimerGeneration := hs v hv
  have heq : v.generation = s.itsTimerGeneration + 1 := hgen
  omega

/-- A cancellation makes both unable to. -/
theorem Alike.cancelTimer (hst : Alike i h k s t) (hs : Stamped s) (ht : Stamped t) :
    Alike i h k (cancelTimer s) (cancelTimer t) := by
  obtain ⟨p, rfl, htr, -, hi⟩ := hst
  exact ⟨{ p with generation := p.generation + 1, waits := p.waits.map TimerWait.cancel }, rfl,
    htr, iff_of_false (not_ticking_cancelTimer hs) (not_ticking_cancelTimer ht), hi⟩

/-! ## The last call -/

/-- The end of a response: the next request is looked for on both, or on none. -/
theorem Alike.finishResponse (hst : Alike i h k s t) :
    Alike i h k (finishResponse srv s) (finishResponse srv t) := by
  have hst' := hst
  obtain ⟨p, rfl, htr, hw, hi⟩ := hst'
  unfold AsyncConnection.finishResponse
  refine rel_ite (fun _ => ?_) (fun _ => hst)
  have hreset : Alike i h k (resetRequestState s) (resetRequestState (s.recast p)) :=
    ⟨{ p with idle := s.itsBuffer.isEmpty, trace := .rearmed :: p.trace }, rfl, htr.cons _, hw,
      fun _ => rfl⟩
  have harm := hreset.armTimer (if s.itsBuffer.isEmpty then srv.itsKeepAliveTimeout
    else srv.itsTimeout) (if s.itsBuffer.isEmpty then srv.itsKeepAliveTimeout else srv.itsTimeout)
  exact rel_ite (fun _ => harm.await .read) (fun _ => harm.await (.handleRead []))

/-- The server's fields are computed from what agrees. -/
theorem Alike.setServerHeaders (hst : Alike i h k s t) :
    Alike i h k (setServerHeaders srv a s) (setServerHeaders srv a t) := by
  obtain ⟨p, rfl, htr, hw, hi⟩ := hst
  exact ⟨p, rfl, htr, hw, hi⟩

/-- So is the page of a status. -/
theorem Alike.stockResponse (hst : Alike i h k s t) (st : Status) :
    Alike i h k (stockResponse srv a st s) (stockResponse srv a st t) := by
  obtain ⟨p, rfl, htr, hw, hi⟩ := hst
  exact ⟨p, rfl, htr, hw, hi⟩

/-- The final status is set, and the persistence is settled. -/
theorem Alike.settle (hst : Alike i h k s t) (f f' : ErrorCode) (g : Bool → Bool) :
    Alike i h k { s with itsFinalStatus := f, itsKeepAlive := g s.itsKeepAlive }
      { t with itsFinalStatus := f', itsKeepAlive := g t.itsKeepAlive } := by
  obtain ⟨p, rfl, htr, hw, hi⟩ := hst
  exact ⟨{ p with finalStatus := f' }, rfl, htr, hw, hi⟩

/-- The content of the server's own reply goes out alike, -/
theorem Alike.writeContent (hst : Alike i h k s t) (m : Message) :
    Alike i h k (writeContent a m s) (writeContent a m t) := by
  have hwrite := hst.write m s.itsResponse.getContent a.contentWrite
  obtain ⟨p, rfl, -, -, -⟩ := hst
  exact hwrite.settle _ _ (· && _)

/-- and the header section in front of it. -/
theorem Alike.writeHead (hst : Alike i h k s t) (m : Message) (head : Bytes) :
    Alike i h k (writeHead a m head s) (writeHead a m head t) := by
  unfold AsyncConnection.writeHead
  rw [hst.response]
  exact (hst.emit _).write m head a.headerWrite

/-- The server's own reply. -/
theorem Alike.sendSimpleReply (hst : Alike i h k s t) (m : Message) :
    Alike i h k (sendSimpleReply srv a m s) (sendSimpleReply srv a m t) := by
  unfold AsyncConnection.sendSimpleReply
  rw [hst.response]
  cases headersToString srv.spine s.itsResponse with
  | none => exact hst
  | some head =>
    have hsent := (hst.writeHead a m head).writeContent a m
    dsimp only
    rw [hsent.keepAlive]
    exact rel_ite (fun _ => hsent.finishResponse srv) (fun _ => hsent.closeSocket)

/-- The backend is notified on both, or on none. -/
theorem Alike.notifyBackendFinished (hst : Alike i h k s t) (st : StreamerStatus) :
    Alike i h k (notifyBackendFinished st s) (notifyBackendFinished st t) := by
  have hst' := hst
  obtain ⟨p, rfl, htr, hw, hi⟩ := hst'
  unfold AsyncConnection.notifyBackendFinished
  refine rel_ite (fun _ => hst) (fun _ => ?_)
  exact ⟨{ p with trace := .backendFinished st :: p.trace }, rfl, htr.cons _, hw, hi⟩

/-- The stream is logged on both, or on none. -/
theorem Alike.finalizeStreamLogging (hst : Alike i h k s t) :
    Alike i h k (finalizeStreamLogging s) (finalizeStreamLogging t) := by
  have hst' := hst
  obtain ⟨p, rfl, htr, hw, hi⟩ := hst'
  unfold AsyncConnection.finalizeStreamLogging
  refine rel_ite (fun _ => ?_) (fun _ => hst)
  exact ⟨{ p with trace := .streamLogged s.itsTotalStreamedBytes :: p.trace }, rfl, htr.cons _,
    hw, hi⟩

/-- The books are kept alike. -/
theorem Alike.keep (hst : Alike i h k s t) (books : Books) :
    Alike i h k (books.keep s) (books.keep t) := by
  cases books with
  | none => exact hst
  | log => exact hst.finalizeStreamLogging
  | logAndNotify st =>
    have hlog := hst.finalizeStreamLogging
    show Alike i h k
      (AsyncConnection.notifyBackendFinished
        (st (AsyncConnection.finalizeStreamLogging s).itsResponse) _)
      (AsyncConnection.notifyBackendFinished
        (st (AsyncConnection.finalizeStreamLogging t).itsResponse) _)
    rw [hlog.response]
    exact hlog.notifyBackendFinished _

/-- **The last call** leaves the connections alike. -/
theorem alike_run {x y : Outcome} (hxy : EndAlike i h k x y) :
    Alike i h k (x.run srv a) (y.run srv a) := by
  cases hxy with
  | stop hst => exact hst
  | reply m books hst => exact (hst.sendSimpleReply srv a m).keep books
  | finish hst => exact hst.finishResponse srv

/-! ## The handlers, up to the last call -/

/-- Neither persists any longer. -/
theorem Alike.endKeepAlive (hst : Alike i h k s t) :
    Alike i h k { s with itsKeepAlive := false } { t with itsKeepAlive := false } :=
  hst.settle _ _ fun _ => false

/-- The page of a status as the last call. -/
theorem Alike.sendStockReply (hst : Alike i h k s t) (st : Status) :
    EndAlike i h k (Tail.sendStockReply srv a st s) (Tail.sendStockReply srv a st t) :=
  .reply _ .none (hst.stockResponse srv a st)

/-- The request goes into the same pool, -/
theorem Alike.scheduleRequest (hst : Alike i h k s t) (view : HandlerView) :
    EndAlike i h k (Tail.scheduleRequest srv a view s) (Tail.scheduleRequest srv a view t) := by
  obtain ⟨p, rfl, htr, hw, hi⟩ := hst
  unfold Tail.scheduleRequest
  have hfast : Alike i h k { s with itsQueryIsFast := true, itsAdminQuery := false }
      { s.recast p with itsQueryIsFast := true, itsAdminQuery := false } := ⟨p, rfl, htr, hw, hi⟩
  have hquery : Alike i h k { s with itsQueryIsFast := srv.slowPoolSize == 0 || view.queryIsFast }
      { s.recast p with itsQueryIsFast := srv.slowPoolSize == 0 || view.queryIsFast } :=
    ⟨p, rfl, htr, hw, hi⟩
  refine rel_ite (fun _ => ?_) (fun _ => ?_)
  · exact rel_ite (fun _ => .stop (hfast.await _)) (fun _ => hfast.sendStockReply srv a _)
  · exact rel_ite (fun _ => .stop (hquery.await _)) (fun _ => hquery.sendStockReply srv a _)

/-- to the same handler. -/
theorem Alike.routeRequest (hst : Alike i h k s t) :
    EndAlike i h k (Tail.routeRequest srv a s) (Tail.routeRequest srv a t) := by
  obtain ⟨p, rfl, htr, hw, hi⟩ := id hst
  have hoptions : Alike i h k { s with itsResponse := srv.spine.stockOptionsResponse }
      { s.recast p with itsResponse := srv.spine.stockOptionsResponse } := ⟨p, rfl, htr, hw, hi⟩
  unfold Tail.routeRequest
  refine rel_ite (fun _ => .reply _ _ (hoptions.setServerHeaders srv a)) (fun _ => ?_)
  rw [hst.request]
  cases srv.spine.getHandlerView s.itsRequest with
  | none => exact hst.sendStockReply srv a _
  | some view =>
    have hadmin (b : Bool) :
        Alike i h k { s with itsAdminQuery := b } { s.recast p with itsAdminQuery := b } :=
      ⟨p, rfl, htr, hw, hi⟩
    exact rel_ite (fun _ => (hadmin _).sendStockReply srv a _)
      (fun _ => (hadmin _).scheduleRequest srv a _)

/-- The client has the same address, or none on both. -/
theorem Alike.resolveClientIP (hst : Alike i h k s t) :
    Option.Rel (Alike i h k) (resolveClientIP srv a s) (resolveClientIP srv a t) := by
  obtain ⟨p, rfl, htr, hw, hi⟩ := hst
  unfold AsyncConnection.resolveClientIP
  refine rel_ite (fun _ => .none) (fun _ => ?_)
  cases a.peer with
  | none => exact .none
  | some peerIP => exact .some ⟨p, rfl, htr, hw, hi⟩

/-- Both count the request, and settle on the same version and persistence. -/
theorem Alike.negotiate (hst : Alike i h k s t) :
    Alike i h k (negotiate srv s) (negotiate srv t) := by
  obtain ⟨p, rfl, htr, hw, hi⟩ := hst
  exact ⟨p, rfl, htr, hw, hi⟩

/-- The request is made fit for a handler. -/
theorem Alike.prepareRequest (hst : Alike i h k s t) :
    Alike i h k (prepareRequest s) (prepareRequest t) := by
  obtain ⟨p, rfl, htr, hw, hi⟩ := hst
  exact ⟨p, rfl, htr, hw, hi⟩

/-- A complete request is taken up alike. -/
theorem Alike.handleParsedRequest (hst : Alike i h k s t) :
    EndAlike i h k (Tail.handleParsedRequest srv a s) (Tail.handleParsedRequest srv a t) := by
  have hparsed := hst.emit (.parsed s.itsRequest)
  have hres := hparsed.resolveClientIP srv a
  unfold Tail.handleParsedRequest
  rw [hst.request]
  dsimp only
  generalize AsyncConnection.resolveClientIP srv a (s.emit (.parsed s.itsRequest)) = u at hres ⊢
  generalize AsyncConnection.resolveClientIP srv a (t.emit (.parsed s.itsRequest)) = v at hres ⊢
  cases hres with
  | none => exact .stop (hparsed.emit .peerUnknown)
  | some huv =>
    obtain ⟨p, rfl, -, -, -⟩ := id huv
    have hneg := huv.negotiate srv
    exact rel_ite (fun _ => hneg.endKeepAlive.sendStockReply srv a _)
      (fun _ => hneg.prepareRequest.routeRequest srv a)

/-- The expectation is answered alike, and reading goes on or not. -/
theorem Alike.handleExpectContinue (hst : Alike i h k s t) :
    EndAlike i h k (Tail.handleExpectContinue srv a s).1 (Tail.handleExpectContinue srv a t).1 ∧
      (Tail.handleExpectContinue srv a t).2 = (Tail.handleExpectContinue srv a s).2 := by
  have hexpect : Alike i h k { s with itsExpectHandled := true }
      { t with itsExpectHandled := true } := by
    obtain ⟨p, rfl, htr, hw, hi⟩ := hst
    exact ⟨p, rfl, htr, hw, hi⟩
  have hwrite := hexpect.write .interim "HTTP/1.1 100 Continue\r\n\r\n".toList a.interimWrite
  have herror := hexpect.endKeepAlive.sendStockReply srv a .expectationFailed
  obtain ⟨p, rfl, htr, hw, hi⟩ := id hst
  let R : Outcome × Bool → Outcome × Bool → Prop := fun x y => EndAlike i h k x.1 y.1 ∧ y.2 = x.2
  show R (Tail.handleExpectContinue srv a s) (Tail.handleExpectContinue srv a (s.recast p))
  unfold Tail.handleExpectContinue
  refine rel_ite (fun _ => ⟨.stop hst, rfl⟩) (fun _ => ?_)
  refine rel_ite (fun _ => ⟨.stop hst, rfl⟩) (fun _ => ?_)
  refine rel_ite (fun _ => ⟨.stop hexpect, rfl⟩) (fun _ => ?_)
  refine rel_ite (fun _ => ⟨.stop hexpect, rfl⟩) (fun _ => ?_)
  refine rel_ite (fun _ => ?_) (fun _ => ⟨herror, rfl⟩)
  exact rel_ite (fun _ => ⟨.stop (hwrite.settle _ _ fun _ => false), rfl⟩)
    (fun _ => ⟨.stop hwrite, rfl⟩)

/-- An incomplete request is dealt with alike. -/
theorem Alike.handleIncompleteRequest (hst : Alike i h k s t) :
    EndAlike i h k (Tail.handleIncompleteRequest srv a s)
      (Tail.handleIncompleteRequest srv a t) := by
  obtain ⟨hexpect, hread⟩ := hst.handleExpectContinue srv a
  obtain ⟨p, rfl, -, -, -⟩ := id hst
  unfold Tail.handleIncompleteRequest
  refine rel_ite (fun _ => hst.endKeepAlive.sendStockReply srv a _) (fun _ => ?_)
  dsimp only
  rw [hread]
  exact rel_ite (fun _ => .stop (hexpect.state.await .read)) (fun _ => hexpect)

/-- The buffers are the same, and so is what is parsed from them. -/
theorem Alike.parseBuffer (hst : Alike i h k s t) :
    EndAlike i h k (Tail.parseBuffer srv a s) (Tail.parseBuffer srv a t) := by
  obtain ⟨p, rfl, htr, hw, hi⟩ := id hst
  unfold Tail.parseBuffer
  rw [hst.buffer]
  cases srv.spine.parseOneRequest s.itsBuffer with
  | complete request consumed =>
    refine Alike.handleParsedRequest srv a ?_
    exact ⟨p, rfl, htr, hw, hi⟩
  | failed => exact hst.sendStockReply srv a _
  | incomplete => exact hst.handleIncompleteRequest srv a

/-- The same bytes are read. -/
theorem Alike.handleReadBytes (hst : Alike i h k s t) (bytes : Bytes) :
    EndAlike i h k (Tail.handleReadBytes srv a bytes s) (Tail.handleReadBytes srv a bytes t) := by
  obtain ⟨p, rfl, htr, hw, hi⟩ := hst
  unfold Tail.handleReadBytes
  refine rel_ite (fun _ => ?_) (fun _ => ?_)
  · refine Alike.sendStockReply srv a ?_ _
    exact ⟨p, rfl, htr, hw, hi⟩
  · refine Alike.parseBuffer srv a ?_
    exact ⟨p, rfl, htr, hw, hi⟩

/-- The pending header section is gone. -/
theorem Alike.clearPending (hst : Alike i h k s t) (f f' : ErrorCode) :
    Alike i h k { s with itsPendingHeaders := [], itsFinalStatus := f }
      { t with itsPendingHeaders := [], itsFinalStatus := f' } := by
  obtain ⟨p, rfl, htr, hw, hi⟩ := hst
  exact ⟨{ p with finalStatus := f' }, rfl, htr, hw, hi⟩

/-- It is written on both, -/
theorem Alike.flushPendingHeaders (hst : Alike i h k s t) :
    Alike i h k (flushPendingHeaders a s) (flushPendingHeaders a t) := by
  have hwrite := hst.write .handler s.itsPendingHeaders a.flushWrite
  obtain ⟨p, rfl, -, -, -⟩ := id hst
  unfold AsyncConnection.flushPendingHeaders
  exact rel_ite (fun _ => hst) (fun _ => hwrite.clearPending _ _)

/-- and the write fails on both, or on none. -/
theorem Alike.flushFails (hst : Alike i h k s t) : flushFails a t = flushFails a s := by
  obtain ⟨p, rfl, -, -, -⟩ := hst
  rfl

/-- The getter of the next chunk goes into the same pool. -/
theorem Alike.scheduleGetter (hst : Alike i h k s t) (task : Task) :
    EndAlike i h k (Tail.scheduleGetter srv a task s) (Tail.scheduleGetter srv a task t) := by
  obtain ⟨p, rfl, -, -, -⟩ := id hst
  unfold Tail.scheduleGetter
  exact rel_ite (fun _ => .stop (hst.await _))
    (fun _ => (hst.emit .refused).endKeepAlive.sendStockReply srv a _)

/-- The getter is given the same chunk, -/
theorem Alike.takeChunk (hst : Alike i h k s t) (content : Bytes) :
    Alike i h k (takeChunk content s) (takeChunk content t) := by
  obtain ⟨p, rfl, htr, hw, hi⟩ := hst
  exact ⟨{ p with trace := .chunk content s.itsResponse.hasStreamContent :: p.trace }, rfl,
    htr.cons _, hw, hi⟩

/-- and sends it alike. -/
theorem Alike.sendChunk (hst : Alike i h k s t) (handler : WriteHandler) (wire : Bytes) :
    Alike i h k (sendChunk handler wire s) (sendChunk handler wire t) := by
  obtain ⟨p, rfl, htr, hw, hi⟩ := hst
  exact ⟨p, rfl, htr, hw, hi⟩

/-- The stream ends alike. -/
theorem Alike.finishStream (hst : Alike i h k s t) (st : StreamerStatus) :
    EndAlike i h k (Tail.finishStream st s) (Tail.finishStream st t) := by
  have hbooks := hst.finalizeStreamLogging.notifyBackendFinished st
  unfold Tail.finishStream
  generalize AsyncConnection.notifyBackendFinished st
    (AsyncConnection.finalizeStreamLogging s) = u at hbooks ⊢
  generalize AsyncConnection.notifyBackendFinished st
    (AsyncConnection.finalizeStreamLogging t) = v at hbooks ⊢
  obtain ⟨p, rfl, htr, hw, hi⟩ := hbooks
  exact .finish ⟨p, rfl, htr, hw, hi⟩

/-- The getter of a stream of announced length. -/
theorem Alike.getNextChunk (hst : Alike i h k s t) :
    EndAlike i h k (Tail.getNextChunk srv a s) (Tail.getNextChunk srv a t) := by
  unfold Tail.getNextChunk
  let last (st : StreamerStatus) (u : AsyncConnection) : Outcome :=
    if AsyncConnection.flushFails a u then .stop (AsyncConnection.flushPendingHeaders a u)
    else Tail.finishStream st (AsyncConnection.flushPendingHeaders a u)
  rw [hst.response]
  have hend : ∀ st, EndAlike i h k
      (last st (s.emit (.streamEnded st s.itsResponse.hasStreamContent)))
      (last st (t.emit (.streamEnded st s.itsResponse.hasStreamContent))) := by
    intro st
    have hended := hst.emit (.streamEnded st s.itsResponse.hasStreamContent)
    dsimp only [last]
    rw [hended.flushFails]
    exact rel_ite (fun _ => .stop (hended.flushPendingHeaders a))
      (fun _ => (hended.flushPendingHeaders a).finishStream st)
  cases getStreamingStatus a s.itsResponse with
  | ok =>
    cases nextContent a s.itsResponse with
    | none => exact .stop hst
    | some content =>
      have htaken := hst.takeChunk content
      refine rel_ite (fun _ => .stop (htaken.sendChunk _ _)) (fun _ => ?_)
      dsimp only
      rw [htaken.flushFails]
      exact rel_ite (fun _ => .stop (htaken.flushPendingHeaders a))
        (fun _ => (htaken.flushPendingHeaders a).scheduleGetter srv a _)
  | exitOk => exact hend .exitOk
  | exitError => exact hend .exitError

/-- A chunked stream is given up on both. -/
theorem Alike.abandonChunked (hst : Alike i h k s t) :
    Alike i h k (abandonChunked a s) (abandonChunked a t) :=
  (hst.flushPendingHeaders a).finalizeStreamLogging.endKeepAlive.closeSocket

/-- The getter of a chunked stream. -/
theorem Alike.getNextChunkedChunk (hst : Alike i h k s t) :
    EndAlike i h k (Tail.getNextChunkedChunk srv a s) (Tail.getNextChunkedChunk srv a t) := by
  unfold Tail.getNextChunkedChunk
  rw [hst.response]
  have hended : ∀ st, Alike i h k
      (AsyncConnection.notifyBackendFinished st
        (s.emit (.streamEnded st s.itsResponse.hasStreamContent)))
      (AsyncConnection.notifyBackendFinished st
        (t.emit (.streamEnded st s.itsResponse.hasStreamContent))) :=
    fun st => (hst.emit (.streamEnded st s.itsResponse.hasStreamContent)).notifyBackendFinished st
  cases getStreamingStatus a s.itsResponse with
  | ok =>
    cases nextContent a s.itsResponse with
    | none => exact .stop hst
    | some content =>
      have htaken := hst.takeChunk content
      refine rel_ite (fun _ => .stop (htaken.sendChunk _ _)) (fun _ => ?_)
      dsimp only
      rw [htaken.flushFails]
      exact rel_ite (fun _ => .stop (htaken.flushPendingHeaders a))
        (fun _ => (htaken.flushPendingHeaders a).scheduleGetter srv a _)
  | exitOk => exact .stop ((hended .exitOk).sendChunk _ _)
  | exitError => exact .stop ((hended .exitError).abandonChunked a)

/-- A completed write, when what follows a reply that is complete goes on alike. -/
theorem Alike.continueWrite (hst : Alike i h k s t) (handler : WriteHandler) (e : ErrorCode) (n : ℕ)
    {next : AsyncConnection → Outcome} (failed : Books)
    (hnext : ∀ {u v}, Alike i h k u v → EndAlike i h k (next u) (next v)) :
    EndAlike i h k (Tail.continueWrite srv a handler e n next failed s)
      (Tail.continueWrite srv a handler e n next failed t) := by
  obtain ⟨p, rfl, htr, hw, hi⟩ := hst
  unfold Tail.continueWrite
  refine rel_ite (fun _ => ?_) (fun _ => ?_)
  · have hsent : Alike i h k { s with itsFinalStatus := e, itsSentBytes := s.itsSentBytes + n }
        { s.recast p with itsFinalStatus := e, itsSentBytes := s.itsSentBytes + n } :=
      ⟨{ p with finalStatus := e }, rfl, htr, hw, hi⟩
    exact rel_ite (fun _ => .stop (hsent.await _)) (fun _ => hnext hsent)
  · refine .reply _ _ (Alike.stockResponse srv a ?_ _)
    exact ⟨{ p with finalStatus := e }, rfl, htr, hw, hi⟩

/-- The completion handlers of the writes. -/
theorem Alike.runWriteHandler (hst : Alike i h k s t) (handler : WriteHandler) (e : ErrorCode)
    (n : ℕ) :
    EndAlike i h k (Tail.runWriteHandler srv a handler e n s)
      (Tail.runWriteHandler srv a handler e n t) := by
  cases handler with
  | writeRegularReply =>
    exact hst.continueWrite srv a _ e n _ fun huv => .finish (huv.notifyBackendFinished .exitOk)
  | writeStreamReply =>
    exact hst.continueWrite srv a _ e n _ fun huv => huv.scheduleGetter srv a .getNextChunk
  | writeChunkedReply =>
    exact hst.continueWrite srv a _ e n _ fun huv => huv.scheduleGetter srv a .getNextChunkedChunk
  | finalizeChunkedReply =>
    exact hst.continueWrite srv a _ e n _ fun huv => .finish huv.finalizeStreamLogging

/-- A buffered reply is started alike, -/
theorem Alike.startRegularReply (hst : Alike i h k s t) :
    Alike i h k (startRegularReply srv s) (startRegularReply srv t) := by
  obtain ⟨p, rfl, htr, hw, hi⟩ := hst
  exact ⟨{ p with trace := _ :: p.trace }, rfl, htr.cons _, hw, hi⟩

/-- a header section is prepared alike, -/
theorem Alike.preparePendingHeaders (hst : Alike i h k s t) :
    Alike i h k (preparePendingHeaders srv s) (preparePendingHeaders srv t) := by
  obtain ⟨p, rfl, htr, hw, hi⟩ := hst
  exact ⟨{ p with trace := _ :: p.trace }, rfl, htr.cons _, hw, hi⟩

/-- and so starts a stream of announced length, -/
theorem Alike.startStreamReply (hst : Alike i h k s t) :
    EndAlike i h k (Tail.startStreamReply srv a s) (Tail.startStreamReply srv a t) := by
  refine Alike.getNextChunk srv a (Alike.preparePendingHeaders srv ?_)
  obtain ⟨p, rfl, htr, hw, hi⟩ := hst
  exact ⟨p, rfl, htr, hw, hi⟩

/-- a chunked one, -/
theorem Alike.startChunkedReply (hst : Alike i h k s t) :
    EndAlike i h k (Tail.startChunkedReply srv a s) (Tail.startChunkedReply srv a t) := by
  refine Alike.getNextChunkedChunk srv a (Alike.preparePendingHeaders srv ?_)
  obtain ⟨p, rfl, htr, hw, hi⟩ := hst
  exact ⟨p, rfl, htr, hw, hi⟩

/-- and the reply on each path. -/
theorem Alike.startReply (hst : Alike i h k s t) :
    EndAlike i h k (Tail.startReply srv a s) (Tail.startReply srv a t) := by
  have hheaders : ∀ path, Alike i h k
      (AsyncConnection.setServerHeaders srv a (s.emit (.started path)))
      (AsyncConnection.setServerHeaders srv a (t.emit (.started path))) :=
    fun path => (hst.emit (.started path)).setServerHeaders srv a
  obtain ⟨p, rfl, -, -, -⟩ := id hst
  have hregular : EndAlike i h k _ _ := .stop ((hheaders .regular).startRegularReply srv)
  unfold Tail.startReply
  refine rel_ite (fun _ => hregular) (fun _ => ?_)
  refine rel_ite (fun _ => ?_) (fun _ => hregular)
  refine rel_ite (fun _ => (hst.emit (.started .gateway)).endKeepAlive.getNextChunk srv a)
    (fun _ => ?_)
  exact rel_ite (fun _ => (hheaders .chunked).startChunkedReply srv a)
    (fun _ => (hheaders .stream).startStreamReply srv a)

/-- The handler is given the same request, and its response is sent alike. -/
theorem Alike.callHandler (hst : Alike i h k s t) :
    EndAlike i h k (Tail.callHandler srv a s) (Tail.callHandler srv a t) := by
  have hcalled := (hst.emit (.clientStarted s.itsRequest.clientIP)).emit (.dispatched s.itsRequest)
  unfold Tail.callHandler
  rw [hst.request]
  cases a.handler with
  | threw => exact .stop hcalled
  | returned success response disconnected =>
    have hresponse : Alike i h k
        { ((s.emit (.clientStarted s.itsRequest.clientIP)).emit
            (.dispatched s.itsRequest)).emit (.handled response) with
          itsResponse := response }
        { ((t.emit (.clientStarted s.itsRequest.clientIP)).emit
            (.dispatched s.itsRequest)).emit (.handled response) with
          itsResponse := response } := by
      obtain ⟨p, rfl, htr, hw, hi⟩ := hst
      exact ⟨{ p with trace := .handled response :: .dispatched s.itsRequest ::
        .clientStarted s.itsRequest.clientIP :: p.trace }, rfl,
        ((htr.cons _).cons _).cons _, hw, hi⟩
    refine rel_ite (fun _ => .stop hresponse) (fun _ => ?_)
    exact rel_ite (fun _ => hresponse.sendStockReply srv a _)
      (fun _ => hresponse.startReply srv a)

/-- The task that calls the handler. -/
theorem Alike.handleCompletedRead (hst : Alike i h k s t) :
    EndAlike i h k (Tail.handleCompletedRead srv a s) (Tail.handleCompletedRead srv a t) := by
  obtain ⟨p, rfl, -, -, -⟩ := id hst
  unfold Tail.handleCompletedRead
  refine rel_ite (fun _ => .stop hst) (fun _ => ?_)
  exact rel_ite (fun _ => .stop hst) (fun _ => hst.callHandler srv a)

/-- The tasks of the pools. -/
theorem Alike.runTask (hst : Alike i h k s t) (hs : Stamped s) (ht : Stamped t) (task : Task) :
    EndAlike i h k (Tail.runTask srv a task s) (Tail.runTask srv a task t) := by
  cases task with
  | handleCompletedRead view => exact (hst.cancelTimer hs ht).handleCompletedRead srv a
  | getNextChunk => exact hst.getNextChunk srv a
  | getNextChunkedChunk => exact hst.getNextChunkedChunk srv a

/-! ## The first bytes -/

/-- A timer that is swapped on one side only, where it can act on the other. -/
theorem Alike.armTimer_left (hst : Alike i h k s t) (ht : Ticking t) (n : ℕ) :
    Alike i h k (AsyncConnection.armTimer n s) t := by
  obtain ⟨p, rfl, htr, -, hi⟩ := hst
  exact ⟨p, rfl, htr, iff_of_true (ticking_armTimer n s) ht, hi⟩

/-- Connections that can time out both are alike behind the swap of the timer, idle or
not. -/
theorem Alike.leaveIdle (hst : Alike i h k s t)
    (hw : s.hasTimedOut = false → s.itsIdle = t.itsIdle ∨ Ticking s) :
    Alike true h k (leaveIdle srv s) (leaveIdle srv t) := by
  obtain ⟨p, rfl, htr, htick, -⟩ := hst
  have hbusy : Alike true h k { s with itsIdle := false } { s.recast p with itsIdle := false } :=
    ⟨{ p with idle := false }, rfl, htr, htick, fun _ => rfl⟩
  have hto : (s.recast p).hasTimedOut = s.hasTimedOut := rfl
  unfold AsyncConnection.leaveIdle
  rw [hto]
  by_cases hout : s.hasTimedOut = true
  · rw [if_neg (by simp [hout]), if_neg (by simp [hout])]
    exact hbusy
  rcases hw (by simpa using hout) with hidle | hticks
  · rw [hidle]
    exact rel_ite (fun _ => hbusy.armTimer _ _) (fun _ => hbusy)
  · by_cases hs : s.itsIdle = true
    · rw [if_pos (by simp [hs, hout])]
      by_cases ht : (s.recast p).itsIdle = true
      · rw [if_pos (by simp [ht, hout])]
        exact hbusy.armTimer _ _
      · rw [if_neg (by simp [ht])]
        exact hbusy.armTimer_left (htick.mp hticks) _
    · rw [if_neg (by simp [hs])]
      by_cases ht : (s.recast p).itsIdle = true
      · rw [if_pos (by simp [ht, hout])]
        exact (hbusy.symm.armTimer_left hticks _).symm
      · rw [if_neg (by simp [ht])]
        exact hbusy

/-! ## One step -/

/-- What agrees in the idle flag agrees without it. -/
theorem Alike.weaken (hst : Alike true h k s t) : Alike i h k s t := by
  obtain ⟨p, ht, htr, hw, hi⟩ := hst
  exact ⟨p, ht, htr, hw, fun _ => hi rfl⟩

/-- The same of the last calls. -/
theorem EndAlike.weaken {x y : Outcome} (hxy : EndAlike true h k x y) : EndAlike i h k x y := by
  cases hxy with
  | stop hst => exact .stop hst.weaken
  | reply m books hst => exact .reply m books hst.weaken
  | finish hst => exact .finish hst.weaken

/-- What the timer could tell apart in the look at the first bytes. -/
def Swaps (s t : AsyncConnection) : Prop :=
  s.hasTimedOut = false → s.itsIdle = t.itsIdle ∨ Ticking s

/-- A look at the bytes, behind which both or none are idle. -/
theorem Alike.look (hst : Alike i h k s t) (hw : Swaps s t) (bytes : Bytes)
    (hshutdown : s.world.shutdownRequested = false) :
    EndAlike true h k (Tail.handleRead srv a .success bytes s)
      (Tail.handleRead srv a .success bytes t) := by
  obtain ⟨p, rfl, htr, htick, hi⟩ := hst
  have hstart : Alike i h k { s with itsFinalStatus := .success }
      { s.recast p with itsFinalStatus := .success } :=
    ⟨{ p with finalStatus := .success }, rfl, htr, htick, hi⟩
  unfold Tail.handleRead
  refine rel_ite (fun hc => ?_) (fun _ => ?_)
  · exact absurd (hshutdown.symm.trans hc) (by simp)
  dsimp only
  rw [if_pos rfl, if_pos rfl]
  exact (hstart.leaveIdle srv hw).handleReadBytes srv a bytes

/-- No bytes are looked at. -/
theorem Alike.noLook (hst : Alike i h k s t) (e : ErrorCode) (bytes : Bytes)
    (hno : s.world.shutdownRequested = true ∨ e ≠ .success) :
    EndAlike i h k (Tail.handleRead srv a e bytes s) (Tail.handleRead srv a e bytes t) := by
  obtain ⟨p, rfl, htr, htick, hi⟩ := id hst
  unfold Tail.handleRead
  refine rel_ite (fun _ => hst.sendStockReply srv a _) (fun hc => ?_)
  refine rel_ite (fun he => ?_) (fun _ => .stop ?_)
  · exact absurd he (hno.resolve_left hc)
  · exact ⟨{ p with finalStatus := e, trace := .readError :: p.trace }, rfl, htr.cons _, htick, hi⟩

/-- The completion handler of a read, when the swap of the timer takes place on both or on
none. -/
theorem Alike.handleRead (hst : Alike i h k s t) (hw : Swaps s t) (e : ErrorCode)
    (bytes : Bytes) :
    EndAlike i h k (Tail.handleRead srv a e bytes s) (Tail.handleRead srv a e bytes t) := by
  by_cases he : e = .success
  · subst he
    by_cases hshutdown : s.world.shutdownRequested = true
    · exact hst.noLook srv a .success bytes (.inl hshutdown)
    · exact (hst.look srv a hw bytes (by simpa using hshutdown)).weaken
  · exact hst.noLook srv a e bytes (.inr he)

/-- **The handler an event calls**, on two connections that go on alike. -/
theorem alike_tail (hst : Alike i h k s t) (hw : Swaps s t) (hs : Stamped s) (ht : Stamped t)
    {e : Event} (he : e.isTimer = false) :
    Option.Rel (EndAlike i h k) (Tail.step srv s e) (Tail.step srv t e) := by
  -- what is outstanding agrees, so both take the same branch of the step
  have hout := hst.outstanding
  cases e with
  | handshake j ok =>
    simp only [Tail.step, AsyncConnection.step]
    rw [hout]
    cases s.world.outstanding[j]? with
    | none => exact .none
    | some y =>
      cases y with
      | handshake =>
        refine .some (.stop ?_)
        exact rel_ite (fun _ => (hst.release j).await .read) (fun _ => (hst.release j).closeSocket)
      | _ => exact .none
  | receive j bytes =>
    simp only [Tail.step, AsyncConnection.step]
    rw [hout, hst.socket]
    cases s.world.outstanding[j]? with
    | none => exact .none
    | some y =>
      cases y with
      | read =>
        dsimp only
        split
        · exact .some (.stop (((hst.release j).emit _).await _))
        · exact .none
      | _ => exact .none
  | readFails j err a =>
    simp only [Tail.step]
    rw [hout]
    cases s.world.outstanding[j]? with
    | none => exact .none
    | some y =>
      cases y with
      | read =>
        exact rel_ite (fun _ => .some ((hst.release j).handleRead srv a hw err []))
          (fun _ => .none)
      | _ => exact .none
  | runRead j a =>
    simp only [Tail.step]
    rw [hout]
    cases s.world.outstanding[j]? with
    | none => exact .none
    | some y =>
      cases y with
      | handleRead bytes => exact .some ((hst.release j).handleRead srv a hw .success bytes)
      | _ => exact .none
  | runTask j a =>
    simp only [Tail.step]
    rw [hout]
    cases s.world.outstanding[j]? with
    | none => exact .none
    | some y =>
      cases y with
      | task pool task => exact .some ((hst.release j).runTask srv a hs ht task)
      | _ => exact .none
  | writeSome j n a =>
    simp only [Tail.step]
    rw [hout, hst.socket]
    cases s.world.outstanding[j]? with
    | none => exact .none
    | some y =>
      cases y with
      | write handler buffer =>
        exact rel_ite
          (fun _ => .some (((hst.release j).emit _).runWriteHandler srv a handler .success n))
          (fun _ => .none)
      | _ => exact .none
  | writeFails j a =>
    simp only [Tail.step]
    rw [hout]
    cases s.world.outstanding[j]? with
    | none => exact .none
    | some y =>
      cases y with
      | write handler buffer =>
        exact .some ((hst.release j).failWrite.runWriteHandler srv a handler .other 0)
      | _ => exact .none
  | timerExpires => cases he
  | runTimer generation a => cases he
  | requestShutdown =>
    refine .some (.stop ?_)
    obtain ⟨p, rfl, htr, htick, hi⟩ := hst
    exact ⟨p, rfl, htr, htick, hi⟩

/-- **One step**, the timer's apart. -/
theorem alike_step (hst : Alike i h k s t) (hw : Swaps s t) (hs : Stamped s) (ht : Stamped t)
    {e : Event} (he : e.isTimer = false) :
    Option.Rel (Alike i h k) (step srv s e) (step srv t e) := by
  have htail := alike_tail srv hst hw hs ht he
  rw [step_eq, step_eq]
  revert htail
  generalize Tail.step srv s e = x
  generalize Tail.step srv t e = y
  intro htail
  cases htail with
  | none => exact .none
  | some hxy => exact .some (alike_run srv e.answers hxy)

end AsyncConnection

end SmartMet
