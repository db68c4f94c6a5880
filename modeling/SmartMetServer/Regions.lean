/-
# Handlers cut into regions

The threads of the io_context and of the pools run the handlers of a connection
side by side.  Here a handler is a sequence of atomic regions: what is done while
`itsMutex` is held, the writes of a reply, the test and the reset at the start of
`finishResponse`, the call of a plugin, and what lies between these.  No region
holds more than one write.

Between any two regions other handlers, among them `handleTimer`, may run.  A
handler that nothing interrupts does what `step` says of it.
-/
import SmartMetServer.OwnReplies

namespace SmartMet

open AsyncConnection

/-- The point in a handler where a thread stands, in front of its next region. -/
inductive Rest where
  /-- `start`, behind `armTimer`. -/
  | beginReading
  /-- `armTimer` of `handleRead`. -/
  | armForRequest (bytes : Bytes) (a : Answers)
  /-- `handleRead`, behind the swap of the timer. -/
  | readBytes (bytes : Bytes) (a : Answers)
  /-- `handleCompletedRead`, behind the cancellation of the timer. -/
  | callHandler (a : Answers)
  /-- The plugin is at work. -/
  | inHandler (a : Answers)
  /-- The completion handler of a write. -/
  | written (handler : WriteHandler) (e : ErrorCode) (n : ℕ) (a : Answers)
  /-- The two writes of `sendSimpleReply`. -/
  | head (m : Message) (books : Books) (a : Answers)
  | content (m : Message) (bytes : Bytes) (books : Books) (a : Answers)
  /-- `sendSimpleReply`, behind the writes. -/
  | settle (books : Books)
  /-- The test and the reset of `finishResponse`. -/
  | finish (books : Books)
  /-- `armTimer` of `finishResponse`. -/
  | armNext (books : Books)
  /-- The end of `finishResponse`. -/
  | resume (books : Books)

/-- A connection and the threads in the middle of its handlers. -/
structure Threads where
  conn : AsyncConnection
  running : List Rest := []
  /-- Bookkeeping: the stamp of the most recent arming of the timer, unless it was
  cancelled since. -/
  armed : Option ℕ := none
  /-- Bookkeeping: `handleRead` has gone about bytes of the request under way. -/
  engaged : Bool := false

/-- An event on the threads: a handler is called, or something happens outside; or
the thread at a position goes through its next region. -/
inductive ThreadEvent where
  | handler (e : Event)
  | go (i : ℕ)

namespace Threads

variable (srv : Server)

/-! ## The ways out of a region -/

/-- The handler returns. -/
def leave (s : Threads) (c : AsyncConnection) : Threads := { s with conn := c }

/-- The handler goes on with another region. -/
def next (s : Threads) (c : AsyncConnection) (r : Rest) : Threads :=
  { s with conn := c, running := s.running ++ [r] }

/-- The handler ends with its last call. -/
def outcome (a : Answers) (s : Threads) : Outcome → Threads
  | .stop c => s.leave c
  | .reply m c books => s.next c (.head m books a)
  | .finish c => s.next c (.finish .none)

/-- The timer was armed. -/
def nextArmed (s : Threads) (c : AsyncConnection) (r : Rest) : Threads :=
  { s.next c r with armed := some c.itsTimerGeneration }

/-! ## The regions -/

/-- The content write of `sendSimpleReply`; the buffer was made before the header
section was written. -/
def writeContent (a : Answers) (m : Message) (bytes : Bytes) (s : AsyncConnection) :
    AsyncConnection :=
  let err := s.world.writeFails bytes a.contentWrite
  let s := write m bytes a.contentWrite s
  { s with
    itsFinalStatus := if err then .other else .success
    itsKeepAlive := s.itsKeepAlive && !err }

/-- `handleRead` with success, up to the exchange of `itsIdle`. -/
def enterRead (bytes : Bytes) (a : Answers) (s : Threads) : Threads :=
  let c := s.conn
  if c.world.shutdownRequested then
    s.outcome a (Tail.sendStockReply srv a srv.spine.shutdown c)
  else
    let u := { c with itsFinalStatus := .success, itsIdle := false }
    let r := if c.itsIdle && !c.hasTimedOut then Rest.armForRequest bytes a else .readBytes bytes a
    { s.next u r with engaged := true }

/-- The region a thread goes through next. -/
def region (s : Threads) : Rest → Threads
  | .beginReading =>
    s.leave (if srv.itsEncryptionEnabled then s.conn.await .handshake else startRead s.conn)
  | .armForRequest bytes a => s.nextArmed (armTimer srv.itsTimeout s.conn) (.readBytes bytes a)
  | .readBytes bytes a => s.outcome a (Tail.handleReadBytes srv a bytes s.conn)
  | .callHandler a =>
    let c := s.conn
    if c.itsPrematurelyDisconnected then s
    else if c.world.socket = .closed then s
    else
      s.next ((c.emit (.clientStarted c.itsRequest.clientIP)).emit (.dispatched c.itsRequest))
        (.inHandler a)
  | .inHandler a => s.outcome a (Tail.returnFromHandler srv a s.conn)
  | .written handler e n a => s.outcome a (Tail.runWriteHandler srv a handler e n s.conn)
  | .head m books a =>
    match headersToString srv.spine s.conn.itsResponse with
    | none => s.leave (books.keep s.conn)
    | some head =>
      s.next (writeHead a m head s.conn) (.content m s.conn.itsResponse.getContent books a)
  | .content m bytes books a => s.next (writeContent a m bytes s.conn) (.settle books)
  | .settle books =>
    if s.conn.itsKeepAlive then s.next s.conn (.finish books)
    else s.leave (books.keep (closeSocket s.conn))
  | .finish books =>
    if mayReuse s.conn then
      { s.next (resetRequestState s.conn) (.armNext books) with engaged := false }
    else s.leave (books.keep s.conn)
  | .armNext books => s.nextArmed (armForNextRequest srv s.conn) (.resume books)
  | .resume books => s.leave (books.keep (resumeReading s.conn))

/-- A task is taken up by a pool thread. -/
def takeTask (a : Answers) (s : Threads) : Task → Threads
  | .handleCompletedRead _ =>
    { s.next (cancelTimer s.conn) (.callHandler a) with armed := none }
  | .getNextChunk => s.outcome a (Tail.getNextChunk srv a s.conn)
  | .getNextChunkedChunk => s.outcome a (Tail.getNextChunkedChunk srv a s.conn)

/-- An event of a connection: the first region of the handler it calls. -/
def call (s : Threads) : Event → Option Threads
  | .readFails i e a =>
    match s.conn.world.outstanding[i]? with
    | some .read =>
      if e ≠ .success then
        let t := s.leave (s.conn.release i)
        some (t.outcome a (Tail.handleRead srv a e [] t.conn))
      else none
    | _ => none
  | .runRead i a =>
    match s.conn.world.outstanding[i]? with
    | some (.handleRead bytes) => some (enterRead srv bytes a (s.leave (s.conn.release i)))
    | _ => none
  | .runTask i a =>
    match s.conn.world.outstanding[i]? with
    | some (.task _ task) => some (takeTask srv a (s.leave (s.conn.release i)) task)
    | _ => none
  | .writeSome i n a =>
    match s.conn.world.outstanding[i]? with
    | some (.write handler buffer) =>
      if n ≤ buffer.length ∧ s.conn.world.socket = .open then
        some (s.next ((s.conn.release i).emit (.wrote .handler (buffer.take n)))
          (.written handler .success n a))
      else none
    | _ => none
  | .writeFails i a =>
    match s.conn.world.outstanding[i]? with
    | some (.write handler _) =>
      some (s.next (s.conn.release i).failWrite (.written handler .other 0 a))
    | _ => none
  | e => (AsyncConnection.step srv s.conn e).map s.leave

/-- One step of the threads. -/
def step (s : Threads) : ThreadEvent → Option Threads
  | .handler e => s.call srv e
  | .go i =>
    match s.running[i]? with
    | some r => some (region srv { s with running := s.running.eraseIdx i } r)
    | none => none

/-- A connection that has just been accepted: its timer is armed. -/
def start : Threads :=
  { conn := armTimer srv.itsTimeout { itsCounted := true }
    running := [.beginReading]
    armed := some 1 }

/-- The state after a run of the threads from the start of the connection. -/
def runFrom (s : Threads) (es : List ThreadEvent) : Option Threads :=
  Transition.run (step srv) s es

/-- The states the threads of a started connection can reach. -/
def Reachable (s : Threads) : Prop := ∃ es, runFrom srv (start srv) es = some s

/-! ## A handler that is not interrupted -/

/-- A single thread, left alone from this region on, leaves the connection in the
state `c`. -/
def Completes (s : Threads) (c : AsyncConnection) : Prop :=
  ∃ n t, runFrom srv s (List.replicate n (.go 0)) = some t ∧ t.conn = c ∧ t.running = []

variable {srv}

theorem Completes.done {s : Threads} (h : s.running = []) : Completes srv s s.conn :=
  ⟨0, s, rfl, rfl, h⟩

/-- The next region. -/
theorem Completes.go {s : Threads} {r : Rest} {c : AsyncConnection} (hr : s.running = [r])
    (h : Completes srv (region srv { s with running := [] } r) c) : Completes srv s c := by
  obtain ⟨n, t, hrun, hc, ht⟩ := h
  refine ⟨n + 1, t, ?_, hc, ht⟩
  refine Transition.run_cons.mpr ⟨region srv { s with running := [] } r, ?_, hrun⟩
  unfold step
  rw [hr]
  rfl

theorem completes_finish {s : Threads} {books : Books} (hr : s.running = [.finish books]) :
    Completes srv s (books.keep (finishResponse srv s.conn)) := by
  refine Completes.go hr ?_
  unfold finishResponse
  show Completes srv (if mayReuse s.conn then _ else _) _
  split
  · exact Completes.go rfl (Completes.go rfl (Completes.done rfl))
  · exact Completes.done rfl

theorem completes_settle {s : Threads} {books : Books} (hr : s.running = [.settle books]) :
    Completes srv s (books.keep
      (if s.conn.itsKeepAlive then finishResponse srv s.conn else closeSocket s.conn)) := by
  refine Completes.go hr ?_
  show Completes srv (if s.conn.itsKeepAlive then _ else _) _
  split
  · exact completes_finish rfl
  · exact Completes.done rfl

theorem completes_head {s : Threads} {m : Message} {books : Books} {a : Answers}
    (hr : s.running = [.head m books a]) :
    Completes srv s (books.keep (sendSimpleReply srv a m s.conn)) := by
  refine Completes.go hr ?_
  unfold sendSimpleReply
  show Completes srv (match headersToString srv.spine s.conn.itsResponse with
    | none => _
    | some head => _) _
  cases headersToString srv.spine s.conn.itsResponse with
  | none => exact Completes.done rfl
  | some head => exact Completes.go rfl (completes_settle rfl)

theorem completes_outcome {s : Threads} (a : Answers) (hr : s.running = []) (x : Outcome) :
    Completes srv (s.outcome a x) (x.run srv a) := by
  have hnext : ∀ (c : AsyncConnection) (r : Rest), (s.next c r).running = [r] := fun c r => by
    show s.running ++ [r] = [r]
    rw [hr]
    rfl
  cases x with
  | stop c => exact Completes.done hr
  | reply m c books => exact completes_head (hnext c _)
  | finish c => exact completes_finish (hnext c _)

theorem completes_callHandler {s : Threads} {a : Answers} (hr : s.running = [.callHandler a]) :
    Completes srv s ((Tail.handleCompletedRead srv a s.conn).run srv a) := by
  refine Completes.go hr ?_
  unfold region Tail.handleCompletedRead
  dsimp only
  split
  · exact Completes.done rfl
  · split
    · exact Completes.done rfl
    · rw [Tail.callHandler_eq]
      refine Completes.go rfl ?_
      exact completes_outcome a rfl _

theorem completes_readBytes {s : Threads} {bytes : Bytes} {a : Answers}
    (hr : s.running = [.readBytes bytes a]) :
    Completes srv s ((Tail.handleReadBytes srv a bytes s.conn).run srv a) :=
  Completes.go hr (completes_outcome a rfl (Tail.handleReadBytes srv a bytes s.conn))

theorem completes_armForRequest {s : Threads} {bytes : Bytes} {a : Answers}
    (hr : s.running = [.armForRequest bytes a]) :
    Completes srv s
      ((Tail.handleReadBytes srv a bytes (armTimer srv.itsTimeout s.conn)).run srv a) :=
  Completes.go hr (completes_readBytes rfl)

theorem completes_written {s : Threads} {handler : WriteHandler} {e : ErrorCode} {n : ℕ}
    {a : Answers} (hr : s.running = [.written handler e n a]) :
    Completes srv s (runWriteHandler srv a handler e n s.conn) := by
  rw [runWriteHandler_eq]
  exact Completes.go hr (completes_outcome a rfl (Tail.runWriteHandler srv a handler e n s.conn))

theorem completes_enterRead {s : Threads} {bytes : Bytes} {a : Answers} (hr : s.running = []) :
    Completes srv (enterRead srv bytes a s) (handleRead srv a .success bytes s.conn) := by
  have hnext : ∀ r : Rest, s.running ++ [r] = [r] := fun r => by
    rw [hr]
    rfl
  rw [handleRead_eq]
  unfold enterRead Tail.handleRead
  dsimp only
  by_cases hshut : s.conn.world.shutdownRequested = true
  · rw [if_pos hshut, if_pos hshut]
    exact completes_outcome a hr _
  rw [if_neg hshut, if_neg hshut, if_pos rfl]
  unfold leaveIdle
  dsimp only
  by_cases hidle : (s.conn.itsIdle && !s.conn.hasTimedOut) = true
  · rw [if_pos hidle, if_pos hidle]
    exact completes_armForRequest (hnext _)
  · rw [if_neg hidle, if_neg hidle]
    exact completes_readBytes (hnext _)

variable (srv) in
/-- **A handler that nothing interrupts does what `step` says of it.** -/
theorem completes_step {s : Threads} {e : Event} {c : AsyncConnection} (hr : s.running = [])
    (h : AsyncConnection.step srv s.conn e = some c) :
    ∃ t, step srv s (.handler e) = some t ∧ Completes srv t c := by
  have hnext : ∀ r : Rest, s.running ++ [r] = [r] := fun r => by
    rw [hr]
    rfl
  cases e with
  | readFails i err a =>
    simp only [AsyncConnection.step] at h
    split at h
    · rename_i hi
      split at h
      · rename_i herr
        obtain rfl := Option.some.inj h
        refine ⟨_, by simp only [step, call, hi, if_pos herr]; rfl, ?_⟩
        rw [handleRead_eq]
        exact completes_outcome (s := s.leave (s.conn.release i)) a hr _
      · cases h
    · cases h
  | runRead i a =>
    simp only [AsyncConnection.step] at h
    split at h
    · rename_i bytes hi
      obtain rfl := Option.some.inj h
      exact ⟨enterRead srv bytes a (s.leave (s.conn.release i)), by simp only [step, call, hi],
        completes_enterRead (s := s.leave (s.conn.release i)) hr⟩
    · cases h
  | runTask i a =>
    simp only [AsyncConnection.step] at h
    split at h
    · rename_i pool task hi
      obtain rfl := Option.some.inj h
      refine ⟨_, by simp only [step, call, hi]; rfl, ?_⟩
      rw [runTask_eq]
      cases task with
      | handleCompletedRead view => exact completes_callHandler (hnext _)
      | getNextChunk => exact completes_outcome a hr _
      | getNextChunkedChunk => exact completes_outcome a hr _
    · cases h
  | writeSome i n a =>
    simp only [AsyncConnection.step] at h
    split at h
    · rename_i handler buffer hi
      split at h
      · rename_i hn
        obtain rfl := Option.some.inj h
        refine ⟨_, by simp only [step, call, hi, if_pos hn]; rfl, ?_⟩
        exact completes_written (hnext _)
      · cases h
    · cases h
  | writeFails i a =>
    simp only [AsyncConnection.step] at h
    split at h
    · rename_i handler buffer hi
      obtain rfl := Option.some.inj h
      refine ⟨_, by simp only [step, call, hi]; rfl, ?_⟩
      exact completes_written (hnext _)
    · cases h
  | _ =>
    refine ⟨s.leave c, ?_, Completes.done hr⟩
    simp only [step, call, h, Option.map_some]

/-- Every run of the connection is a run of its threads. -/
theorem reachable_of_connection {c : AsyncConnection} (h : AsyncConnection.Reachable srv c) :
    ∃ t, Reachable srv t ∧ t.conn = c ∧ t.running = [] := by
  obtain ⟨es, hes⟩ := h
  let P : AsyncConnection → Prop := fun c => ∃ t, Reachable srv t ∧ t.conn = c ∧ t.running = []
  refine Transition.run_preserves (P := P) ?_ ?_ hes
  · rintro c e c' ⟨t, ⟨fs, hfs⟩, rfl, ht⟩ hstep
    obtain ⟨u, hu, n, v, hv, hc, hr⟩ := completes_step srv ht hstep
    refine ⟨v, ⟨fs ++ .handler e :: List.replicate n (.go 0), ?_⟩, hc, hr⟩
    exact Transition.run_append hfs (Transition.run_cons.mpr ⟨u, hu, hv⟩)
  · refine ⟨_, ⟨[.go 0], rfl⟩, ?_, rfl⟩
    rfl

end Threads

end SmartMet
