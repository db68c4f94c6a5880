/-
# Runs of a connection

One step is one completion handler or pool task run to its end, or an event of
the outside: bytes arrive, the timer expires, a shutdown is requested.  A step
names the outstanding handler it completes by its position, so that nothing is
said about the order in which handlers are called.

A socket that has been closed delivers nothing: a read or a write outstanding on
it can only fail.  A read that has already delivered its bytes is not undone by
a later close.
-/
import SmartMetServer.AsyncConnection
import SmartMetServer.Transition

namespace SmartMet

/-- The events of a run. -/
inductive Event where
  | handshake (i : ℕ) (ok : Bool)
  /-- The outstanding read delivers bytes. -/
  | receive (i : ℕ) (bytes : Bytes)
  | readFails (i : ℕ) (e : ErrorCode) (a : Answers)
  /-- A queued call of `handleRead` is made. -/
  | runRead (i : ℕ) (a : Answers)
  | runTask (i : ℕ) (a : Answers)
  /-- The outstanding write sends `n` bytes. -/
  | writeSome (i n : ℕ) (a : Answers)
  | writeFails (i : ℕ) (a : Answers)
  | timerExpires
  /-- The handler of the wait with this stamp is called. -/
  | runTimer (generation : ℕ) (a : Answers)
  | requestShutdown
  deriving DecidableEq

/-- The size of `itsSocketBuffer`. -/
def socketBufferSize : ℕ := 8192

namespace AsyncConnection

/-- The state when the handler at position `i` is about to be called. -/
def release (s : AsyncConnection) (i : ℕ) : AsyncConnection :=
  { s with world := s.world.release i }

/-- The wait with this stamp, if its handler waits to be called. -/
def readyWait (s : AsyncConnection) (generation : ℕ) : Option TimerWait :=
  s.world.waits.find? fun w => w.generation == generation && w.status != .pending

variable (srv : Server)

/-- The bytes of a write go out, and its completion handler is called. -/
def runWriteHandler (a : Answers) (handler : WriteHandler) (e : ErrorCode) (n : ℕ)
    (s : AsyncConnection) : AsyncConnection :=
  match handler with
  | .writeRegularReply => writeRegularReply srv a e n s
  | .writeStreamReply => writeStreamReply srv a e n s
  | .writeChunkedReply => writeChunkedReply srv a e n s
  | .finalizeChunkedReply => finalizeChunkedReply srv a e n s

/-- A pool thread runs a task. -/
def runTask (a : Answers) (task : Task) (s : AsyncConnection) : AsyncConnection :=
  match task with
  | .handleCompletedRead _ => handleCompletedRead srv a s
  | .getNextChunk => getNextChunk srv a s
  | .getNextChunkedChunk => getNextChunkedChunk srv a s

/-- A failed write leaves the socket broken, if it was not closed before. -/
def failWrite (s : AsyncConnection) : AsyncConnection := { s with world := s.world.failWrite }

/-- One step of a run. -/
def step (s : AsyncConnection) : Event → Option AsyncConnection
  | .handshake i ok =>
    match s.world.outstanding[i]? with
    | some .handshake => some (handleHandshake ok (s.release i))
    | _ => none
  | .receive i bytes =>
    match s.world.outstanding[i]? with
    | some .read =>
      if bytes ≠ [] ∧ bytes.length ≤ socketBufferSize ∧ s.world.socket ≠ .closed then
        some (((s.release i).emit (.received bytes)).await (.handleRead bytes))
      else none
    | _ => none
  | .readFails i e a =>
    match s.world.outstanding[i]? with
    | some .read => if e ≠ .success then some (handleRead srv a e [] (s.release i)) else none
    | _ => none
  | .runRead i a =>
    match s.world.outstanding[i]? with
    | some (.handleRead bytes) => some (handleRead srv a .success bytes (s.release i))
    | _ => none
  | .runTask i a =>
    match s.world.outstanding[i]? with
    | some (.task _ task) => some (runTask srv a task (s.release i))
    | _ => none
  | .writeSome i n a =>
    match s.world.outstanding[i]? with
    | some (.write handler buffer) =>
      if n ≤ buffer.length ∧ s.world.socket = .open then
        some (runWriteHandler srv a handler .success n
          ((s.release i).emit (.wrote .handler (buffer.take n))))
      else none
    | _ => none
  | .writeFails i a =>
    match s.world.outstanding[i]? with
    | some (.write handler _) =>
      some (runWriteHandler srv a handler .other 0 (s.release i).failWrite)
    | _ => none
  | .timerExpires =>
    if s.world.waits.any fun w => w.status == .pending then
      some { s with world.waits := s.world.waits.map TimerWait.expire }
    else none
  | .runTimer generation a =>
    match s.readyWait generation with
    | some w =>
      some (handleTimer srv a (if w.status = .aborted then .operationAborted else .success)
        generation { s with world.waits := s.world.waits.erase w })
    | none => none
  | .requestShutdown => some { s with world.shutdownRequested := true }

/-- The state after a run from the start of the connection. -/
def runFrom (s : AsyncConnection) (es : List Event) : Option AsyncConnection :=
  Transition.run (step srv) s es

/-- The states a started connection can reach. -/
def Reachable (s : AsyncConnection) : Prop := ∃ es, runFrom srv (start srv) es = some s

end AsyncConnection

end SmartMet
