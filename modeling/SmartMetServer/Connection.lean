/-
# The state of a connection (`include/Connection.h`, `include/AsyncConnection.h`)

The members of `Connection` and `AsyncConnection` that a request or a reply
reads or writes, and the `World` around the object: the socket, the handlers
that wait to be called, the armed timer waits, and the trace of what happened.

The sizes and counters are natural numbers: no run moves `2 ^ 64` bytes or
requests over one connection.

The trace is bookkeeping: no function of the program reads it.  `rearmed` cuts
it into *exchanges*, the parts that belong to one request each.
-/
import SmartMetServer.Utility

namespace SmartMet

/-! ## The server around a connection -/

/-- The settings of the server and of its reactor, and the libraries. -/
structure Server where
  spine : Spine
  itsEncryptionEnabled : Bool := false
  itsCanGzip : Bool := false
  itsCompressLimit : ℕ := 0
  itsMaxRequestSize : ℕ := 0
  itsTimeout : ℕ := 60
  itsKeepAliveEnabled : Bool := true
  itsKeepAliveTimeout : ℕ := 30
  itsMaxKeepAliveRequests : ℕ := 1000
  itsMaxHeaderSize : ℕ := 16384
  staleWhileRevalidate : ℕ := 0
  staleIfError : ℕ := 0
  contentCodings : List Bytes := []
  adminPoolSize : ℕ := 1
  slowPoolSize : ℕ := 1

/-! ## Handlers waiting to be called -/

/-- The error codes the code tells apart. -/
inductive ErrorCode where
  | success
  | eof
  | operationAborted
  | other
  deriving DecidableEq, Repr

/-- The three executors. -/
inductive Pool where
  | admin
  | slow
  | fast
  deriving DecidableEq, Repr

/-- The functions run by the executors. -/
inductive Task where
  | handleCompletedRead (view : HandlerView)
  | getNextChunk
  | getNextChunkedChunk
  deriving DecidableEq, Repr

/-- The completion handlers of the asynchronous writes. -/
inductive WriteHandler where
  | writeRegularReply
  | writeStreamReply
  | writeChunkedReply
  | finalizeChunkedReply
  deriving DecidableEq, Repr

/-- What is under way for a connection, the timer apart.  A read that has
delivered its bytes and a posted zero-byte call both wait as `handleRead`. -/
inductive Activity where
  | handshake
  | read
  | handleRead (bytes : Bytes)
  | task (pool : Pool) (task : Task)
  | write (handler : WriteHandler) (buffer : Bytes)
  deriving DecidableEq, Repr

/-- A wait is `pending` until the timer expires or is cancelled; then its
handler waits to be called. -/
inductive WaitStatus where
  | pending
  | expired
  | aborted
  deriving DecidableEq, Repr

/-- An `async_wait` with the generation stamp its handler has captured. -/
structure TimerWait where
  generation : ℕ
  status : WaitStatus
  deriving DecidableEq, Repr

/-- Cancelling a wait: a pending one is aborted, an expired one is too late. -/
def TimerWait.cancel (w : TimerWait) : TimerWait :=
  { w with status := if w.status = .pending then .aborted else w.status }

/-- The expiry of the timer. -/
def TimerWait.expire (w : TimerWait) : TimerWait :=
  { w with status := if w.status = .pending then .expired else w.status }

/-- A socket is `broken` once a write on it has failed. -/
inductive SocketState where
  | open
  | broken
  | closed
  deriving DecidableEq, Repr

/-! ## What happened -/

/-- What bytes on the wire belong to. -/
inductive Message where
  | interim
  | handler
  | options
  | stock (status : Status)
  deriving DecidableEq, Repr

/-- The reply paths of a handler's response. -/
inductive ReplyPath where
  | regular
  | gateway
  | stream
  | chunked
  deriving DecidableEq, Repr

/-- The events of the trace. -/
inductive Obs where
  /-- A read delivered bytes of the client. -/
  | received (bytes : Bytes)
  /-- A read ended with an error and `handleRead` has returned. -/
  | readError
  /-- `handleParsedRequest` was entered with this request. -/
  | parsed (request : Request)
  /-- It was left by an exception: the peer of the socket is not known. -/
  | peerUnknown
  | clientStarted (clientIP : Bytes)
  /-- `HandlerView::handle` was called with this request. -/
  | dispatched (request : Request)
  /-- The response it left. -/
  | handled (response : Response)
  | started (path : ReplyPath)
  /-- A header section was built. -/
  | rendered (message : Message) (response : Response) (head : Bytes)
  /-- `getContent` gave a getter a chunk: that of the streamer, or of a page in its
  place. -/
  | chunk (bytes : Bytes) (streamed : Bool)
  /-- `getStreamingStatus` told a getter of an exit: of the streamer, or for a page. -/
  | streamEnded (status : StreamerStatus) (streamed : Bool)
  /-- An executor refused to take a chunk getter. -/
  | refused
  /-- The client was sent bytes. -/
  | wrote (message : Message) (bytes : Bytes)
  | writeError (message : Message)
  | streamLogged (bytes : ℕ)
  | backendFinished (status : StreamerStatus)
  /-- `finishResponse` re-armed the connection for the next request. -/
  | rearmed
  | armed (generation seconds : ℕ)
  | closed
  deriving DecidableEq

/-- The part of the trace that belongs to one request. -/
structure Exchange where
  requests : List Request := []
  peerUnknown : Bool := false
  dispatched : List Request := []
  handled : Option Response := none
  path : Option ReplyPath := none
  heads : List (Message × Response × Bytes) := []
  chunks : List Bytes := []
  ended : Option StreamerStatus := none
  /-- The chunks that were the streamer's own. -/
  streamed : List Bytes := []
  /-- The exit that was the streamer's own. -/
  streamEnd : Option StreamerStatus := none
  refused : Bool := false
  wire : List (Message × Bytes) := []
  failed : Bool := false
  deriving DecidableEq

namespace Exchange

/-- One more event of the same exchange. -/
def observe (x : Exchange) : Obs → Exchange
  | .parsed r => { x with requests := x.requests ++ [r] }
  | .peerUnknown => { x with peerUnknown := true }
  | .dispatched r => { x with dispatched := x.dispatched ++ [r] }
  | .handled r => { x with handled := some r }
  | .started p => { x with path := some p }
  | .rendered m r h => { x with heads := x.heads ++ [(m, r, h)] }
  | .chunk c own =>
    { x with
      chunks := x.chunks ++ [c]
      streamed := if own then x.streamed ++ [c] else x.streamed }
  | .streamEnded st own =>
    { x with
      ended := some st
      streamEnd := if own then some st else x.streamEnd }
  | .refused => { x with refused := true }
  | .wrote m b => { x with wire := x.wire ++ [(m, b)] }
  | .writeError _ => { x with failed := true }
  | _ => x

/-- The bytes sent in answer to the request: all but the interim responses. -/
def out (x : Exchange) : Bytes :=
  x.wire.flatMap fun p => if p.1 = .interim then [] else p.2

end Exchange

/-- The exchange under way, from a trace with the last event first. -/
def current : List Obs → Exchange
  | [] => {}
  | .rearmed :: _ => {}
  | o :: t => (current t).observe o

/-- The exchanges that ended with the connection re-armed, the last first. -/
def past : List Obs → List Exchange
  | [] => []
  | .rearmed :: t => current t :: past t
  | _ :: t => past t

/-- What surrounds the connection object. -/
structure World where
  socket : SocketState := .open
  outstanding : List Activity := []
  waits : List TimerWait := []
  shutdownRequested : Bool := false
  trace : List Obs := []
  deriving DecidableEq

/-- The fate of a synchronous write: everything is sent, or an error stops it
after a proper part. -/
inductive WriteOutcome where
  | done
  | failed (delivered : ℕ)
  deriving DecidableEq, Repr

namespace World

/-- An event is recorded. -/
def emit (w : World) (o : Obs) : World := { w with trace := o :: w.trace }

/-- An asynchronous activity is started. -/
def await (w : World) (a : Activity) : World :=
  { w with outstanding := w.outstanding ++ [a] }

/-- The socket is closed. -/
def close (w : World) : World := { w.emit .closed with socket := .closed }

/-- `expires_after` and `async_wait` of the timer. -/
def arm (w : World) (generation seconds : ℕ) : World :=
  { w.emit (.armed generation seconds) with
    waits := ⟨generation, .pending⟩ :: w.waits.map TimerWait.cancel }

/-- `cancel` of the timer. -/
def cancel (w : World) : World := { w with waits := w.waits.map TimerWait.cancel }

/-- `boost::asio::write`.  An empty buffer is written at once; on a socket that
is closed or has failed before nothing is delivered. -/
def write (w : World) (m : Message) (bytes : Bytes) (o : WriteOutcome) : World :=
  if bytes.isEmpty then w
  else
    match w.socket, o with
    | .open, .done => w.emit (.wrote m bytes)
    | .open, .failed n =>
      { (w.emit (.wrote m (bytes.dropLast.take n))).emit (.writeError m) with socket := .broken }
    | _, _ => w.emit (.writeError m)

/-- Whether `boost::asio::write` reports an error. -/
def writeFails (w : World) (bytes : Bytes) (o : WriteOutcome) : Bool :=
  !bytes.isEmpty && (w.socket != .open || o != .done)

/-- An asynchronous write fails: the socket is broken, if it was not closed. -/
def failWrite (w : World) : World :=
  { w.emit (.writeError .handler) with
    socket := if w.socket = .open then .broken else w.socket }

/-- The world when the handler at position `i` is about to be called. -/
def release (w : World) (i : ℕ) : World := { w with outstanding := w.outstanding.eraseIdx i }

end World

/-! ## The connection -/

/-- The members of a connection, with their initial values. -/
structure AsyncConnection where
  itsTimerGeneration : ℕ := 0
  itsBuffer : Bytes := []
  itsRequest : Request := {}
  itsResponse : Response := {}
  itsReceivedBytes : ℕ := 0
  itsResponseString : Bytes := []
  itsPendingHeaders : Bytes := []
  itsRequestCount : ℕ := 0
  itsKeepAlive : Bool := false
  itsResponseVersion : HttpVersion := .v1_0
  itsIdle : Bool := false
  itsCounted : Bool := false
  hasTimedOut : Bool := false
  itsQueryIsFast : Bool := false
  itsAdminQuery : Bool := false
  itsFinalStatus : ErrorCode := .success
  itsSentBytes : ℕ := 0
  itsTotalStreamedBytes : ℕ := 0
  itsBackendNotified : Bool := false
  itsHeadRequest : Bool := false
  itsExpectHandled : Bool := false
  itsDeclaredContentLength : ℕ := 0
  itsPrematurelyDisconnected : Bool := false
  world : World := {}
  deriving DecidableEq

namespace AsyncConnection

/-- Record an event. -/
def emit (s : AsyncConnection) (o : Obs) : AsyncConnection := { s with world := s.world.emit o }

/-- Hand a handler to the io_context or to an executor. -/
def await (s : AsyncConnection) (a : Activity) : AsyncConnection :=
  { s with world := s.world.await a }

/-- The handlers that keep the connection object alive: those of the outstanding
operations and tasks, and those of the timer waits. -/
def owners (s : AsyncConnection) : ℕ := s.world.outstanding.length + s.world.waits.length

/-- The exchange under way. -/
def exchange (s : AsyncConnection) : Exchange := current s.world.trace

end AsyncConnection

end SmartMet
