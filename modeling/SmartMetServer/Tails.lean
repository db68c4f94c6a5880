/-
# How a completion handler ends

A completion handler or a pool task does some work and then returns, or ends in
a call of `sendSimpleReply` or of `finishResponse`.  The functions here stop
before that last call and say what it is: `run` makes the call, and then every
function of `source/AsyncConnection.cpp` is the one of its name.

The work before the last call is a `Stretch`: it arms no timer, re-arms no
connection and writes none of the server's own replies.
-/
import SmartMetServer.Reachable

namespace SmartMet

open ChunkedCoding Exchange

/-- The books that are kept behind the reply to a failed write. -/
inductive Books where
  | none
  | log
  | logAndNotify (status : Response → StreamerStatus)

/-- The books are kept. -/
def Books.keep : Books → AsyncConnection → AsyncConnection
  | none, s => s
  | log, s => AsyncConnection.finalizeStreamLogging s
  | logAndNotify status, s =>
    let s := AsyncConnection.finalizeStreamLogging s
    AsyncConnection.notifyBackendFinished (status s.itsResponse) s

/-- The last call of a completion handler. -/
inductive Outcome where
  | stop (s : AsyncConnection)
  | reply (m : Message) (s : AsyncConnection) (books : Books)
  | finish (s : AsyncConnection)

namespace Outcome

/-- The state in which the last call is made. -/
def state : Outcome → AsyncConnection
  | stop s => s
  | reply _ s _ => s
  | finish s => s

/-- The last call is made. -/
def run (srv : Server) (a : Answers) : Outcome → AsyncConnection
  | stop s => s
  | reply m s books => books.keep (AsyncConnection.sendSimpleReply srv a m s)
  | finish s => AsyncConnection.finishResponse srv s

end Outcome

namespace Tail

open AsyncConnection

variable (srv : Server) (a : Answers)

/-- The page of a status as the last call. -/
def sendStockReply (status : Status) (s : AsyncConnection) : Outcome :=
  .reply (.stock status) (stockResponse srv a status s) .none

/-- In front of its last call a page has left no trace. -/
theorem exchange_sendStockReply (status : Status) (s : AsyncConnection) :
    (sendStockReply srv a status s).state.exchange = s.exchange := rfl

/-! ## The functions called from the socket -/

/-- The handler's call is put into its pool. -/
def scheduleRequest (view : HandlerView) (s : AsyncConnection) : Outcome :=
  if view.isCatchNoMatch then
    let s := { s with itsQueryIsFast := true, itsAdminQuery := false }
    if a.accepts then .stop (s.await (.task .fast (.handleCompletedRead view)))
    else sendStockReply srv a .serviceUnavailable s
  else
    let s := { s with itsQueryIsFast := srv.slowPoolSize == 0 || view.queryIsFast }
    let pool := if s.itsAdminQuery then .admin else if s.itsQueryIsFast then .fast else .slow
    if a.accepts then .stop (s.await (.task pool (.handleCompletedRead view)))
    else sendStockReply srv a srv.spine.highLoad s

/-- The request goes to `OPTIONS *`, to no handler or into the pools. -/
def routeRequest (s : AsyncConnection) : Outcome :=
  if s.itsRequest.method = .options && s.itsRequest.resource == "*".toList then
    .reply .options (setServerHeaders srv a { s with itsResponse := srv.spine.stockOptionsResponse })
      .none
  else
    match srv.spine.getHandlerView s.itsRequest with
    | none => sendStockReply srv a .notFound s
    | some view =>
      let s :=
        { s with itsAdminQuery := !view.isCatchNoMatch && view.isAdminQuery && srv.adminPoolSize > 0 }
      if !s.itsAdminQuery && a.loadHigh then sendStockReply srv a srv.spine.highLoad s
      else scheduleRequest srv a view s

/-- A complete request. -/
def handleParsedRequest (s : AsyncConnection) : Outcome :=
  let s := s.emit (.parsed s.itsRequest)
  match resolveClientIP srv a s with
  | none => .stop (s.emit .peerUnknown)
  | some s =>
    let s := negotiate srv s
    if s.itsResponseVersion = .v1_1 && (s.itsRequest.headers.get "Host".toList).isNone then
      sendStockReply srv a .badRequest { s with itsKeepAlive := false }
    else routeRequest srv a (prepareRequest s)

/-- The expectation of a header section, and whether reading goes on. -/
def handleExpectContinue (s : AsyncConnection) : Outcome × Bool :=
  if s.itsExpectHandled then (.stop s, true)
  else
    let head := peekRequestHead s.itsBuffer
    if !head.complete then (.stop s, true)
    else
      let s := { s with itsExpectHandled := true }
      if head.expect.isEmpty then (.stop s, true)
      else if negotiateVersion srv.spine head.version ≠ .v1_1 then (.stop s, true)
      else if hasHeaderToken head.expect "100-continue".toList then
        let continueReply := "HTTP/1.1 100 Continue\r\n\r\n".toList
        let err := s.world.writeFails continueReply a.interimWrite
        let s := write .interim continueReply a.interimWrite s
        if err then (.stop { s with itsFinalStatus := .other, itsKeepAlive := false }, false)
        else (.stop s, true)
      else (sendStockReply srv a .expectationFailed { s with itsKeepAlive := false }, false)

/-- An incomplete request. -/
def handleIncompleteRequest (s : AsyncConnection) : Outcome :=
  if srv.itsMaxHeaderSize > 0 && s.itsBuffer.length > srv.itsMaxHeaderSize
      && (find crlfcrlf s.itsBuffer 0).isNone then
    sendStockReply srv a .requestHeaderFieldsTooLarge { s with itsKeepAlive := false }
  else
    let p := handleExpectContinue srv a s
    if p.2 then .stop (startRead p.1.state) else p.1

/-- The request at the front of the buffer. -/
def parseBuffer (s : AsyncConnection) : Outcome :=
  match srv.spine.parseOneRequest s.itsBuffer with
  | .complete request consumed =>
    let rest := s.itsBuffer.drop consumed
    handleParsedRequest srv a
      { s with itsRequest := request, itsBuffer := rest, itsReceivedBytes := rest.length }
  | .failed => sendStockReply srv a .badRequest s
  | .incomplete => handleIncompleteRequest srv a s

/-- `handleRead` with success, behind the swap of the timer. -/
def handleReadBytes (bytes : Bytes) (s : AsyncConnection) : Outcome :=
  let s := { s with itsReceivedBytes := s.itsReceivedBytes + bytes.length }
  if srv.itsMaxRequestSize > 0 && s.itsReceivedBytes > srv.itsMaxRequestSize then
    sendStockReply srv a .requestEntityTooLarge s
  else parseBuffer srv a { s with itsBuffer := s.itsBuffer ++ bytes }

/-! ## The functions of the reply paths -/

/-- The getter of the next chunk is put into its pool. -/
def scheduleGetter (task : Task) (s : AsyncConnection) : Outcome :=
  if a.accepts then .stop (s.await (.task (chunkPool s) task))
  else sendStockReply srv a .serviceUnavailable { s.emit .refused with itsKeepAlive := false }

/-- The end of a stream of announced length. -/
def finishStream (status : StreamerStatus) (s : AsyncConnection) : Outcome :=
  let s := notifyBackendFinished status (finalizeStreamLogging s)
  .finish
    { s with
      itsKeepAlive := s.itsKeepAlive && s.itsTotalStreamedBytes == s.itsDeclaredContentLength }

/-- The next chunk of such a stream. -/
def getNextChunk (s : AsyncConnection) : Outcome :=
  match getStreamingStatus a s.itsResponse with
  | .ok =>
    match nextContent a s.itsResponse with
    | none => .stop s
    | some content =>
      if !content.isEmpty then .stop (sendChunk .writeStreamReply content (takeChunk content s))
      else
        let s := takeChunk content s
        if flushFails a s then .stop (flushPendingHeaders a s)
        else scheduleGetter srv a .getNextChunk (flushPendingHeaders a s)
  | status =>
    let s := s.emit (.streamEnded status s.itsResponse.hasStreamContent)
    if flushFails a s then .stop (flushPendingHeaders a s)
    else finishStream status (flushPendingHeaders a s)

/-- The next chunk of a chunked stream. -/
def getNextChunkedChunk (s : AsyncConnection) : Outcome :=
  match getStreamingStatus a s.itsResponse with
  | .ok =>
    match nextContent a s.itsResponse with
    | none => .stop s
    | some content =>
      if !content.isEmpty then
        .stop (sendChunk .writeChunkedReply
          (convertToHex content.length ++ crlf ++ content ++ crlf) (takeChunk content s))
      else
        let s := takeChunk content s
        if flushFails a s then .stop (flushPendingHeaders a s)
        else scheduleGetter srv a .getNextChunkedChunk (flushPendingHeaders a s)
  | status =>
    let s := notifyBackendFinished status
      (s.emit (.streamEnded status s.itsResponse.hasStreamContent))
    if status ≠ .exitOk then .stop (abandonChunked a s)
    else .stop (sendChunk .finalizeChunkedReply "0\r\n\r\n".toList s)

/-- The common part of the completion handlers of the writes. -/
def continueWrite (handler : WriteHandler) (e : ErrorCode) (n : ℕ)
    (next : AsyncConnection → Outcome) (failed : Books)
    (s : AsyncConnection) : Outcome :=
  let s := { s with itsFinalStatus := e }
  if e = .success then
    let s := { s with itsSentBytes := s.itsSentBytes + n }
    if s.itsSentBytes < s.itsResponseString.length then
      .stop (asyncWriteSome handler (s.itsResponseString.drop s.itsSentBytes) s)
    else next s
  else
    .reply (.stock .serviceUnavailable)
      (stockResponse srv a .serviceUnavailable { s with itsKeepAlive := false }) failed

/-- The completion handler of a write. -/
def runWriteHandler (handler : WriteHandler) (e : ErrorCode) (n : ℕ) (s : AsyncConnection) :
    Outcome :=
  match handler with
  | .writeRegularReply =>
    continueWrite srv a .writeRegularReply e n
      (fun s => .finish (notifyBackendFinished .exitOk s)) .none s
  | .writeStreamReply =>
    continueWrite srv a .writeStreamReply e n (scheduleGetter srv a .getNextChunk)
      (.logAndNotify (getStreamingStatus a)) s
  | .writeChunkedReply =>
    continueWrite srv a .writeChunkedReply e n (scheduleGetter srv a .getNextChunkedChunk)
      (.logAndNotify (getStreamingStatus a)) s
  | .finalizeChunkedReply =>
    continueWrite srv a .finalizeChunkedReply e n
      (fun s => .finish (finalizeStreamLogging s)) .log s

/-- A stream of announced length. -/
def startStreamReply (s : AsyncConnection) : Outcome :=
  let declared := s.itsResponse.getContentLength
  let s :=
    { s with
      itsDeclaredContentLength := declared
      itsResponse := s.itsResponse.setHeader "Content-Length".toList (toDecimal declared) }
  getNextChunk srv a (preparePendingHeaders srv s)

/-- A stream in the chunked coding. -/
def startChunkedReply (s : AsyncConnection) : Outcome :=
  let r := s.itsResponse.setHeader "Transfer-Encoding".toList "chunked".toList
  let s := { s with itsResponse := r.removeHeader "Content-Length".toList }
  getNextChunkedChunk srv a (preparePendingHeaders srv s)

/-- The reply path of a handler's response. -/
def startReply (s : AsyncConnection) : Outcome :=
  if s.itsHeadRequest then
    .stop (startRegularReply srv (setServerHeaders srv a (s.emit (.started .regular))))
  else if s.itsResponse.hasStreamContent then
    if s.itsResponse.isGatewayResponse then
      getNextChunk srv a { s.emit (.started .gateway) with itsKeepAlive := false }
    else if s.itsResponse.chunked then
      startChunkedReply srv a (setServerHeaders srv a (s.emit (.started .chunked)))
    else startStreamReply srv a (setServerHeaders srv a (s.emit (.started .stream)))
  else .stop (startRegularReply srv (setServerHeaders srv a (s.emit (.started .regular))))

/-- The handler is called. -/
def callHandler (s : AsyncConnection) : Outcome :=
  let s := (s.emit (.clientStarted s.itsRequest.clientIP)).emit (.dispatched s.itsRequest)
  match a.handler with
  | .threw => .stop s
  | .returned success response disconnected =>
    let s := { s.emit (.handled response) with itsResponse := response }
    if disconnected then .stop s
    else if !success then sendStockReply srv a .badRequest s
    else startReply srv a s

/-- The part of `callHandler` from the return of the plugin on. -/
def returnFromHandler (s : AsyncConnection) : Outcome :=
  match a.handler with
  | .threw => .stop s
  | .returned success response disconnected =>
    let s := { s.emit (.handled response) with itsResponse := response }
    if disconnected then .stop s
    else if !success then sendStockReply srv a .badRequest s
    else startReply srv a s

/-- The connection in the call of its plugin. -/
def called (s : AsyncConnection) : AsyncConnection :=
  (s.emit (.clientStarted s.itsRequest.clientIP)).emit (.dispatched s.itsRequest)

/-- The connection with the response of its plugin. -/
def handled (response : Response) (s : AsyncConnection) : AsyncConnection :=
  { s.emit (.handled response) with itsResponse := response }

/-- The exchange has the request the plugin was given, and the plugin's response. -/
theorem exchange_handled (response : Response) (s : AsyncConnection) :
    (handled response (called s)).exchange =
      { s.exchange with
        dispatched := s.exchange.dispatched ++ [s.itsRequest]
        handled := some response } := rfl

/-- The call of the handler, in its two parts. -/
theorem callHandler_eq (s : AsyncConnection) :
    callHandler srv a s = returnFromHandler srv a (called s) := rfl

/-- **What follows the return of the plugin**: nothing if it threw or the client is gone,
a 400 if it failed, and else the reply to its response. -/
theorem returnFromHandler_cases (s : AsyncConnection) :
    a.handler = .threw ∧ returnFromHandler srv a s = .stop s ∨
    ∃ response,
      (∃ success, a.handler = .returned success response true) ∧
        returnFromHandler srv a s = .stop (handled response s) ∨
      a.handler = .returned false response false ∧
        returnFromHandler srv a s = sendStockReply srv a .badRequest (handled response s) ∨
      a.handler = .returned true response false ∧
        returnFromHandler srv a s = startReply srv a (handled response s) := by
  unfold returnFromHandler
  cases a.handler with
  | threw => exact Or.inl ⟨rfl, rfl⟩
  | returned success response disconnected =>
    refine Or.inr ⟨response, ?_⟩
    cases disconnected with
    | true => exact Or.inl ⟨⟨success, rfl⟩, rfl⟩
    | false =>
      cases success with
      | false => exact Or.inr (Or.inl ⟨rfl, rfl⟩)
      | true => exact Or.inr (Or.inr ⟨rfl, rfl⟩)

/-- `handleCompletedRead` behind the cancellation of the timer. -/
def handleCompletedRead (s : AsyncConnection) : Outcome :=
  if s.itsPrematurelyDisconnected then .stop s
  else if s.world.socket = .closed then .stop s
  else callHandler srv a s

/-! ## The handlers a step calls -/

/-- The completion handler of a read. -/
def handleRead (e : ErrorCode) (bytes : Bytes) (s : AsyncConnection) : Outcome :=
  if s.world.shutdownRequested then sendStockReply srv a srv.spine.shutdown s
  else
    let s := { s with itsFinalStatus := e }
    if e = .success then handleReadBytes srv a bytes (leaveIdle srv s)
    else .stop (handleReadError s)

/-- A task of the pools. -/
def runTask (task : Task) (s : AsyncConnection) : Outcome :=
  match task with
  | .handleCompletedRead _ => handleCompletedRead srv a (cancelTimer s)
  | .getNextChunk => getNextChunk srv a s
  | .getNextChunkedChunk => getNextChunkedChunk srv a s

/-- The completion handler of the timer. -/
def handleTimer (err : ErrorCode) (generation : ℕ) (s : AsyncConnection) : Outcome :=
  if err = .operationAborted then .stop s
  else if generation ≠ s.itsTimerGeneration then .stop s
  else
    let s := { s with hasTimedOut := true }
    if s.itsIdle then .stop (closeSocket s)
    else sendStockReply srv a .requestTimeout { s with itsKeepAlive := false }

/-- The handler an event calls. -/
def step (s : AsyncConnection) : Event → Option Outcome
  | .readFails i e a =>
    match s.world.outstanding[i]? with
    | some .read => if e ≠ .success then some (handleRead srv a e [] (s.release i)) else none
    | _ => none
  | .runRead i a =>
    match s.world.outstanding[i]? with
    | some (.handleRead bytes) => some (handleRead srv a .success bytes (s.release i))
    | _ => none
  | .runTask i a =>
    match s.world.outstanding[i]? with
    | some (.task _ task) => some (runTask srv a task (s.release i))
    | _ => none
  | .writeSome i n a =>
    match s.world.outstanding[i]? with
    | some (.write handler buffer) =>
      if n ≤ buffer.length ∧ s.world.socket = .open then
        some (runWriteHandler srv a handler .success n
          ((s.release i).emit (.wrote .handler (buffer.take n))))
      else none
    | _ => none
  | .writeFails i a =>
    match s.world.outstanding[i]? with
    | some (.write handler _) =>
      some (runWriteHandler srv a handler .other 0 (s.release i).failWrite)
    | _ => none
  | .runTimer generation a =>
    match s.readyWait generation with
    | some w =>
      some (handleTimer srv a (if w.status = .aborted then .operationAborted else .success)
        generation { s with world.waits := s.world.waits.erase w })
    | none => none
  | e => (AsyncConnection.step srv s e).map .stop

end Tail

/-- What the outside answers in a step. -/
def Event.answers : Event → Answers
  | .readFails _ _ a => a
  | .runRead _ a => a
  | .runTask _ a => a
  | .writeSome _ _ a => a
  | .writeFails _ a => a
  | .runTimer _ a => a
  | _ => {}

namespace AsyncConnection

variable (srv : Server) (a : Answers)

/-! ## The last call completes the function -/

/-- `scheduleRequest` is its tail and the last call; -/
theorem scheduleRequest_eq (view : HandlerView) (s : AsyncConnection) :
    scheduleRequest srv a view s = (Tail.scheduleRequest srv a view s).run srv a := by
  unfold scheduleRequest Tail.scheduleRequest
  cases view.isCatchNoMatch <;> cases a.accepts <;> rfl

/-- the same holds of `routeRequest`, -/
theorem routeRequest_eq (s : AsyncConnection) :
    routeRequest srv a s = (Tail.routeRequest srv a s).run srv a := by
  unfold routeRequest Tail.routeRequest
  split
  · rfl
  · cases srv.spine.getHandlerView s.itsRequest with
    | none => rfl
    | some view =>
      dsimp only
      split
      · rfl
      · exact scheduleRequest_eq srv a view _

/-- of `handleParsedRequest`, -/
theorem handleParsedRequest_eq (s : AsyncConnection) :
    handleParsedRequest srv a s = (Tail.handleParsedRequest srv a s).run srv a := by
  unfold handleParsedRequest Tail.handleParsedRequest
  dsimp only
  cases resolveClientIP srv a (s.emit (.parsed s.itsRequest)) with
  | none => rfl
  | some u =>
    dsimp only
    split
    · rfl
    · exact routeRequest_eq srv a _

/-- `handleIncompleteRequest`, -/
theorem handleIncompleteRequest_eq (s : AsyncConnection) :
    handleIncompleteRequest srv a s = (Tail.handleIncompleteRequest srv a s).run srv a := by
  unfold handleIncompleteRequest Tail.handleIncompleteRequest
  split
  · rfl
  · unfold handleExpectContinue Tail.handleExpectContinue
    split
    · rfl
    · dsimp only
      split
      · rfl
      · split
        · rfl
        · split
          · rfl
          · split
            · split
              · rfl
              · rfl
            · rfl

/-- `parseBuffer`, -/
theorem parseBuffer_eq (s : AsyncConnection) :
    parseBuffer srv a s = (Tail.parseBuffer srv a s).run srv a := by
  unfold parseBuffer Tail.parseBuffer
  cases srv.spine.parseOneRequest s.itsBuffer with
  | complete request consumed => exact handleParsedRequest_eq srv a _
  | failed => rfl
  | incomplete => exact handleIncompleteRequest_eq srv a s

/-- `handleReadBytes`, whose swap of the timer comes first, -/
theorem handleReadBytes_eq (bytes : Bytes) (s : AsyncConnection) :
    handleReadBytes srv a bytes s
      = (Tail.handleReadBytes srv a bytes (leaveIdle srv s)).run srv a := by
  unfold handleReadBytes Tail.handleReadBytes
  dsimp only
  split
  · rfl
  · exact parseBuffer_eq srv a _

/-- of the getters' scheduling, -/
theorem scheduleGetter_eq (task : Task) (s : AsyncConnection) :
    scheduleGetter srv a task s = (Tail.scheduleGetter srv a task s).run srv a := by
  unfold scheduleGetter Tail.scheduleGetter
  cases a.accepts <;> rfl

/-- of `getNextChunk`, -/
theorem getNextChunk_eq (s : AsyncConnection) :
    getNextChunk srv a s = (Tail.getNextChunk srv a s).run srv a := by
  unfold getNextChunk Tail.getNextChunk
  cases getStreamingStatus a s.itsResponse with
  | ok =>
    cases nextContent a s.itsResponse with
    | none => rfl
    | some content =>
      dsimp only
      split
      · rfl
      · split
        · rfl
        · exact scheduleGetter_eq srv a _ _
  | exitOk =>
    dsimp only
    split
    · rfl
    · rfl
  | exitError =>
    dsimp only
    split
    · rfl
    · rfl

/-- `getNextChunkedChunk`, -/
theorem getNextChunkedChunk_eq (s : AsyncConnection) :
    getNextChunkedChunk srv a s = (Tail.getNextChunkedChunk srv a s).run srv a := by
  unfold getNextChunkedChunk Tail.getNextChunkedChunk
  cases getStreamingStatus a s.itsResponse with
  | ok =>
    cases nextContent a s.itsResponse with
    | none => rfl
    | some content =>
      dsimp only
      split
      · rfl
      · split
        · rfl
        · exact scheduleGetter_eq srv a _ _
  | exitOk => rfl
  | exitError => rfl

/-- of a completed write, when it does of what follows, -/
theorem continueWrite_eq (handler : WriteHandler) (e : ErrorCode) (n : ℕ)
    (next failed : AsyncConnection → AsyncConnection) (nextTail : AsyncConnection → Outcome)
    (books : Books) (h : ∀ s, next s = (nextTail s).run srv a) (hb : failed = books.keep)
    (s : AsyncConnection) :
    continueWrite srv a handler e n next failed s
      = (Tail.continueWrite srv a handler e n nextTail books s).run srv a := by
  subst hb
  unfold continueWrite Tail.continueWrite
  dsimp only
  split
  · split
    · rfl
    · exact h _
  · rfl

/-- of the completion handlers of the writes, -/
theorem runWriteHandler_eq (handler : WriteHandler) (e : ErrorCode) (n : ℕ)
    (s : AsyncConnection) :
    runWriteHandler srv a handler e n s
      = (Tail.runWriteHandler srv a handler e n s).run srv a := by
  cases handler with
  | writeRegularReply =>
    exact continueWrite_eq srv a _ e n _ _ (fun s => .finish (notifyBackendFinished .exitOk s))
      .none (fun _ => rfl) rfl s
  | writeStreamReply =>
    exact continueWrite_eq srv a .writeStreamReply e n _ _ _ (.logAndNotify (getStreamingStatus a))
      (scheduleGetter_eq srv a .getNextChunk) rfl s
  | writeChunkedReply =>
    exact continueWrite_eq srv a .writeChunkedReply e n _ _ _ (.logAndNotify (getStreamingStatus a))
      (scheduleGetter_eq srv a .getNextChunkedChunk) rfl s
  | finalizeChunkedReply =>
    exact continueWrite_eq srv a _ e n _ _ (fun s => .finish (finalizeStreamLogging s)) .log
      (fun _ => rfl) rfl s

/-- of `startReply`, -/
theorem startReply_eq (s : AsyncConnection) :
    startReply srv a s = (Tail.startReply srv a s).run srv a := by
  unfold startReply Tail.startReply
  split
  · rfl
  · split
    · split
      · exact getNextChunk_eq srv a _
      · split
        · exact getNextChunkedChunk_eq srv a _
        · exact getNextChunk_eq srv a _
    · rfl

/-- `callHandler`, -/
theorem callHandler_eq (s : AsyncConnection) :
    callHandler srv a s = (Tail.callHandler srv a s).run srv a := by
  unfold callHandler Tail.callHandler
  dsimp only
  cases a.handler with
  | threw => rfl
  | returned success response disconnected =>
    dsimp only
    split
    · rfl
    · split
      · rfl
      · exact startReply_eq srv a _

/-- `handleCompletedRead`, whose cancellation comes first, -/
theorem handleCompletedRead_eq (s : AsyncConnection) :
    handleCompletedRead srv a s
      = (Tail.handleCompletedRead srv a (cancelTimer s)).run srv a := by
  unfold handleCompletedRead Tail.handleCompletedRead
  dsimp only
  split
  · rfl
  · split
    · rfl
    · exact callHandler_eq srv a _

/-- `handleRead`, -/
theorem handleRead_eq (e : ErrorCode) (bytes : Bytes) (s : AsyncConnection) :
    handleRead srv a e bytes s = (Tail.handleRead srv a e bytes s).run srv a := by
  unfold handleRead Tail.handleRead
  split
  · rfl
  · dsimp only
    split
    · exact handleReadBytes_eq srv a bytes _
    · rfl

/-- of the tasks -/
theorem runTask_eq (task : Task) (s : AsyncConnection) :
    runTask srv a task s = (Tail.runTask srv a task s).run srv a := by
  cases task with
  | handleCompletedRead view => exact handleCompletedRead_eq srv a s
  | getNextChunk => exact getNextChunk_eq srv a s
  | getNextChunkedChunk => exact getNextChunkedChunk_eq srv a s

/-- and of `handleTimer`. -/
theorem handleTimer_eq (err : ErrorCode) (generation : ℕ) (s : AsyncConnection) :
    handleTimer srv a err generation s
      = (Tail.handleTimer srv a err generation s).run srv a := by
  unfold handleTimer Tail.handleTimer
  split
  · rfl
  split
  · rfl
  dsimp only
  split
  · rfl
  · rfl

/-- **A step runs a completion handler up to its last call, and makes that call.** -/
theorem step_eq (s : AsyncConnection) (e : Event) :
    step srv s e = (Tail.step srv s e).map (Outcome.run srv e.answers) := by
  cases e with
  | readFails i err a =>
    simp only [step, Tail.step, handleRead_eq]
    cases s.world.outstanding[i]? with
    | none => rfl
    | some x =>
      cases x with
      | read =>
        dsimp only
        split
        · rfl
        · rfl
      | _ => rfl
  | runRead i a =>
    simp only [step, Tail.step, handleRead_eq]
    cases s.world.outstanding[i]? with
    | none => rfl
    | some x =>
      cases x with
      | handleRead bytes => rfl
      | _ => rfl
  | runTask i a =>
    simp only [step, Tail.step, runTask_eq]
    cases s.world.outstanding[i]? with
    | none => rfl
    | some x =>
      cases x with
      | task pool task => rfl
      | _ => rfl
  | writeSome i n a =>
    simp only [step, Tail.step, runWriteHandler_eq]
    cases s.world.outstanding[i]? with
    | none => rfl
    | some x =>
      cases x with
      | write handler buffer =>
        dsimp only
        split
        · rfl
        · rfl
      | _ => rfl
  | writeFails i a =>
    simp only [step, Tail.step, runWriteHandler_eq]
    cases s.world.outstanding[i]? with
    | none => rfl
    | some x =>
      cases x with
      | write handler buffer => rfl
      | _ => rfl
  | runTimer generation a =>
    simp only [step, Tail.step, handleTimer_eq]
    cases s.readyWait generation with
    | none => rfl
    | some w => rfl
  | handshake i ok =>
    show _ = ((step srv s (.handshake i ok)).map Outcome.stop).map _
    rw [Option.map_map]
    exact Option.map_id'.symm
  | receive i bytes =>
    show _ = ((step srv s (.receive i bytes)).map Outcome.stop).map _
    rw [Option.map_map]
    exact Option.map_id'.symm
  | timerExpires =>
    show _ = ((step srv s .timerExpires).map Outcome.stop).map _
    rw [Option.map_map]
    exact Option.map_id'.symm
  | requestShutdown =>
    rfl

/-- A step of the connection, by the handler it calls. -/
theorem exists_outcome {s s' : AsyncConnection} {e : Event} (h : step srv s e = some s') :
    ∃ o, Tail.step srv s e = some o ∧ s' = o.run srv e.answers := by
  rw [step_eq, Option.map_eq_some_iff] at h
  obtain ⟨o, ho, rfl⟩ := h
  exact ⟨o, ho, rfl⟩

end AsyncConnection

end SmartMet
