/-
# The connection's functions (`source/AsyncConnection.cpp`)

Each member function is a function on the state under its own name.  What the
outside answers while one of them runs (the clock, the socket, the reactor, the
executors, the handler, the streamer) is in `Answers`; a function that ends by
an exception its caller catches leaves the state where the exception was thrown.

Encrypted and plain sockets differ in no member and no byte of the plain text,
so the two branches of every read and write are one here.
-/
import SmartMetServer.Connection

namespace SmartMet

/-- What comes of `HandlerView::handle` and of the cancellation token. -/
inductive HandlerResult where
  | threw
  | returned (success : Bool) (response : Response) (disconnected : Bool)
  deriving DecidableEq

/-- What the outside answers while a completion handler or a pool task runs. -/
structure Answers where
  date : Bytes := []
  /-- `remote_endpoint()`; `none` when it throws. -/
  peer : Option Bytes := none
  loadHigh : Bool := false
  /-- Whether the executor takes the task. -/
  accepts : Bool := true
  interimWrite : WriteOutcome := .done
  flushWrite : WriteOutcome := .done
  headerWrite : WriteOutcome := .done
  contentWrite : WriteOutcome := .done
  handler : HandlerResult := .threw
  streamingStatus : StreamerStatus := .ok
  /-- `getStreamingStatus` of a response whose content is no stream. -/
  plainStreamingStatus : StreamerStatus := .exitOk
  /-- `getContent` of a streamer; `none` when it throws. -/
  content : Option Bytes := none
  deriving DecidableEq

namespace AsyncConnection

variable (srv : Server) (a : Answers)

/-! ## The socket and the timer -/

/-- The socket is shut down and closed. -/
def closeSocket (s : AsyncConnection) : AsyncConnection := { s with world := s.world.close }

/-- The timer is armed anew: the expiry of an earlier arming is stale from here on. -/
def armTimer (seconds : ℕ) (s : AsyncConnection) : AsyncConnection :=
  -- the stamp tells this wait from those of earlier armings
  { s with
    itsTimerGeneration := s.itsTimerGeneration + 1
    world := s.world.arm (s.itsTimerGeneration + 1) seconds }

/-- The region of `handleCompletedRead` that holds `itsMutex`. -/
def cancelTimer (s : AsyncConnection) : AsyncConnection :=
  { s with itsTimerGeneration := s.itsTimerGeneration + 1, world := s.world.cancel }

/-- `async_read_some` for the next bytes of the client. -/
def startRead (s : AsyncConnection) : AsyncConnection := s.await .read

/-- A blocking write: what goes out of `bytes` is the outside's answer `o`. -/
def write (m : Message) (bytes : Bytes) (o : WriteOutcome) (s : AsyncConnection) :
    AsyncConnection :=
  { s with world := s.world.write m bytes o }

/-- `async_write_some`. -/
def asyncWriteSome (handler : WriteHandler) (buffer : Bytes) (s : AsyncConnection) :
    AsyncConnection :=
  s.await (.write handler buffer)

/-! ## Headers set by the server -/

/-- `appendStaleDirectives`, on the response. -/
def appendStaleDirectives (r : Response) : Response :=
  if srv.staleWhileRevalidate > 0 || srv.staleIfError > 0 then
    match r.getHeader "Cache-Control".toList with
    | some cc =>
      if (find "max-age".toList cc 0).isSome && (find "stale-".toList cc 0).isNone then
        let updated :=
          if srv.staleWhileRevalidate > 0 then
            cc ++ ", stale-while-revalidate=".toList ++ toDecimal srv.staleWhileRevalidate
          else cc
        let updated :=
          if srv.staleIfError > 0 then
            updated ++ ", stale-if-error=".toList ++ toDecimal srv.staleIfError
          else updated
        r.setHeader "Cache-Control".toList updated
      else r
    | none => r
  else r

/-- The `Vary` field of `setServerHeaders`. -/
def setVary (r : Response) : Response :=
  match r.getHeader "Vary".toList with
  | none => r.setHeader "Vary".toList "Accept-Encoding".toList
  | some vary =>
    -- an empty value is replaced, any other one that lacks the name is appended to
    if vary.isEmpty then r.setHeader "Vary".toList "Accept-Encoding".toList
    else if !icontains vary "Accept-Encoding".toList then
      r.setHeader "Vary".toList (vary ++ ", Accept-Encoding".toList)
    else r

/-- The persistence `setConnectionHeaders` settles on: a chunked response to an
HTTP/1.0 client and a response in which the plugin says `close` end it. -/
def negotiatedKeepAlive (s : AsyncConnection) : Bool :=
  s.itsKeepAlive
    && !(s.itsResponse.chunked && s.itsResponseVersion != .v1_1)
    && !((s.itsResponse.getHeader "Connection".toList).any
      fun v => hasHeaderToken v "close".toList)

/-- The value of the `Keep-Alive` field. -/
def keepAliveField (s : AsyncConnection) : Bytes :=
  "timeout=".toList ++ toDecimal srv.itsKeepAliveTimeout ++
    if srv.itsMaxKeepAliveRequests > 0 then
      ", max=".toList ++ toDecimal (srv.itsMaxKeepAliveRequests - s.itsRequestCount)
    else []

/-- The `Connection` and `Keep-Alive` fields that announce `keepAlive`. -/
def announce (keepAlive : Bool) (version : HttpVersion) (field : Bytes) (r : Response) :
    Response :=
  -- HTTP/1.1 persists by default; HTTP/1.0 has to be told
  if !keepAlive then
    (r.setHeader "Connection".toList "close".toList).removeHeader "Keep-Alive".toList
  else if version = .v1_1 then
    (r.removeHeader "Connection".toList).removeHeader "Keep-Alive".toList
  else
    (r.setHeader "Connection".toList "keep-alive".toList).setHeader "Keep-Alive".toList field

/-- The version line and the fields that tell the client whether the connection stays. -/
def setConnectionHeaders (s : AsyncConnection) : AsyncConnection :=
  -- a chunked response keeps the version 1.1 its plugin has given it
  let r :=
    if s.itsResponse.chunked then s.itsResponse
    else s.itsResponse.setVersion s.itsResponseVersion.text
  let keepAlive := negotiatedKeepAlive s
  { s with
    itsKeepAlive := keepAlive
    itsResponse := announce keepAlive s.itsResponseVersion (keepAliveField srv s) r }

/-- The fields the server puts on every response it makes or forwards. -/
def setServerHeaders (s : AsyncConnection) : AsyncConnection :=
  let r := s.itsResponse.setHeader "Server".toList srv.spine.serverString
  let r := (setVary r).setHeader "Date".toList a.date
  let s := setConnectionHeaders srv { s with itsResponse := r }
  { s with itsResponse := appendStaleDirectives srv s.itsResponse }

/-! ## The end of a response -/

/-- The test at the start of `finishResponse`. -/
def mayReuse (s : AsyncConnection) : Bool :=
  s.itsKeepAlive && !s.hasTimedOut && !s.world.shutdownRequested

/-- The state reset at the start of `finishResponse`. -/
def resetRequestState (s : AsyncConnection) : AsyncConnection :=
  { s.emit .rearmed with
    itsSentBytes := 0
    itsTotalStreamedBytes := 0
    itsDeclaredContentLength := 0
    itsResponseString := []
    itsRequest := { clientIP := s.itsRequest.clientIP }
    itsResponse := {}
    itsResponseVersion := .v1_0
    itsQueryIsFast := false
    itsAdminQuery := false
    itsKeepAlive := false
    itsExpectHandled := false
    itsHeadRequest := false
    itsBackendNotified := false
    itsIdle := s.itsBuffer.isEmpty }

/-- The timer of `finishResponse`: a pipelined request is being read, an idle
connection waits for one. -/
def armForNextRequest (s : AsyncConnection) : AsyncConnection :=
  armTimer (if s.itsBuffer.isEmpty then srv.itsKeepAliveTimeout else srv.itsTimeout) s

/-- The end of `finishResponse`: the buffered request is read by a posted call,
any other from the socket. -/
def resumeReading (s : AsyncConnection) : AsyncConnection :=
  if s.itsBuffer.isEmpty then startRead s else s.await (.handleRead [])

/-- The connection is made ready for the next request, if it may be reused. -/
def finishResponse (s : AsyncConnection) : AsyncConnection :=
  -- otherwise nothing is started, and the connection dies with its last owner
  if mayReuse s then resumeReading (armForNextRequest srv (resetRequestState s)) else s

/-- The header write of `sendSimpleReply`. -/
def writeHead (m : Message) (head : Bytes) (s : AsyncConnection) : AsyncConnection :=
  write m head a.headerWrite (s.emit (.rendered m s.itsResponse head))

/-- The content write of `sendSimpleReply`, and what becomes of its error. -/
def writeContent (m : Message) (s : AsyncConnection) : AsyncConnection :=
  let content := s.itsResponse.getContent
  let err := s.world.writeFails content a.contentWrite
  let s := write m content a.contentWrite s
  { s with
    itsFinalStatus := if err then .other else .success
    itsKeepAlive := s.itsKeepAlive && !err }

/-- A response of the server's own, written at once: the header section, then the content. -/
def sendSimpleReply (m : Message) (s : AsyncConnection) : AsyncConnection :=
  match headersToString srv.spine s.itsResponse with
  -- `headersToString` throws
  | none => s
  | some head =>
    let s := writeContent a m (writeHead a m head s)
    if s.itsKeepAlive then finishResponse srv s else closeSocket s

/-- The response `sendStockReply` prepares. -/
def stockResponse (status : Status) (s : AsyncConnection) : AsyncConnection :=
  let r := s.itsResponse.setStatus srv.spine status
  let r := r.setHeader "Content-Length".toList (toDecimal r.getContentLength)
  setServerHeaders srv a { s with itsResponse := r }

/-- The page of a status, as the server answers on its own behalf. -/
def sendStockReply (status : Status) (s : AsyncConnection) : AsyncConnection :=
  sendSimpleReply srv a (.stock status) (stockResponse srv a status s)

/-! ## The timer's handler -/

/-- An expiry closes an idle connection and answers any other with a 408; a stale one does
nothing. -/
def handleTimer (err : ErrorCode) (generation : ℕ) (s : AsyncConnection) : AsyncConnection :=
  -- a wait that was cancelled in time
  if err = .operationAborted then s
  -- a stale firing: it was dequeued before it could be cancelled
  else if generation ≠ s.itsTimerGeneration then s
  else
    let s := { s with hasTimedOut := true }
    -- between requests there is nobody to answer
    if s.itsIdle then closeSocket s
    else sendStockReply srv a .requestTimeout { s with itsKeepAlive := false }

/-! ## Reading a request -/

/-- A connection that has just been accepted. -/
def start : AsyncConnection :=
  let s := armTimer srv.itsTimeout { itsCounted := true }
  if srv.itsEncryptionEnabled then s.await .handshake else startRead s

/-- Reading starts when the TLS handshake went well. -/
def handleHandshake (ok : Bool) (s : AsyncConnection) : AsyncConnection :=
  if ok then startRead s else closeSocket s

/-- `resolveClientIP`; `remote_endpoint()` throws on a closed socket. -/
def resolveClientIP (s : AsyncConnection) : Option AsyncConnection :=
  if s.world.socket = .closed then none
  else
    a.peer.map fun peerIP =>
      { s with
        itsRequest.clientIP := srv.spine.resolveClientIP peerIP
          (s.itsRequest.headers.get "X-Forwarded-For".toList) }

/-- Whether the connection may serve a further request, by the settings and the request's
fields. -/
def evaluateKeepAlive (s : AsyncConnection) : Bool :=
  if !srv.itsKeepAliveEnabled then false
  else if s.world.shutdownRequested then false
  else if srv.itsMaxKeepAliveRequests > 0 && s.itsRequestCount ≥ srv.itsMaxKeepAliveRequests then
    false
  else
    match s.itsResponseVersion, s.itsRequest.headers.get "Connection".toList with
    | .v1_1, connection => !(connection.any fun v => hasHeaderToken v "close".toList)
    | .v1_0, some connection => hasHeaderToken connection "keep-alive".toList
    | .v1_0, none =>
      (s.itsRequest.headers.get "Proxy-Connection".toList).any
        fun v => hasHeaderToken v "keep-alive".toList

/-- The loop of `stripHopByHopHeaders` over the `Connection` list. -/
def listedFrom (connection : Bytes) : ℕ → ℕ → List Bytes
  | 0, _ => []
  | fuel + 1, pos =>
    if pos ≤ connection.length then
      let stop := (find [','] connection pos).getD connection.length
      (listElement connection pos stop).toList ++ listedFrom connection fuel (stop + 1)
    else []

/-- The fields that are never handed on to a plugin. -/
def hopByHop : List Bytes :=
  ["Connection".toList, "Keep-Alive".toList, "Proxy-Connection".toList,
    "Proxy-Authenticate".toList, "Proxy-Authorization".toList, "TE".toList, "Trailer".toList]

/-- `stripHopByHopHeaders`, on the header map of the request. -/
def stripHopByHopHeaders (headers : HeaderMap) : HeaderMap :=
  let listed :=
    match headers.get "Connection".toList with
    | some connection => listedFrom connection (connection.length + 1) 0
    | none => []
  listed.foldl HeaderMap.remove (hopByHop.foldl HeaderMap.remove headers)

/-- The request as it is handed on: HEAD becomes GET, and is named in the
internal header no client can set. -/
def maskHead (r : Request) : Request :=
  let headers := r.headers.remove "X-SmartMet-Original-Method".toList
  if r.method = .head then
    { r with
      method := .get
      headers := headers.set "X-SmartMet-Original-Method".toList "HEAD".toList }
  else { r with headers := headers }

/-- `scheduleRequest`. -/
def scheduleRequest (view : HandlerView) (s : AsyncConnection) : AsyncConnection :=
  if view.isCatchNoMatch then
    let s := { s with itsQueryIsFast := true, itsAdminQuery := false }
    if a.accepts then s.await (.task .fast (.handleCompletedRead view))
    else sendStockReply srv a .serviceUnavailable s
  else
    let s := { s with itsQueryIsFast := srv.slowPoolSize == 0 || view.queryIsFast }
    let pool := if s.itsAdminQuery then .admin else if s.itsQueryIsFast then .fast else .slow
    if a.accepts then s.await (.task pool (.handleCompletedRead view))
    else sendStockReply srv a srv.spine.highLoad s

/-- The end of `handleParsedRequest`: where the handler is put. -/
def routeRequest (s : AsyncConnection) : AsyncConnection :=
  if s.itsRequest.method = .options && s.itsRequest.resource == "*".toList then
    sendSimpleReply srv a .options
      (setServerHeaders srv a { s with itsResponse := srv.spine.stockOptionsResponse })
  else
    match srv.spine.getHandlerView s.itsRequest with
    | none => sendStockReply srv a .notFound s
    | some view =>
      let s :=
        { s with itsAdminQuery := !view.isCatchNoMatch && view.isAdminQuery && srv.adminPoolSize > 0 }
      if !s.itsAdminQuery && a.loadHigh then sendStockReply srv a srv.spine.highLoad s
      else scheduleRequest srv a view s

/-- The negotiation of `handleParsedRequest`: the request is counted, and the
version and the persistence of the reply are settled. -/
def negotiate (s : AsyncConnection) : AsyncConnection :=
  let s :=
    { s with
      itsRequestCount := s.itsRequestCount + 1
      itsResponseVersion := negotiateVersion srv.spine s.itsRequest.version }
  { s with itsKeepAlive := evaluateKeepAlive srv s }

/-- The request is made fit for a handler, and a HEAD is remembered. -/
def prepareRequest (s : AsyncConnection) : AsyncConnection :=
  let r := { s.itsRequest with headers := stripHopByHopHeaders s.itsRequest.headers }
  { s with
    itsRequest := maskHead r
    itsHeadRequest := r.method = .head }

/-- A complete request: it is counted and negotiated, and goes to its handler. -/
def handleParsedRequest (s : AsyncConnection) : AsyncConnection :=
  let s := s.emit (.parsed s.itsRequest)
  match resolveClientIP srv a s with
  -- `remote_endpoint` throws: the request goes nowhere, the timer ends the connection
  | none => s.emit .peerUnknown
  | some s =>
    let s := negotiate srv s
    if s.itsResponseVersion = .v1_1 && (s.itsRequest.headers.get "Host".toList).isNone then
      sendStockReply srv a .badRequest { s with itsKeepAlive := false }
    else routeRequest srv a (prepareRequest s)

/-- `handleExpectContinue`: the state, and whether reading goes on. -/
def handleExpectContinue (s : AsyncConnection) : AsyncConnection × Bool :=
  if s.itsExpectHandled then (s, true)
  else
    let head := peekRequestHead s.itsBuffer
    if !head.complete then (s, true)
    else
      -- looked at once for a request, when its header section is whole
      let s := { s with itsExpectHandled := true }
      if head.expect.isEmpty then (s, true)
      -- an HTTP/1.0 client does not know the field
      else if negotiateVersion srv.spine head.version ≠ .v1_1 then (s, true)
      else if hasHeaderToken head.expect "100-continue".toList then
        let continueReply := "HTTP/1.1 100 Continue\r\n\r\n".toList
        let err := s.world.writeFails continueReply a.interimWrite
        let s := write .interim continueReply a.interimWrite s
        if err then ({ s with itsFinalStatus := .other, itsKeepAlive := false }, false)
        else (s, true)
      else (sendStockReply srv a .expectationFailed { s with itsKeepAlive := false }, false)

/-- More bytes are awaited, unless the header section is too long or its expectation
settles the request. -/
def handleIncompleteRequest (s : AsyncConnection) : AsyncConnection :=
  -- only a header section without an end is too long
  if srv.itsMaxHeaderSize > 0 && s.itsBuffer.length > srv.itsMaxHeaderSize
      && (find crlfcrlf s.itsBuffer 0).isNone then
    sendStockReply srv a .requestHeaderFieldsTooLarge { s with itsKeepAlive := false }
  else
    let p := handleExpectContinue srv a s
    if p.2 then startRead p.1 else p.1

/-- `itsIdle.exchange(false)`: the first bytes of the next request swap the timer
back to the time limit of a request. -/
def leaveIdle (s : AsyncConnection) : AsyncConnection :=
  if s.itsIdle && !s.hasTimedOut then armTimer srv.itsTimeout { s with itsIdle := false }
  else { s with itsIdle := false }

/-- The request at the front of the buffer. -/
def parseBuffer (s : AsyncConnection) : AsyncConnection :=
  match srv.spine.parseOneRequest s.itsBuffer with
  | .complete request consumed =>
    let rest := s.itsBuffer.drop consumed
    handleParsedRequest srv a
      { s with itsRequest := request, itsBuffer := rest, itsReceivedBytes := rest.length }
  | .failed => sendStockReply srv a .badRequest s
  | .incomplete => handleIncompleteRequest srv a s

/-- `handleRead` with success. -/
def handleReadBytes (bytes : Bytes) (s : AsyncConnection) : AsyncConnection :=
  let s := leaveIdle srv s
  let s := { s with itsReceivedBytes := s.itsReceivedBytes + bytes.length }
  -- the bytes of a following request count too
  if srv.itsMaxRequestSize > 0 && s.itsReceivedBytes > srv.itsMaxRequestSize then
    sendStockReply srv a .requestEntityTooLarge s
  else parseBuffer srv a { s with itsBuffer := s.itsBuffer ++ bytes }

/-- `handleReadError` only writes to the log. -/
def handleReadError (s : AsyncConnection) : AsyncConnection := s.emit .readError

/-- The completion handler of a read. -/
def handleRead (e : ErrorCode) (bytes : Bytes) (s : AsyncConnection) : AsyncConnection :=
  if s.world.shutdownRequested then sendStockReply srv a srv.spine.shutdown s
  else
    let s := { s with itsFinalStatus := e }
    if e = .success then handleReadBytes srv a bytes s else handleReadError s

/-! ## Ends of a streamed response -/

/-- `notifyBackendFinished`: at most once per response, for responses from a
backend. -/
def notifyBackendFinished (status : StreamerStatus) (s : AsyncConnection) : AsyncConnection :=
  if s.itsBackendNotified || s.itsResponse.itsOriginatingBackend.isEmpty then s
  else { s.emit (.backendFinished status) with itsBackendNotified := true }

/-- `finalizeStreamLogging`: the completion handler removes itself. -/
def finalizeStreamLogging (s : AsyncConnection) : AsyncConnection :=
  if s.itsResponse.streamCompletionHandler then
    { s.emit (.streamLogged s.itsTotalStreamedBytes) with
      itsResponse.streamCompletionHandler := false }
  else s

/-- The pool `scheduleChunkGetter` and `scheduleChunkedChunkGetter` use. -/
def chunkPool (s : AsyncConnection) : Pool :=
  if s.itsAdminQuery then .admin else if s.itsQueryIsFast then .fast else .slow

/-- The common body of `scheduleChunkGetter` and `scheduleChunkedChunkGetter`. -/
def scheduleGetter (task : Task) (s : AsyncConnection) : AsyncConnection :=
  if a.accepts then s.await (.task (chunkPool s) task)
  -- aborting in the middle of the body leaves the response unframed
  else sendStockReply srv a .serviceUnavailable { s.emit .refused with itsKeepAlive := false }

/-- The getter of the next chunk is put into its pool. -/
def scheduleChunkGetter (s : AsyncConnection) : AsyncConnection :=
  scheduleGetter srv a .getNextChunk s

/-- The same for a chunked response. -/
def scheduleChunkedChunkGetter (s : AsyncConnection) : AsyncConnection :=
  scheduleGetter srv a .getNextChunkedChunk s

/-- `flushPendingHeaders`: the state after the write. -/
def flushPendingHeaders (s : AsyncConnection) : AsyncConnection :=
  if s.itsPendingHeaders.isEmpty then s
  else
    let err := s.world.writeFails s.itsPendingHeaders a.flushWrite
    let s := write .handler s.itsPendingHeaders a.flushWrite s
    { s with
      itsPendingHeaders := []
      itsFinalStatus := if err then .other else s.itsFinalStatus }

/-- Whether `flushPendingHeaders` returns false. -/
def flushFails (s : AsyncConnection) : Bool :=
  s.world.writeFails s.itsPendingHeaders a.flushWrite

/-! ## The next chunk -/

/-- The bytes of a chunk go out behind the pending header section. -/
def sendChunk (handler : WriteHandler) (wire : Bytes) (s : AsyncConnection) : AsyncConnection :=
  asyncWriteSome handler (s.itsPendingHeaders ++ wire)
    { s with
      itsResponseString := s.itsPendingHeaders ++ wire
      itsPendingHeaders := []
      itsSentBytes := 0 }

/-- `itsResponse->getStreamingStatus()`: the streamer's, or that of a page in the
streamer's place. -/
def getStreamingStatus (r : Response) : StreamerStatus :=
  if r.hasStreamContent then a.streamingStatus else a.plainStreamingStatus

/-- `itsResponse->getContent()` in a getter: a chunk of the streamer, `none` when it
throws, or the page in the streamer's place. -/
def nextContent (r : Response) : Option Bytes :=
  if r.hasStreamContent then a.content else some r.getContent

/-- A getter was given a chunk: its bytes are counted. -/
def takeChunk (content : Bytes) (s : AsyncConnection) : AsyncConnection :=
  { s.emit (.chunk content s.itsResponse.hasStreamContent) with
    itsTotalStreamedBytes := s.itsTotalStreamedBytes + content.length }

/-- A stream that has ended: the announced length decides about the reuse. -/
def finishStream (status : StreamerStatus) (s : AsyncConnection) : AsyncConnection :=
  let s := notifyBackendFinished status (finalizeStreamLogging s)
  finishResponse srv
    { s with
      itsKeepAlive := s.itsKeepAlive && s.itsTotalStreamedBytes == s.itsDeclaredContentLength }

/-- The next chunk of a stream of announced length, or the end of the stream. -/
def getNextChunk (s : AsyncConnection) : AsyncConnection :=
  match getStreamingStatus a s.itsResponse with
  | .ok =>
    match nextContent a s.itsResponse with
    -- the streamer throws
    | none => s
    | some content =>
      if !content.isEmpty then sendChunk .writeStreamReply content (takeChunk content s)
      else
        -- an empty chunk: the header section goes out by itself, and the getter is asked again
        let s := takeChunk content s
        if flushFails a s then flushPendingHeaders a s
        else scheduleChunkGetter srv a (flushPendingHeaders a s)
  | status =>
    let s := s.emit (.streamEnded status s.itsResponse.hasStreamContent)
    if flushFails a s then flushPendingHeaders a s
    else finishStream srv status (flushPendingHeaders a s)

/-- A chunked stream that failed: the body stays unterminated. -/
def abandonChunked (s : AsyncConnection) : AsyncConnection :=
  let s := finalizeStreamLogging (flushPendingHeaders a s)
  closeSocket { s with itsKeepAlive := false }

/-- The next chunk in the chunked coding, or the last chunk behind a stream that ended
well. -/
def getNextChunkedChunk (s : AsyncConnection) : AsyncConnection :=
  match getStreamingStatus a s.itsResponse with
  | .ok =>
    match nextContent a s.itsResponse with
    -- the streamer throws
    | none => s
    | some content =>
      if !content.isEmpty then
        sendChunk .writeChunkedReply
          (convertToHex content.length ++ crlf ++ content ++ crlf) (takeChunk content s)
      else
        -- an empty chunk is not sent: it would be the last one
        let s := takeChunk content s
        if flushFails a s then flushPendingHeaders a s
        else scheduleChunkedChunkGetter srv a (flushPendingHeaders a s)
  | status =>
    let s := notifyBackendFinished status
      (s.emit (.streamEnded status s.itsResponse.hasStreamContent))
    if status ≠ .exitOk then abandonChunked a s
    -- the last chunk, without trailers
    else sendChunk .finalizeChunkedReply "0\r\n\r\n".toList s

/-! ## Completed writes -/

/-- The common part of the four completion handlers: what is left is sent, a
reply that is complete goes on with `next`, and an error ends the connection. -/
def continueWrite (handler : WriteHandler) (e : ErrorCode) (n : ℕ)
    (next failed : AsyncConnection → AsyncConnection) (s : AsyncConnection) : AsyncConnection :=
  let s := { s with itsFinalStatus := e }
  if e = .success then
    let s := { s with itsSentBytes := s.itsSentBytes + n }
    if s.itsSentBytes < s.itsResponseString.length then
      -- a partial write: the rest is sent
      asyncWriteSome handler (s.itsResponseString.drop s.itsSentBytes) s
    else next s
  else failed (sendStockReply srv a .serviceUnavailable { s with itsKeepAlive := false })

/-- The completion handler of a buffered reply. -/
def writeRegularReply (e : ErrorCode) (n : ℕ) (s : AsyncConnection) : AsyncConnection :=
  continueWrite srv a .writeRegularReply e n
    (fun s => finishResponse srv (notifyBackendFinished .exitOk s)) id s

/-- The books behind the reply to a failed write: the response is the stock one then. -/
def logAndNotify (s : AsyncConnection) : AsyncConnection :=
  let s := finalizeStreamLogging s
  notifyBackendFinished (getStreamingStatus a s.itsResponse) s

/-- The completion handler of a chunk of a stream. -/
def writeStreamReply (e : ErrorCode) (n : ℕ) (s : AsyncConnection) : AsyncConnection :=
  continueWrite srv a .writeStreamReply e n (scheduleChunkGetter srv a)
    (logAndNotify a) s

/-- The completion handler of a chunk in the chunked coding. -/
def writeChunkedReply (e : ErrorCode) (n : ℕ) (s : AsyncConnection) : AsyncConnection :=
  continueWrite srv a .writeChunkedReply e n (scheduleChunkedChunkGetter srv a)
    (logAndNotify a) s

/-- The completion handler of the last chunk. -/
def finalizeChunkedReply (e : ErrorCode) (n : ℕ) (s : AsyncConnection) : AsyncConnection :=
  continueWrite srv a .finalizeChunkedReply e n
    (fun s => finishResponse srv (finalizeStreamLogging s)) finalizeStreamLogging s

/-! ## Starting a reply -/

/-- The response and its header section; a response whose status was left unset
becomes a 501. -/
def renderHeaders (r : Response) : Response × Bytes :=
  match headersToString srv.spine r with
  | some head => (r, head)
  -- `headersToString` throws, and the catch block sets 501 with its page
  | none =>
    let r := r.setStatus srv.spine .notImplemented
    (r, srv.spine.headerSection r)

/-- The encoding step of `startRegularReply`. -/
def encodeResponse (request : Request) (r : Response) : Response :=
  if srv.itsCanGzip && !r.hasStreamContent then
    let encoding :=
      selectContentEncoding srv.spine request r srv.itsCompressLimit srv.contentCodings
    if encoding.isEmpty then r else compressResponse srv.spine r encoding
  else r

/-- The entity-tag of a 304. -/
def echoETag (request : Request) (r : Response) : Response :=
  if r.status = some .notModified then
    match r.getHeader "ETag".toList with
    | some etag => r.setHeader "ETag".toList (srv.spine.notModifiedETag request etag)
    | none => r
  else r

/-- The framing fields of `startRegularReply`. -/
def frameResponse (headRequest : Bool) (r : Response) : Response :=
  if statusHasNoBody r.status then
    ((r.setContent srv.spine []).removeHeader "Content-Length".toList).removeHeader
      "Transfer-Encoding".toList
  -- what a GET would have been sent in chunks has no length to announce
  else if headRequest && r.chunked then
    (r.removeHeader "Content-Length".toList).removeHeader "Transfer-Encoding".toList
  else r.setHeader "Content-Length".toList (toDecimal r.getContentLength)

/-- A buffered response: coded, framed and written in one piece; HEAD leaves the content
out. -/
def startRegularReply (s : AsyncConnection) : AsyncConnection :=
  let r := frameResponse srv s.itsHeadRequest
    (echoETag srv s.itsRequest (encodeResponse srv s.itsRequest s.itsResponse))
  let p := renderHeaders srv r
  let s := { s with itsResponse := p.1 }.emit (.rendered .handler p.1 p.2)
  let wire := if s.itsHeadRequest then p.2 else p.2 ++ p.1.getContent
  asyncWriteSome .writeRegularReply wire { s with itsResponseString := wire }

/-- The header section that goes out in front of the first chunk. -/
def preparePendingHeaders (s : AsyncConnection) : AsyncConnection :=
  let p := renderHeaders srv s.itsResponse
  { s with itsResponse := p.1, itsPendingHeaders := p.2 }.emit (.rendered .handler p.1 p.2)

/-- A gateway's response brings its own header section, and ends the connection. -/
def startGatewayReply (s : AsyncConnection) : AsyncConnection :=
  getNextChunk srv a { s with itsKeepAlive := false }

/-- A stream of announced length. -/
def startStreamReply (s : AsyncConnection) : AsyncConnection :=
  let declared := s.itsResponse.getContentLength
  let s :=
    { s with
      itsDeclaredContentLength := declared
      itsResponse := s.itsResponse.setHeader "Content-Length".toList (toDecimal declared) }
  getNextChunk srv a (preparePendingHeaders srv s)

/-- A stream in the chunked coding. -/
def startChunkedReply (s : AsyncConnection) : AsyncConnection :=
  let r := s.itsResponse.setHeader "Transfer-Encoding".toList "chunked".toList
  let s := { s with itsResponse := r.removeHeader "Content-Length".toList }
  getNextChunkedChunk srv a (preparePendingHeaders srv s)

/-- The reply path of a handler's response. -/
def startReply (s : AsyncConnection) : AsyncConnection :=
  -- the content of a HEAD is not asked for, whatever it is
  if s.itsHeadRequest then
    startRegularReply srv (setServerHeaders srv a (s.emit (.started .regular)))
  else if s.itsResponse.hasStreamContent then
    if s.itsResponse.isGatewayResponse then startGatewayReply srv a (s.emit (.started .gateway))
    else if s.itsResponse.chunked then
      startChunkedReply srv a (setServerHeaders srv a (s.emit (.started .chunked)))
    else startStreamReply srv a (setServerHeaders srv a (s.emit (.started .stream)))
  else startRegularReply srv (setServerHeaders srv a (s.emit (.started .regular)))

/-- The handler is called, and its response is sent. -/
def callHandler (s : AsyncConnection) : AsyncConnection :=
  let s := (s.emit (.clientStarted s.itsRequest.clientIP)).emit (.dispatched s.itsRequest)
  match a.handler with
  -- the exception leaves the task: nothing is sent
  | .threw => s
  | .returned success response disconnected =>
    let s := { s.emit (.handled response) with itsResponse := response }
    -- nobody is there to be answered
    if disconnected then s
    else if !success then sendStockReply srv a .badRequest s
    else startReply srv a s

/-- `handleCompletedRead`; `socket().cancel()` throws on a closed socket. -/
def handleCompletedRead (s : AsyncConnection) : AsyncConnection :=
  let s := cancelTimer s
  if s.itsPrematurelyDisconnected then s
  -- `socket().cancel()` throws
  else if s.world.socket = .closed then s
  else callHandler srv a s

end AsyncConnection

end SmartMet
