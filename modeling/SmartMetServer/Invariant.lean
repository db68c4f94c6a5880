/-
# The invariant of a connection

At most one activity is outstanding, and what it is tells how far the exchange
under way has come: a request is being read, its handler is queued, or a reply
is being written on one of the reply paths.  A connection with nothing
outstanding is over.

The predicates are on the state without its outstanding activity, `bare`: this
is the state a completion handler starts from.
-/
import SmartMetServer.Replies

namespace SmartMet

open ChunkedCoding Exchange

namespace AsyncConnection

variable (srv : Server)

/-- The state without its outstanding activities. -/
def bare (s : AsyncConnection) : AsyncConnection := { s with world.outstanding := [] }

/-- What holds of every state, the outstanding activity apart. -/
structure Common (t : AsyncConnection) : Prop where
  outstanding : t.world.outstanding = []
  stamped : ∀ w ∈ t.world.waits, w.generation ≤ t.itsTimerGeneration
  pending : ∀ w ∈ t.world.waits, w.status = .pending → w.generation = t.itsTimerGeneration
  timedOut : t.hasTimedOut = true → t.world.socket = .closed
  connected : t.itsPrematurelyDisconnected = false
  past : ∀ x ∈ past t.world.trace, Done srv x

/-- What holds of the members while something is outstanding. -/
structure Carried (t : AsyncConnection) : Prop where
  received : t.itsReceivedBytes = t.itsBuffer.length
  pendingHeaders : t.itsPendingHeaders = []

/-- The members and the trace tell nothing of a reply yet. -/
structure Blank (t : AsyncConnection) : Prop where
  response : t.itsResponse = {}
  responseString : t.itsResponseString = []
  sentBytes : t.itsSentBytes = 0
  streamedBytes : t.itsTotalStreamedBytes = 0
  failed : t.exchange.failed = false

/-- The timer may still answer; once the server has answered itself, the socket
is closed. -/
structure Waiting (t : AsyncConnection) : Prop where
  direct : Direct srv t.exchange
  live : t.world.socket ≠ .closed → Unanswered t.exchange

/-- A request is being read. -/
structure Reading (t : AsyncConnection) : Prop extends Waiting srv t, Carried t where
  keepAlive : t.itsKeepAlive = false
  requests : t.exchange.requests = []
  blank : t.world.socket ≠ .closed → Blank t

/-- The handler of a request is queued. -/
structure Queued (t : AsyncConnection) : Prop extends Waiting srv t, Carried t where
  request : ∃ r, t.exchange.requests = [r] ∧ t.itsHeadRequest = decide (r.method = .head)
  blank : t.world.socket ≠ .closed → Blank t

/-- No wait has the current stamp. -/
def Unarmed (t : AsyncConnection) : Prop :=
  ∀ w ∈ t.world.waits, w.generation < t.itsTimerGeneration

/-- The response of the handler is being written. -/
structure Answering (t : AsyncConnection) : Prop where
  unarmed : Unarmed t
  received : t.itsReceivedBytes = t.itsBuffer.length
  request : ∃ r, t.exchange.requests = [r] ∧ t.itsHeadRequest = decide (r.method = .head)
  dispatched : t.exchange.dispatched ≠ []
  handled : ∃ h, t.exchange.handled = some h
  failed : t.exchange.failed = false
  refused : t.exchange.refused = false
  wire : ∀ p ∈ t.exchange.wire, p.1 = .handler ∨ p.1 = .interim
  ordered : Ordered t.exchange.wire

/-- A response with its content at hand; `unsent` are the bytes still to go. -/
structure Regular (t : AsyncConnection) (unsent : Bytes) : Prop where
  path : t.exchange.path = some .regular
  bytes : ∃ head body, t.exchange.heads = [(.handler, t.itsResponse, head)] ∧
    t.exchange.handlerBytes ++ unsent = head ++ body ∧
    (t.itsHeadRequest = true → body = []) ∧
    (Proper t.exchange .handler t.itsResponse →
      head = srv.spine.headerSection t.itsResponse ∧ t.itsResponse.Frames body)

/-- A response of announced length, or one of a gateway. -/
structure Streaming (t : AsyncConnection) (unsent : Bytes) : Prop where
  path : t.exchange.path = some .stream ∨ t.exchange.path = some .gateway
  method : t.itsHeadRequest = false
  streamedBytes : t.itsTotalStreamedBytes = t.exchange.chunks.flatten.length
  bytes : t.exchange.handlerBytes ++ unsent = t.exchange.headBytes ++ t.exchange.chunks.flatten
  gateway : t.exchange.path = some .gateway → t.itsKeepAlive = false ∧ t.exchange.heads = []
  stream : t.exchange.path = some .stream → ∃ r head, t.exchange.heads = [(.handler, r, head)] ∧
    r.getHeader "Content-Length".toList = some (toDecimal t.itsDeclaredContentLength) ∧
    (Proper t.exchange .handler r → head = srv.spine.headerSection r ∧
      r.getHeader "Transfer-Encoding".toList = none)

/-- The header section of a chunked response. -/
def ChunkedHead (t : AsyncConnection) : Prop :=
  ∃ r head, t.exchange.heads = [(.handler, r, head)] ∧
    r.getHeader "Transfer-Encoding".toList = some "chunked".toList ∧
    r.getHeader "Content-Length".toList = none ∧
    (Proper t.exchange .handler r → head = srv.spine.headerSection r)

/-- A chunked response. -/
structure Chunking (t : AsyncConnection) (unsent : Bytes) : Prop where
  path : t.exchange.path = some .chunked
  method : t.itsHeadRequest = false
  head : ChunkedHead srv t
  ended : t.exchange.ended ≠ some .exitOk
  bytes : t.exchange.handlerBytes ++ unsent = t.exchange.headBytes ++ encode t.exchange.chunks

/-- The last chunk of a chunked response is being written. -/
structure Finalizing (t : AsyncConnection) (unsent : Bytes) : Prop where
  path : t.exchange.path = some .chunked
  method : t.itsHeadRequest = false
  head : ChunkedHead srv t
  ended : t.exchange.ended = some .exitOk
  bytes : t.exchange.handlerBytes ++ unsent
    = t.exchange.headBytes ++ (encode t.exchange.chunks ++ lastChunk)

/-- The buffer of a write is the unsent part of `itsResponseString`. -/
structure Writing (t : AsyncConnection) (buffer : Bytes) : Prop extends Answering t where
  pendingHeaders : t.itsPendingHeaders = []
  buffer : t.itsResponseString.drop t.itsSentBytes = buffer

/-- Nothing is outstanding. -/
structure Over (t : AsyncConnection) : Prop where
  sound : Sound srv t.exchange
  complete : Complete t.exchange
  quiet : Waiting srv t ∨ Unarmed t ∧ t.exchange.dispatched ≠ []

/-- What the outstanding activity tells of the state. -/
def Phase (t : AsyncConnection) : Activity → Prop
  | .handshake => Reading srv t
  | .read => Reading srv t
  | .handleRead _ => Reading srv t
  | .task _ (.handleCompletedRead _) => Queued srv t
  | .task _ .getNextChunk => Answering t ∧ t.itsPendingHeaders = [] ∧ Streaming srv t []
  | .task _ .getNextChunkedChunk => Answering t ∧ t.itsPendingHeaders = [] ∧ Chunking srv t []
  | .write .writeRegularReply buffer => Writing t buffer ∧ Regular srv t buffer
  | .write .writeStreamReply buffer => Writing t buffer ∧ Streaming srv t buffer
  | .write .writeChunkedReply buffer => Writing t buffer ∧ Chunking srv t buffer
  | .write .finalizeChunkedReply buffer =>
    Writing t buffer ∧ Finalizing srv t buffer ∧ buffer ≠ []

/-- The invariant. -/
def Inv (s : AsyncConnection) : Prop :=
  Common srv s.bare ∧
    (s.world.outstanding = [] ∧ Over srv s.bare ∨
      ∃ a, s.world.outstanding = [a] ∧ Phase srv s.bare a)

/-! ## Members the invariant does not read -/

/-- Two states with the same world that differ in members no predicate of a
request's phase reads. -/
structure Agree (t u : AsyncConnection) : Prop where
  world : u.world = t.world
  generation : u.itsTimerGeneration = t.itsTimerGeneration
  timedOut : u.hasTimedOut = t.hasTimedOut
  connected : u.itsPrematurelyDisconnected = t.itsPrematurelyDisconnected
  buffer : u.itsBuffer = t.itsBuffer
  received : u.itsReceivedBytes = t.itsReceivedBytes
  pendingHeaders : u.itsPendingHeaders = t.itsPendingHeaders
  keepAlive : u.itsKeepAlive = t.itsKeepAlive
  response : u.itsResponse = t.itsResponse
  responseString : u.itsResponseString = t.itsResponseString
  sentBytes : u.itsSentBytes = t.itsSentBytes
  streamedBytes : u.itsTotalStreamedBytes = t.itsTotalStreamedBytes
  headRequest : u.itsHeadRequest = t.itsHeadRequest

/-- The members the predicates of a request's phase read. -/
def read (s : AsyncConnection) :=
  ((s.world, s.itsTimerGeneration, s.hasTimedOut, s.itsPrematurelyDisconnected),
    (s.itsBuffer, s.itsReceivedBytes, s.itsPendingHeaders, s.itsKeepAlive),
    s.itsResponse, s.itsResponseString, s.itsSentBytes, s.itsTotalStreamedBytes,
    s.itsHeadRequest)

theorem Agree.of {t u : AsyncConnection} (h : u.read = t.read) : Agree t u := by
  simp only [read, Prod.mk.injEq] at h
  obtain ⟨⟨h1, h2, h3, h4⟩, ⟨h5, h6, h7, h8⟩, h9, h10, h11, h12, h13⟩ := h
  exact ⟨h1, h2, h3, h4, h5, h6, h7, h8, h9, h10, h11, h12, h13⟩

section Agree

variable {t u : AsyncConnection}

theorem Agree.exchange (hu : Agree t u) : u.exchange = t.exchange := by
  unfold AsyncConnection.exchange
  rw [hu.world]

theorem Waiting.agree (h : Waiting srv t) (hu : Agree t u) : Waiting srv u := by
  refine ⟨?_, ?_⟩
  · rw [hu.exchange]
    exact h.direct
  · rw [hu.world, hu.exchange]
    exact h.live

theorem Carried.agree (h : Carried t) (hu : Agree t u) : Carried u := by
  refine ⟨?_, hu.pendingHeaders.trans h.pendingHeaders⟩
  rw [hu.received, hu.buffer]
  exact h.received

theorem Blank.agree (h : Blank t) (hu : Agree t u) : Blank u :=
  ⟨hu.response.trans h.response, hu.responseString.trans h.responseString,
    hu.sentBytes.trans h.sentBytes, hu.streamedBytes.trans h.streamedBytes,
    (congrArg Exchange.failed hu.exchange).trans h.failed⟩

theorem Reading.agree (h : Reading srv t) (hu : Agree t u) : Reading srv u := by
  refine ⟨h.toWaiting.agree srv hu, h.toCarried.agree hu, hu.keepAlive.trans h.keepAlive, ?_, ?_⟩
  · rw [hu.exchange]
    exact h.requests
  · rw [hu.world]
    exact fun hs => (h.blank hs).agree hu

theorem Queued.agree (h : Queued srv t) (hu : Agree t u) : Queued srv u := by
  refine ⟨h.toWaiting.agree srv hu, h.toCarried.agree hu, ?_, ?_⟩
  · rw [hu.exchange, hu.headRequest]
    exact h.request
  · rw [hu.world]
    exact fun hs => (h.blank hs).agree hu

end Agree

/-- The members `Common` reads. -/
def shared (s : AsyncConnection) : World × ℕ × Bool × Bool :=
  (s.world, s.itsTimerGeneration, s.hasTimedOut, s.itsPrematurelyDisconnected)

/-- What holds of every state depends on the world and three members. -/
theorem Common.update {t u : AsyncConnection} (h : Common srv t) (hu : u.shared = t.shared) :
    Common srv u := by
  simp only [shared, Prod.mk.injEq] at hu
  obtain ⟨hw, hg, ht, hd⟩ := hu
  refine ⟨?_, ?_, ?_, ?_, hd.trans h.connected, ?_⟩
  · rw [hw]
    exact h.outstanding
  · rw [hw, hg]
    exact h.stamped
  · rw [hw, hg]
    exact h.pending
  · rw [hw, ht]
    exact h.timedOut
  · rw [hw]
    exact h.past

/-- Writes and other events of the exchange keep it. -/
theorem Common.inWorld {t : AsyncConnection} (h : Common srv t) {w : World}
    (ho : w.outstanding = t.world.outstanding) (hw : w.waits = t.world.waits)
    (hs : t.world.socket = .closed → w.socket = .closed)
    (hp : SmartMet.past w.trace = SmartMet.past t.world.trace) :
    Common srv { t with world := w } := by
  refine ⟨ho.trans h.outstanding, ?_, ?_, fun ht => hs (h.timedOut ht), h.connected, ?_⟩
  · show ∀ x ∈ w.waits, _
    rw [hw]
    exact h.stamped
  · show ∀ x ∈ w.waits, _
    rw [hw]
    exact h.pending
  · show ∀ x ∈ SmartMet.past w.trace, _
    rw [hp]
    exact h.past

theorem Common.emit {t : AsyncConnection} (h : Common srv t) {o : Obs} (ho : o ≠ .rearmed) :
    Common srv (t.emit o) :=
  h.inWorld srv rfl rfl (fun hs => hs) (past_cons ho _)

/-! ## The two ends of a function -/

theorem bare_eq_self {t : AsyncConnection} (h : t.world.outstanding = []) : t.bare = t := by
  unfold bare
  rw [← h]

@[simp] theorem bare_bare (s : AsyncConnection) : s.bare.bare = s.bare := rfl

@[simp] theorem bare_outstanding (s : AsyncConnection) : s.bare.world.outstanding = [] := rfl

/-- A function that leaves nothing outstanding. -/
theorem inv_over {t : AsyncConnection} (hc : Common srv t) (h : Over srv t) : Inv srv t := by
  have hb := bare_eq_self hc.outstanding
  exact ⟨by rw [hb]; exact hc, Or.inl ⟨hc.outstanding, by rw [hb]; exact h⟩⟩

/-- A function that leaves one activity outstanding. -/
theorem inv_await {t : AsyncConnection} {a : Activity} (hc : Common srv t)
    (h : Phase srv t a) : Inv srv (t.await a) := by
  have hb : (t.await a).bare = t := bare_eq_self hc.outstanding
  have ha : (t.await a).world.outstanding = [a] := by
    show t.world.outstanding ++ [a] = [a]
    rw [hc.outstanding]
    rfl
  exact ⟨by rw [hb]; exact hc, Or.inr ⟨a, ha, by rw [hb]; exact h⟩⟩

/-- The handler that is called was the only activity, and starts from the bare
state. -/
theorem Inv.released {s : AsyncConnection} (h : Inv srv s) {i : ℕ} {a : Activity}
    (hi : s.world.outstanding[i]? = some a) :
    s.release i = s.bare ∧ Common srv s.bare ∧ Phase srv s.bare a := by
  obtain ⟨hc, ⟨ho, -⟩ | ⟨b, ho, hp⟩⟩ := h
  · rw [ho] at hi
    simp at hi
  · rw [ho] at hi
    obtain ⟨rfl, rfl⟩ : i = 0 ∧ b = a := by
      cases i with
      | zero => exact ⟨rfl, Option.some.inj hi⟩
      | succ k => simp at hi
    refine ⟨?_, hc, hp⟩
    unfold release bare World.release
    rw [ho]
    rfl

end AsyncConnection

end SmartMet
