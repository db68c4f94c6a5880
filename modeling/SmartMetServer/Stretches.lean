/-
# What a stretch of code leaves alone

Behind the swap of the timer, and before the last call of a completion handler,
nothing touches the timer, the client's bytes or the exchanges before.  A
`Stretch A` is such a piece of code; its events are in `A`, and on a closed
socket it writes nothing.
-/
import SmartMetServer.ServerHeaders
import SmartMetServer.Tails

namespace SmartMet

open ChunkedCoding Exchange

/-- The bytes a queued call of `handleRead` brings. -/
def Activity.unread : Activity → Bytes
  | .handleRead bytes => bytes
  | _ => []

namespace AsyncConnection

variable (srv : Server) (a : Answers)

/-- The bytes that were received and not looked at yet. -/
def unread (s : AsyncConnection) : Bytes := s.world.outstanding.flatMap Activity.unread

/-- An event the client or a handler takes notice of. -/
def Outward : Obs → Prop
  | .wrote _ _ => True
  | .dispatched _ => True
  | _ => False

/-- The events between `s` and `s'` are in `A`; on a closed socket nothing is
sent and no handler is called. -/
structure Trail (A : Obs → Prop) (s s' : AsyncConnection) : Prop where
  events : ∃ new, s'.world.trace = new ++ s.world.trace ∧
    ∀ o ∈ new, A o ∧ (s.world.socket = .closed → ¬ Outward o)
  socket : s.world.socket = .closed → s'.world.socket = .closed

namespace Trail

variable {A B : Obs → Prop} {s t u : AsyncConnection}

/-- Nothing happens. -/
theorem refl (s : AsyncConnection) : Trail A s s := by
  refine ⟨⟨[], rfl, ?_⟩, fun h => h⟩
  intro o ho
  cases ho

/-- Two trails in a row. -/
theorem trans (h : Trail A s t) (h' : Trail A t u) : Trail A s u := by
  obtain ⟨n, hn, ha⟩ := h.events
  obtain ⟨n', hn', ha'⟩ := h'.events
  refine ⟨⟨n' ++ n, ?_, ?_⟩, fun hs => h'.socket (h.socket hs)⟩
  · rw [hn', hn, List.append_assoc]
  · intro o ho
    rcases List.mem_append.mp ho with ho | ho
    · exact ⟨(ha' o ho).1, fun hs => (ha' o ho).2 (h.socket hs)⟩
    · exact ha o ho

/-- More events may be allowed. -/
theorem mono (h : Trail A s t) (hab : ∀ o, A o → B o) : Trail B s t := by
  obtain ⟨n, hn, ha⟩ := h.events
  exact ⟨⟨n, hn, fun o ho => ⟨hab o (ha o ho).1, (ha o ho).2⟩⟩, h.socket⟩

/-- Only members and other parts of the world were set. -/
theorem silent (ht : t.world.trace = s.world.trace)
    (hs : s.world.socket = .closed → t.world.socket = .closed) : Trail A s t := by
  refine ⟨⟨[], ht, ?_⟩, hs⟩
  intro o ho
  cases ho

/-- One event. -/
theorem emit (s : AsyncConnection) {o : Obs} (ho : A o)
    (hw : s.world.socket = .closed → ¬ Outward o) : Trail A s (s.emit o) := by
  refine ⟨⟨[o], rfl, ?_⟩, fun h => h⟩
  intro p hp
  obtain rfl := List.mem_singleton.mp hp
  exact ⟨ho, hw⟩

/-- Other members and other parts of the world were set before. -/
theorem behind (h : Trail A t u) (ht : t.world.trace = s.world.trace)
    (hs : s.world.socket = .closed → t.world.socket = .closed) : Trail A s u :=
  (silent ht hs).trans h

/-- The socket is closed. -/
theorem close (s : AsyncConnection) (hc : A .closed) : Trail A s (closeSocket s) := by
  refine ⟨⟨[.closed], rfl, ?_⟩, fun _ => rfl⟩
  intro o ho
  obtain rfl := List.mem_singleton.mp ho
  exact ⟨hc, fun _ => id⟩

/-- A synchronous write. -/
theorem write (s : AsyncConnection) {m : Message} (b : Bytes) (o : WriteOutcome)
    (hw : ∀ c, A (.wrote m c)) (he : A (.writeError m)) :
    Trail A s (AsyncConnection.write m b o s) := by
  refine ⟨?_, ?_⟩
  · rcases s.world.write_cases m b o with ⟨-, -, h⟩ | ⟨-, hs, h⟩ | ⟨-, hs, n, h⟩ | ⟨-, -, h⟩
    · refine ⟨[], by show (World.write _ _ _ _).trace = _; rw [h]; rfl, ?_⟩
      intro p hp
      cases hp
    · refine ⟨[.wrote m b], by show (World.write _ _ _ _).trace = _; rw [h]; rfl, ?_⟩
      intro p hp
      obtain rfl := List.mem_singleton.mp hp
      exact ⟨hw b, fun hc => by rw [hs] at hc; cases hc⟩
    · refine ⟨[.writeError m, .wrote m (b.dropLast.take n)],
        by show (World.write _ _ _ _).trace = _; rw [h]; rfl, ?_⟩
      intro p hp
      refine ⟨?_, fun hc => by rw [hs] at hc; cases hc⟩
      rcases List.mem_cons.mp hp with rfl | hp
      · exact he
      · obtain rfl := List.mem_singleton.mp hp
        exact hw _
    · refine ⟨[.writeError m], by show (World.write _ _ _ _).trace = _; rw [h]; rfl, ?_⟩
      intro p hp
      obtain rfl := List.mem_singleton.mp hp
      exact ⟨he, fun _ => id⟩
  · intro hs
    rcases (s.world.write_delivers m b o).socket with h | ⟨h, -⟩
    · exact h.trans hs
    · rw [hs] at h
      cases h

end Trail

/-- What a stretch leaves alone as long as nothing happens. -/
def frame (s : AsyncConnection) : World × ℕ × Bool × Bool × Bytes :=
  (s.world, s.itsTimerGeneration, s.hasTimedOut, s.itsIdle, s.itsBuffer)

/-- The code between `s` and `s'` neither reads bytes nor touches the timer. -/
structure Stretch (A : Obs → Prop) (s s' : AsyncConnection) : Prop extends Trail A s s' where
  waits : s'.world.waits = s.world.waits
  generation : s'.itsTimerGeneration = s.itsTimerGeneration
  timedOut : s'.hasTimedOut = s.hasTimedOut
  idle : s'.itsIdle = s.itsIdle
  shutdown : s'.world.shutdownRequested = s.world.shutdownRequested
  buffer : s'.itsBuffer = s.itsBuffer
  unread : s'.unread = s.unread

namespace Stretch

variable {A B : Obs → Prop} {s t u : AsyncConnection}

/-- Only other members were set. -/
theorem silent (h : t.frame = s.frame) : Stretch A s t := by
  obtain ⟨hw, hg, ht, hi, hb⟩ : t.world = s.world ∧ t.itsTimerGeneration = s.itsTimerGeneration ∧
      t.hasTimedOut = s.hasTimedOut ∧ t.itsIdle = s.itsIdle ∧ t.itsBuffer = s.itsBuffer := by
    simpa [frame] using h
  refine ⟨Trail.silent ?_ ?_, ?_, hg, ht, hi, ?_, hb, ?_⟩
  · rw [hw]
  · rw [hw]
    exact fun h => h
  · rw [hw]
  · rw [hw]
  · unfold AsyncConnection.unread
    rw [hw]

/-- Two stretches in a row. -/
theorem trans (h : Stretch A s t) (h' : Stretch A t u) : Stretch A s u :=
  ⟨h.toTrail.trans h'.toTrail, h'.waits.trans h.waits, h'.generation.trans h.generation,
    h'.timedOut.trans h.timedOut, h'.idle.trans h.idle, h'.shutdown.trans h.shutdown,
    h'.buffer.trans h.buffer, h'.unread.trans h.unread⟩

/-- Other members were set before. -/
theorem behind (h : Stretch A t u) (hs : t.frame = s.frame) : Stretch A s u :=
  (silent hs).trans h

/-- More events may be allowed. -/
theorem mono (h : Stretch A s t) (hab : ∀ o, A o → B o) : Stretch B s t :=
  ⟨h.toTrail.mono hab, h.waits, h.generation, h.timedOut, h.idle, h.shutdown, h.buffer, h.unread⟩

/-- One event. -/
theorem emit (s : AsyncConnection) {o : Obs} (ho : A o)
    (hw : s.world.socket = .closed → ¬ Outward o) : Stretch A s (s.emit o) :=
  ⟨Trail.emit s ho hw, rfl, rfl, rfl, rfl, rfl, rfl, rfl⟩

/-- An activity that brings no bytes. -/
theorem await (s : AsyncConnection) {x : Activity} (hx : x.unread = []) :
    Stretch A s (s.await x) := by
  refine ⟨Trail.silent rfl fun h => h, rfl, rfl, rfl, rfl, rfl, rfl, ?_⟩
  show (s.world.outstanding ++ [x]).flatMap Activity.unread = _
  rw [List.flatMap_append, List.flatMap_singleton, hx, List.append_nil]
  rfl

/-- A synchronous write. -/
theorem write (s : AsyncConnection) {m : Message} (b : Bytes) (o : WriteOutcome)
    (hw : ∀ c, A (.wrote m c)) (he : A (.writeError m)) :
    Stretch A s (AsyncConnection.write m b o s) := by
  have hd := s.world.write_delivers m b o
  refine ⟨Trail.write s b o hw he, hd.waits, rfl, rfl, rfl, hd.shutdownRequested, rfl, ?_⟩
  show (s.world.write m b o).outstanding.flatMap Activity.unread = _
  rw [hd.outstanding]
  rfl

end Stretch

/-! ## Events of the stretches -/

/-- No event at all. -/
def NoEvent : Obs → Prop := fun _ => False

/-- The exception that leaves `handleParsedRequest`. -/
def PeerEvent (o : Obs) : Prop := o = .peerUnknown

/-- The interim response. -/
def InterimEvent (o : Obs) : Prop :=
  (∃ b, o = .wrote .interim b) ∨ o = .writeError .interim

/-- The events of the delivery of a handler's response. -/
def DeliveryEvent : Obs → Prop
  | .chunk _ _ => True
  | .streamEnded _ _ => True
  | .wrote .handler _ => True
  | .writeError .handler => True
  | .streamLogged _ => True
  | .backendFinished _ => True
  | .closed => True
  | _ => False

/-- The events of a handler's response and of its streamer. -/
def ReplyEvent : Obs → Prop
  | .rendered .handler r h => h = srv.spine.headerSection r
  | .chunk _ _ => True
  | .streamEnded _ _ => True
  | .wrote .handler _ => True
  | .writeError .handler => True
  | .streamLogged _ => True
  | .backendFinished _ => True
  | .closed => True
  | _ => False

variable {srv} in
/-- A delivery is part of a reply. -/
theorem DeliveryEvent.reply {o : Obs} (h : DeliveryEvent o) : ReplyEvent srv o := by
  cases o with
  | rendered m r head => exact absurd h id
  | wrote m b => cases m <;> first | exact trivial | exact absurd h id
  | writeError m => cases m <;> first | exact trivial | exact absurd h id
  | _ => first | exact trivial | exact absurd h id

/-! ## The functions called from the socket -/

/-- The page of a status is prepared in silence. -/
theorem stretch_stockResponse (st : Status) (s : AsyncConnection) :
    Stretch NoEvent s (stockResponse srv a st s) := Stretch.silent rfl

/-- The handler's call is scheduled in silence. -/
theorem stretch_scheduleRequest (view : HandlerView) (s : AsyncConnection) :
    Stretch NoEvent s (Tail.scheduleRequest srv a view s).state := by
  unfold Tail.scheduleRequest
  cases view.isCatchNoMatch with
  | true =>
    cases a.accepts with
    | true => exact Stretch.behind (Stretch.await _ rfl) rfl
    | false => exact Stretch.silent rfl
  | false =>
    cases a.accepts with
    | true => exact Stretch.behind (Stretch.await _ rfl) rfl
    | false => exact Stretch.silent rfl

/-- So is the way to its pool. -/
theorem stretch_routeRequest (s : AsyncConnection) :
    Stretch NoEvent s (Tail.routeRequest srv a s).state := by
  unfold Tail.routeRequest
  split
  · exact Stretch.silent rfl
  · cases srv.spine.getHandlerView s.itsRequest with
    | none => exact Stretch.silent rfl
    | some view =>
      dsimp only
      split
      · exact Stretch.silent rfl
      · exact Stretch.behind (stretch_scheduleRequest srv a view _) rfl

/-- The peer address changes the client IP of the request. -/
theorem resolveClientIP_eq {s u : AsyncConnection} (h : resolveClientIP srv a s = some u) :
    s.world.socket ≠ .closed ∧ ∃ ip, u = { s with itsRequest.clientIP := ip } := by
  unfold resolveClientIP at h
  split at h
  · cases h
  · rename_i hs
    refine ⟨hs, ?_⟩
    cases hp : a.peer with
    | none =>
      rw [hp] at h
      cases h
    | some peer =>
      rw [hp] at h
      exact ⟨_, (Option.some.inj h).symm⟩

/-- Behind the parsed request only its peer can be missed. -/
theorem stretch_handleParsedRequest (s : AsyncConnection) :
    Stretch PeerEvent (s.emit (.parsed s.itsRequest)) (Tail.handleParsedRequest srv a s).state := by
  unfold Tail.handleParsedRequest
  dsimp only
  cases h : resolveClientIP srv a (s.emit (.parsed s.itsRequest)) with
  | none => exact Stretch.emit _ rfl fun _ => id
  | some u =>
    obtain ⟨-, ip, rfl⟩ := resolveClientIP_eq srv a h
    dsimp only
    split
    · exact Stretch.silent rfl
    · exact Stretch.behind ((stretch_routeRequest srv a _).mono fun _ ho => absurd ho id) rfl

/-- An incomplete request may be answered with interim replies. -/
theorem stretch_handleIncompleteRequest (s : AsyncConnection) :
    Stretch InterimEvent s (Tail.handleIncompleteRequest srv a s).state := by
  unfold Tail.handleIncompleteRequest
  split
  · exact Stretch.silent rfl
  unfold Tail.handleExpectContinue
  split
  · exact Stretch.await _ rfl
  dsimp only
  split
  · exact Stretch.await _ rfl
  split
  · exact Stretch.behind (Stretch.await _ rfl) rfl
  split
  · exact Stretch.behind (Stretch.await _ rfl) rfl
  split
  · have hw := Stretch.write (A := InterimEvent) { s with itsExpectHandled := true }
      "HTTP/1.1 100 Continue\r\n\r\n".toList a.interimWrite (fun c => Or.inl ⟨c, rfl⟩)
      (Or.inr rfl)
    split
    · exact Stretch.behind (hw.trans (Stretch.silent rfl)) rfl
    · exact Stretch.behind (hw.trans (Stretch.await _ rfl)) rfl
  · exact Stretch.silent rfl

/-! ## The functions of the reply paths -/

/-- The notification of the backend is part of a delivery, -/
theorem stretch_notifyBackendFinished (st : StreamerStatus) (s : AsyncConnection) :
    Stretch DeliveryEvent s (notifyBackendFinished st s) := by
  unfold notifyBackendFinished
  split
  · exact Stretch.silent rfl
  · exact (Stretch.emit s (o := .backendFinished st) trivial fun _ => id).trans (Stretch.silent rfl)

/-- so is the entry in the log, -/
theorem stretch_finalizeStreamLogging (s : AsyncConnection) :
    Stretch DeliveryEvent s (finalizeStreamLogging s) := by
  unfold finalizeStreamLogging
  split
  · exact (Stretch.emit s (o := .streamLogged s.itsTotalStreamedBytes) trivial fun _ => id).trans
      (Stretch.silent rfl)
  · exact Stretch.silent rfl

/-- the write of the pending header section, -/
theorem stretch_flushPendingHeaders (s : AsyncConnection) :
    Stretch DeliveryEvent s (flushPendingHeaders a s) := by
  unfold flushPendingHeaders
  split
  · exact Stretch.silent rfl
  · exact (Stretch.write s s.itsPendingHeaders a.flushWrite (fun _ => trivial) trivial).trans
      (Stretch.silent rfl)

/-- the chunk the getter is given, -/
theorem stretch_takeChunk (c : Bytes) (s : AsyncConnection) :
    Stretch DeliveryEvent s (takeChunk c s) :=
  (Stretch.emit s (o := .chunk c _) trivial fun _ => id).trans (Stretch.silent rfl)

/-- and the write of that chunk. -/
theorem stretch_sendChunk (handler : WriteHandler) (wire : Bytes) (s : AsyncConnection) :
    Stretch DeliveryEvent s (sendChunk handler wire s) :=
  Stretch.behind (Stretch.await _ rfl) rfl

/-- The events of the getters, with a refusal only where `p`. -/
def ChunkEvent (p : Prop) (o : Obs) : Prop := DeliveryEvent o ∨ o = .refused ∧ p

/-- The events of the reply paths, with a refusal only where `p`. -/
def GetterEvent (p : Prop) (o : Obs) : Prop := ReplyEvent srv o ∨ o = .refused ∧ p

/-- The condition of a refusal may be weakened, -/
theorem ChunkEvent.imp {p q : Prop} {o : Obs} (h : ChunkEvent p o) (hpq : p → q) :
    ChunkEvent q o := h.imp_right fun ho => ⟨ho.1, hpq ho.2⟩

variable {srv} in
/-- with a getter too. -/
theorem GetterEvent.imp {p q : Prop} {o : Obs} (h : GetterEvent srv p o) (hpq : p → q) :
    GetterEvent srv q o := h.imp_right fun ho => ⟨ho.1, hpq ho.2⟩

variable {srv} in
/-- The events of a chunk are events of a getter. -/
theorem ChunkEvent.getter {p q : Prop} {o : Obs} (h : ChunkEvent p o) (hpq : p → q) :
    GetterEvent srv q o := Or.imp DeliveryEvent.reply (fun ho => ⟨ho.1, hpq ho.2⟩) h

/-- A delivery is a stretch of a chunk's events. -/
theorem Stretch.chunk {p : Prop} {s t : AsyncConnection} (h : Stretch DeliveryEvent s t) :
    Stretch (ChunkEvent p) s t := h.mono fun _ ho => Or.inl ho

variable {srv} in
/-- A reply is a stretch of a getter's events. -/
theorem Stretch.getter {p : Prop} {s t : AsyncConnection} (h : Stretch (ReplyEvent srv) s t) :
    Stretch (GetterEvent srv p) s t := h.mono fun _ ho => Or.inl ho

/-- The next getter is refused only when the executor does not take it. -/
theorem stretch_scheduleGetter {task : Task} (s : AsyncConnection) :
    Stretch (ChunkEvent (a.accepts = false)) s (Tail.scheduleGetter srv a task s).state := by
  unfold Tail.scheduleGetter
  cases h : a.accepts with
  | true => exact Stretch.await _ rfl
  | false =>
    exact (Stretch.emit s (o := .refused) (Or.inr ⟨rfl, rfl⟩) fun _ => id).trans
      (Stretch.silent rfl)

/-- The end of a stream is part of a delivery, -/
theorem stretch_finishStream (st : StreamerStatus) (s : AsyncConnection) :
    Stretch DeliveryEvent s (Tail.finishStream st s).state :=
  (stretch_finalizeStreamLogging s).trans
    ((stretch_notifyBackendFinished st _).trans (Stretch.silent rfl))

/-- and so is its abandonment. -/
theorem stretch_abandonChunked (s : AsyncConnection) :
    Stretch DeliveryEvent s (abandonChunked a s) := by
  have hclose : ∀ u : AsyncConnection, Stretch DeliveryEvent u (closeSocket u) := fun u =>
    ⟨Trail.close u trivial, rfl, rfl, rfl, rfl, rfl, rfl, rfl⟩
  exact (stretch_flushPendingHeaders a s).trans
    ((stretch_finalizeStreamLogging _).trans (Stretch.behind (hclose _) rfl))

/-- The content of the response `r` gives an empty chunk, and the executor does not
take the getter of the next one. -/
def EmptyRefused (r : Response) : Prop :=
  getStreamingStatus a r = .ok ∧ nextContent a r = some [] ∧ a.accepts = false

/-- A getter sees the content of a response only. -/
theorem getters_congr {r r' : Response} (h : r'.content = r.content) :
    getStreamingStatus a r' = getStreamingStatus a r ∧
      nextContent a r' = nextContent a r := by
  unfold getStreamingStatus nextContent Response.hasStreamContent Response.getContent
  rw [h]
  exact ⟨rfl, rfl⟩

/-- Whether an empty chunk's getter is refused depends on the content alone. -/
theorem emptyRefused_congr {r r' : Response} (h : r'.content = r.content) :
    EmptyRefused a r' ↔ EmptyRefused a r := by
  unfold EmptyRefused
  rw [(getters_congr a h).1, (getters_congr a h).2]

/-- The getter of a stream of announced length: the next one is refused behind an empty
chunk only. -/
theorem stretch_getNextChunk (s : AsyncConnection) :
    Stretch (ChunkEvent (EmptyRefused a s.itsResponse)) s (Tail.getNextChunk srv a s).state := by
  have hstop : ∀ st own, Stretch DeliveryEvent s (s.emit (.streamEnded st own)) := fun st own =>
    Stretch.emit s (o := .streamEnded st own) trivial fun _ => id
  unfold Tail.getNextChunk
  cases hst : getStreamingStatus a s.itsResponse with
  | ok =>
    cases hc : nextContent a s.itsResponse with
    | none => exact Stretch.silent rfl
    | some content =>
      dsimp only
      split
      · exact ((stretch_takeChunk content s).trans (stretch_sendChunk _ _ _)).chunk
      · rename_i hempty
        split
        · exact ((stretch_takeChunk content s).trans (stretch_flushPendingHeaders a _)).chunk
        · refine ((stretch_takeChunk content s).trans
            (stretch_flushPendingHeaders a _)).chunk.trans
            ((stretch_scheduleGetter srv a _).mono ?_)
          refine fun _ ho => ho.imp fun ha => ⟨hst, ?_, ha⟩
          rw [hc]
          simpa using hempty
  | exitOk =>
    dsimp only
    split
    · exact ((hstop _ _).trans (stretch_flushPendingHeaders a _)).chunk
    · exact ((hstop _ _).trans ((stretch_flushPendingHeaders a _).trans
        (stretch_finishStream _ _))).chunk
  | exitError =>
    dsimp only
    split
    · exact ((hstop _ _).trans (stretch_flushPendingHeaders a _)).chunk
    · exact ((hstop _ _).trans ((stretch_flushPendingHeaders a _).trans
        (stretch_finishStream _ _))).chunk

/-- The getter of a chunked stream. -/
theorem stretch_getNextChunkedChunk (s : AsyncConnection) :
    Stretch (ChunkEvent (a.accepts = false)) s (Tail.getNextChunkedChunk srv a s).state := by
  have hstop : ∀ st own, Stretch DeliveryEvent s
      (notifyBackendFinished st (s.emit (.streamEnded st own))) := fun st own =>
    (Stretch.emit s (o := .streamEnded st own) trivial fun _ => id).trans
      (stretch_notifyBackendFinished st _)
  unfold Tail.getNextChunkedChunk
  cases getStreamingStatus a s.itsResponse with
  | ok =>
    cases nextContent a s.itsResponse with
    | none => exact Stretch.silent rfl
    | some content =>
      dsimp only
      split
      · exact ((stretch_takeChunk content s).trans (stretch_sendChunk _ _ _)).chunk
      · split
        · exact ((stretch_takeChunk content s).trans (stretch_flushPendingHeaders a _)).chunk
        · exact ((stretch_takeChunk content s).trans
            (stretch_flushPendingHeaders a _)).chunk.trans (stretch_scheduleGetter srv a _)
  | exitOk => exact ((hstop _ _).trans (stretch_sendChunk _ _ _)).chunk
  | exitError => exact ((hstop _ _).trans (stretch_abandonChunked a _)).chunk

/-- A part of a streamed response is out, and the executor does not take the getter
of the next one. -/
def WrittenRefused (handler : WriteHandler) (e : ErrorCode) (n : ℕ) (s : AsyncConnection) :
    Prop :=
  (handler = .writeStreamReply ∨ handler = .writeChunkedReply) ∧ e = .success ∧
    s.itsResponseString.length ≤ s.itsSentBytes + n ∧ a.accepts = false

/-- A completed write: the next getter is refused behind a chunk that was sent whole only. -/
theorem stretch_runWriteHandler (handler : WriteHandler) (e : ErrorCode) (n : ℕ)
    (s : AsyncConnection) :
    Stretch (ChunkEvent (WrittenRefused a handler e n s)) s
      (Tail.runWriteHandler srv a handler e n s).state := by
  have hcont : ∀ {p : Prop} (next : AsyncConnection → Outcome) (failed : Books),
      (∀ t, Stretch (ChunkEvent p) t (next t).state) →
      Stretch (ChunkEvent (e = .success ∧ s.itsResponseString.length ≤ s.itsSentBytes + n ∧ p)) s
        (Tail.continueWrite srv a handler e n next failed s).state := by
    intro p next failed hnext
    unfold Tail.continueWrite
    dsimp only
    split
    · rename_i he
      split
      · exact Stretch.behind (Stretch.await _ rfl) rfl
      · rename_i hlen
        refine Stretch.behind ((hnext _).mono ?_) rfl
        exact fun _ ho => ho.imp fun hp => ⟨he, by omega, hp⟩
    · exact Stretch.silent rfl
  cases handler with
  | writeRegularReply =>
    refine (hcont (p := False) (fun s => .finish (notifyBackendFinished .exitOk s)) .none ?_).mono
      fun _ ho => ho.imp fun hp => hp.2.2.elim
    intro t
    exact (stretch_notifyBackendFinished .exitOk t).chunk
  | writeStreamReply =>
    exact (hcont (Tail.scheduleGetter srv a .getNextChunk) (.logAndNotify (getStreamingStatus a))
      (stretch_scheduleGetter srv a)).mono fun _ ho => ho.imp fun hp => ⟨Or.inl rfl, hp⟩
  | writeChunkedReply =>
    exact (hcont (Tail.scheduleGetter srv a .getNextChunkedChunk)
      (.logAndNotify (getStreamingStatus a)) (stretch_scheduleGetter srv a)).mono
      fun _ ho => ho.imp fun hp => ⟨Or.inr rfl, hp⟩
  | finalizeChunkedReply =>
    refine (hcont (p := False) (fun s => .finish (finalizeStreamLogging s)) .log ?_).mono
      fun _ ho => ho.imp fun hp => hp.2.2.elim
    intro t
    exact (stretch_finalizeStreamLogging t).chunk

/-- The content that goes out behind a header section depends on the status and the
content of the response only. -/
theorem content_renderHeaders {r r' : Response} (hs : r'.status = r.status)
    (hc : r'.content = r.content) :
    (renderHeaders srv r').1.content = (renderHeaders srv r).1.content := by
  unfold renderHeaders headersToString
  rw [hs]
  cases r.status with
  | none => rfl
  | some st => exact hc

/-- A buffered reply, -/
theorem stretch_startRegularReply (s : AsyncConnection) :
    Stretch (ReplyEvent srv) s (startRegularReply srv s) := by
  let p := renderHeaders srv (frameResponse srv s.itsHeadRequest
    (echoETag srv s.itsRequest (encodeResponse srv s.itsRequest s.itsResponse)))
  let wire := if s.itsHeadRequest then p.2 else p.2 ++ p.1.getContent
  let u : AsyncConnection := { s with itsResponse := p.1 }
  let v : AsyncConnection :=
    { u.emit (.rendered .handler p.1 p.2) with itsResponseString := wire }
  have hu : Stretch (ReplyEvent srv) s u := Stretch.silent rfl
  have he : Stretch (ReplyEvent srv) u (u.emit (.rendered .handler p.1 p.2)) :=
    Stretch.emit u (renderHeaders_snd srv _) fun _ => id
  have hv : Stretch (ReplyEvent srv) (u.emit (.rendered .handler p.1 p.2)) v := Stretch.silent rfl
  exact hu.trans (he.trans (hv.trans
    (Stretch.await v (x := .write .writeRegularReply wire) rfl)))

/-- a pending header section, -/
theorem stretch_preparePendingHeaders (s : AsyncConnection) :
    Stretch (ReplyEvent srv) s (preparePendingHeaders srv s) := by
  let p := renderHeaders srv s.itsResponse
  let u : AsyncConnection := { s with itsResponse := p.1, itsPendingHeaders := p.2 }
  have hu : Stretch (ReplyEvent srv) s u := Stretch.silent rfl
  exact hu.trans
    (Stretch.emit u (o := .rendered .handler p.1 p.2) (renderHeaders_snd srv _) fun _ => id)

/-- the start of a stream of announced length, -/
theorem stretch_startStreamReply (s : AsyncConnection) :
    Stretch (GetterEvent srv (EmptyRefused a (renderHeaders srv s.itsResponse).1)) s
      (Tail.startStreamReply srv a s).state := by
  let declared := s.itsResponse.getContentLength
  let u : AsyncConnection := { s with
    itsDeclaredContentLength := declared
    itsResponse := s.itsResponse.setHeader "Content-Length".toList (toDecimal declared) }
  have hu : Stretch (ReplyEvent srv) s u := Stretch.silent rfl
  have hcontent : (renderHeaders srv u.itsResponse).1.content
      = (renderHeaders srv s.itsResponse).1.content := content_renderHeaders srv rfl rfl
  refine (hu.trans (stretch_preparePendingHeaders srv u)).getter.trans
    ((stretch_getNextChunk srv a _).mono fun _ ho => ho.getter ?_)
  exact (emptyRefused_congr a hcontent).mp

/-- and of a chunked one. -/
theorem stretch_startChunkedReply (s : AsyncConnection) :
    Stretch (GetterEvent srv (a.accepts = false)) s (Tail.startChunkedReply srv a s).state := by
  let r := s.itsResponse.setHeader "Transfer-Encoding".toList "chunked".toList
  let u : AsyncConnection := { s with itsResponse := r.removeHeader "Content-Length".toList }
  have hu : Stretch (ReplyEvent srv) s u := Stretch.silent rfl
  exact (hu.trans (stretch_preparePendingHeaders srv u)).getter.trans
    ((stretch_getNextChunkedChunk srv a _).mono fun _ ho => ho.getter id)

/-- The server's fields are set in silence. -/
theorem stretch_setServerHeaders {A : Obs → Prop} (s : AsyncConnection) :
    Stretch A s (setServerHeaders srv a s) := Stretch.silent rfl

/-- The path `startReply` takes. -/
def replyPath (headRequest : Bool) (r : Response) : ReplyPath :=
  if headRequest then .regular
  else if r.hasStreamContent then
    if r.isGatewayResponse then .gateway
    else if r.chunked then .chunked
    else .stream
  else .regular

/-- The first chunk of the response `r` is empty, and the executor does not take the
getter of the second.  A response of announced length is asked for it behind its
header section, and is a stock page by then if its status was left unset. -/
def FirstRefused (path : ReplyPath) (r : Response) : Prop :=
  path = .gateway ∧ EmptyRefused a r ∨
    path = .stream ∧ EmptyRefused a (renderHeaders srv r).1

/-- The executor does not take the getter of the second chunk. -/
def StartRefused (path : ReplyPath) (r : Response) : Prop :=
  path = .chunked ∧ a.accepts = false ∨ FirstRefused srv a path r

/-- Behind its first event `startReply` is one of the reply paths. -/
theorem stretch_startReply (s : AsyncConnection) :
    Stretch (GetterEvent srv
        (StartRefused srv a (replyPath s.itsHeadRequest s.itsResponse) s.itsResponse))
      (s.emit (.started (replyPath s.itsHeadRequest s.itsResponse)))
      (Tail.startReply srv a s).state := by
  have hs : ∀ p, Stretch (ReplyEvent srv) (s.emit (.started p))
      (setServerHeaders srv a (s.emit (.started p))) := fun p =>
    stretch_setServerHeaders srv a _
  have hregular : Stretch (ReplyEvent srv) (s.emit (.started .regular))
      (startRegularReply srv (setServerHeaders srv a (s.emit (.started .regular)))) :=
    (hs .regular).trans (stretch_startRegularReply srv _)
  unfold Tail.startReply replyPath
  by_cases hhead : s.itsHeadRequest = true
  · rw [if_pos hhead, if_pos hhead]
    exact hregular.getter
  rw [if_neg hhead, if_neg hhead]
  by_cases hcontent : s.itsResponse.hasStreamContent = true
  · rw [if_pos hcontent, if_pos hcontent]
    by_cases hgateway : s.itsResponse.isGatewayResponse = true
    · rw [if_pos hgateway, if_pos hgateway]
      let u : AsyncConnection := { s.emit (.started .gateway) with itsKeepAlive := false }
      have hu : Stretch (ReplyEvent srv) (s.emit (.started .gateway)) u := Stretch.silent rfl
      exact hu.getter.trans ((stretch_getNextChunk srv a u).mono fun _ ho =>
        ho.getter fun ha => Or.inr (Or.inl ⟨rfl, ha⟩))
    rw [if_neg hgateway, if_neg hgateway]
    by_cases hchunked : s.itsResponse.chunked = true
    · rw [if_pos hchunked, if_pos hchunked]
      exact (hs .chunked).getter.trans ((stretch_startChunkedReply srv a _).mono fun _ ho =>
        ho.imp fun ha => Or.inl ⟨rfl, ha⟩)
    · rw [if_neg hchunked, if_neg hchunked]
      refine (hs .stream).getter.trans ((stretch_startStreamReply srv a _).mono fun _ ho =>
        ho.imp fun ha => Or.inr (Or.inr ⟨rfl, ?_⟩))
      have hbody := sameBody_setServerHeaders srv a (s.emit (.started .stream))
      exact (emptyRefused_congr a (content_renderHeaders srv hbody.status hbody.content)).mp ha
  · rw [if_neg hcontent, if_neg hcontent]
    exact hregular.getter

/-- The events of a handler and of its response. -/
def HandlerEvent (o : Obs) : Prop :=
  GetterEvent srv (a.accepts = false) o ∨ (∃ p, o = .started p) ∨ (∃ ip, o = .clientStarted ip) ∨
    (∃ r, o = .dispatched r) ∨ ∃ r, o = .handled r

/-- The call of the handler, up to its response. -/
theorem stretch_called {s : AsyncConnection} (hs : s.world.socket ≠ .closed) :
    Stretch (HandlerEvent srv a) s (Tail.called s) := by
  refine (Stretch.emit s ?_ fun _ => id).trans (Stretch.emit _ ?_ fun hc => absurd hc hs)
  · exact Or.inr (Or.inr (Or.inl ⟨_, rfl⟩))
  · exact Or.inr (Or.inr (Or.inr (Or.inl ⟨_, rfl⟩)))

/-- What follows the return of the handler. -/
theorem stretch_returnFromHandler (s : AsyncConnection) :
    Stretch (HandlerEvent srv a) s (Tail.returnFromHandler srv a s).state := by
  have h1 : ∀ response, Stretch (HandlerEvent srv a) s (Tail.handled response s) := fun response =>
    (Stretch.emit s (Or.inr (Or.inr (Or.inr (Or.inr ⟨_, rfl⟩)))) fun _ => id).trans
      (Stretch.silent rfl)
  rcases Tail.returnFromHandler_cases srv a s with
    ⟨-, heq⟩ | ⟨response, ⟨-, heq⟩ | ⟨-, heq⟩ | ⟨-, heq⟩⟩
  · rw [heq]
    exact Stretch.silent rfl
  · rw [heq]
    exact h1 response
  · rw [heq]
    exact (h1 response).trans (Stretch.silent rfl)
  · rw [heq]
    refine (h1 response).trans ((Stretch.emit _ ?_ fun _ => id).trans
      ((stretch_startReply srv a _).mono ?_))
    · exact Or.inr (Or.inl ⟨_, rfl⟩)
    · refine fun _ ho => Or.inl (ho.imp ?_)
      rintro (⟨-, ha⟩ | ⟨-, -, -, ha⟩ | ⟨-, -, -, ha⟩)
      · exact ha
      · exact ha
      · exact ha

/-- The call of the handler and all that follows in the task. -/
theorem stretch_callHandler {s : AsyncConnection} (hs : s.world.socket ≠ .closed) :
    Stretch (HandlerEvent srv a) s (Tail.callHandler srv a s).state := by
  rw [Tail.callHandler_eq]
  exact (stretch_called srv a hs).trans (stretch_returnFromHandler srv a _)

/-- A handler is called on an open socket only. -/
theorem stretch_handleCompletedRead (s : AsyncConnection) :
    Stretch (HandlerEvent srv a) s (Tail.handleCompletedRead srv a s).state := by
  unfold Tail.handleCompletedRead
  split
  · exact Stretch.silent rfl
  · split
    · exact Stretch.silent rfl
    · rename_i hs
      exact stretch_callHandler srv a hs

/-! ## The last call -/

/-- Keeping the books is part of a delivery, -/
theorem stretch_keep (books : Books) (s : AsyncConnection) :
    Stretch DeliveryEvent s (books.keep s) := by
  cases books with
  | none => exact Stretch.silent rfl
  | log => exact stretch_finalizeStreamLogging s
  | logAndNotify status =>
    exact (stretch_finalizeStreamLogging s).trans (stretch_notifyBackendFinished _ _)

/-- and only writes to the log. -/
theorem logOnly_keep (books : Books) (s : AsyncConnection) : LogOnly s (books.keep s) := by
  cases books with
  | none => exact ⟨rfl, rfl, rfl, rfl, rfl, rfl, s.itsResponse, s.itsBackendNotified, s.world, rfl⟩
  | log => exact logOnly_finalizeStreamLogging s
  | logAndNotify status =>
    exact (logOnly_finalizeStreamLogging s).trans (logOnly_notifyBackendFinished _ _)

/-- The events of `finishResponse`. -/
def FinishEvent (o : Obs) : Prop := o = .rearmed ∨ ∃ g n, o = .armed g n

/-- An arming is recorded. -/
theorem trail_armTimer (n : ℕ) (s : AsyncConnection) :
    Trail (fun o => ∃ g n, o = .armed g n) s (armTimer n s) :=
  ⟨⟨[.armed (s.itsTimerGeneration + 1) n], rfl, by simp [Outward]⟩, fun h => h⟩

/-- The end of a response records the re-arming of the exchange and of the timer. -/
theorem trail_finishResponse (s : AsyncConnection) :
    Trail FinishEvent s (finishResponse srv s) := by
  have hresume : ∀ u : AsyncConnection, Trail FinishEvent u (resumeReading u) := by
    intro u
    unfold resumeReading
    split
    · exact Trail.silent rfl fun h => h
    · exact Trail.silent rfl fun h => h
  unfold finishResponse
  split
  · have hreset : Trail FinishEvent s (resetRequestState s) :=
      (Trail.emit s (Or.inl rfl) fun _ => id).trans (Trail.silent rfl fun h => h)
    exact hreset.trans (((trail_armTimer _ _).mono fun _ ho => Or.inr ho).trans (hresume _))
  · exact Trail.refl s

/-- The events of `sendSimpleReply`. -/
def OwnEvent (m : Message) (o : Obs) : Prop :=
  (∃ r, o = .rendered m r (srv.spine.headerSection r)) ∨ (∃ b, o = .wrote m b) ∨
    o = .writeError m ∨ o = .closed ∨ FinishEvent o

/-- The server's own reply. -/
theorem trail_sendSimpleReply (m : Message) (s : AsyncConnection) :
    Trail (OwnEvent srv m) s (sendSimpleReply srv a m s) := by
  have hw : ∀ (b : Bytes) (o : WriteOutcome) (u : AsyncConnection),
      Trail (OwnEvent srv m) u (write m b o u) := fun b o u =>
    Trail.write u b o (fun c => Or.inr (Or.inl ⟨c, rfl⟩)) (Or.inr (Or.inr (Or.inl rfl)))
  unfold sendSimpleReply headersToString
  split
  · exact Trail.refl s
  · rename_i head hh
    have hrendered : head = srv.spine.headerSection s.itsResponse := by
      split at hh
      · exact (Option.some.inj hh).symm
      · cases hh
    have hhead : Trail (OwnEvent srv m) s (writeHead a m head s) := by
      rw [hrendered]
      exact (Trail.emit s (Or.inl ⟨_, rfl⟩) fun _ => id).trans (hw _ _ _)
    have hcontent : Trail (OwnEvent srv m) (writeHead a m head s)
        (writeContent a m (writeHead a m head s)) :=
      (hw _ _ _).trans (Trail.silent rfl fun h => h)
    dsimp only
    split
    · exact hhead.trans (hcontent.trans ((trail_finishResponse srv _).mono fun _ ho =>
        Or.inr (Or.inr (Or.inr (Or.inr ho)))))
    · exact hhead.trans (hcontent.trans (Trail.close _ (Or.inr (Or.inr (Or.inr (Or.inl rfl))))))

/-- The events of a last call. -/
def LastEvent : Outcome → Obs → Prop
  | .stop _, _ => False
  | .reply m _ _, o => OwnEvent srv m o ∨ ReplyEvent srv o
  | .finish _, o => FinishEvent o

/-- The last call of a handler. -/
theorem trail_run (x : Outcome) : Trail (LastEvent srv x) x.state (x.run srv a) := by
  cases x with
  | stop s => exact Trail.refl s
  | reply m s books =>
    exact ((trail_sendSimpleReply srv a m s).mono fun _ ho => Or.inl ho).trans
      ((stretch_keep books _).toTrail.mono fun _ ho => Or.inr ho.reply)
  | finish s => exact trail_finishResponse srv s

/-! ## The events of a step -/

/-- The events of a queued call of `handleRead`. -/
def ReadEvent (o : Obs) : Prop :=
  (∃ g n, o = .armed g n) ∨ (∃ r, o = .parsed r) ∨ PeerEvent o ∨ InterimEvent o

/-- The events of a step in front of the last call. -/
def StepEvent : Event → Obs → Prop
  | .handshake _ _, o => o = .closed
  | .receive _ bytes, o => o = .received bytes
  | .readFails _ _ _, o => o = .readError
  | .runRead _ _, o => ReadEvent o
  | .runTask _ a, o => HandlerEvent srv a o
  | .writeSome _ _ a, o => (∃ b, o = .wrote .handler b) ∨ GetterEvent srv (a.accepts = false) o
  | .writeFails _ a, o => GetterEvent srv (a.accepts = false) o
  | .timerExpires, _ => False
  | .runTimer _ _, o => o = .closed
  | .requestShutdown, _ => False

/-- The events of the steps that run no task and complete no write. -/
def EarlyEvent (o : Obs) : Prop :=
  o = .closed ∨ o = .readError ∨ (∃ b, o = .received b) ∨ ReadEvent o

/-- Only tasks and completed writes have events that are not early. -/
theorem earlyEvent_of_stepEvent {e : Event} (ht : ∀ i a, e ≠ .runTask i a)
    (hw : ∀ i n a, e ≠ .writeSome i n a) (hf : ∀ i a, e ≠ .writeFails i a) {o : Obs}
    (h : StepEvent srv e o) : EarlyEvent o := by
  cases e with
  | handshake i ok => exact Or.inl h
  | receive i bytes => exact Or.inr (Or.inr (Or.inl ⟨bytes, h⟩))
  | readFails i err a => exact Or.inr (Or.inl h)
  | runRead i a => exact Or.inr (Or.inr (Or.inr h))
  | runTask i a => exact absurd rfl (ht i a)
  | writeSome i n a => exact absurd rfl (hw i n a)
  | writeFails i a => exact absurd rfl (hf i a)
  | timerExpires => exact absurd h id
  | runTimer generation a => exact Or.inl h
  | requestShutdown => exact absurd h id

/-- What is recorded while the buffer is parsed, -/
theorem trail_parseBuffer (s : AsyncConnection) :
    Trail (fun o => (∃ r, o = .parsed r) ∨ PeerEvent o ∨ InterimEvent o) s
      (Tail.parseBuffer srv a s).state := by
  unfold Tail.parseBuffer
  cases srv.spine.parseOneRequest s.itsBuffer with
  | complete request consumed =>
    let rest := s.itsBuffer.drop consumed
    let u : AsyncConnection :=
      { s with itsRequest := request, itsBuffer := rest, itsReceivedBytes := rest.length }
    have hu : Trail (fun o => (∃ r, o = .parsed r) ∨ PeerEvent o ∨ InterimEvent o) s
        (u.emit (.parsed request)) :=
      Trail.trans (t := u) (Trail.silent rfl fun h => h)
        (Trail.emit u (Or.inl ⟨_, rfl⟩) fun _ => id)
    exact hu.trans ((stretch_handleParsedRequest srv a u).toTrail.mono fun _ ho =>
      Or.inr (Or.inl ho))
  | failed => exact Trail.silent rfl fun h => h
  | incomplete =>
    exact (stretch_handleIncompleteRequest srv a s).toTrail.mono fun _ ho => Or.inr (Or.inr ho)

/-- while the bytes of a read are looked at, -/
theorem trail_handleReadBytes (bytes : Bytes) (s : AsyncConnection) :
    Trail ReadEvent s (Tail.handleReadBytes srv a bytes (leaveIdle srv s)).state := by
  have hidle : Trail ReadEvent s (leaveIdle srv s) := by
    unfold leaveIdle
    split
    · exact Trail.behind ((trail_armTimer _ _).mono fun _ ho => Or.inl ho) rfl fun h => h
    · exact Trail.silent rfl fun h => h
  refine hidle.trans ?_
  unfold Tail.handleReadBytes
  dsimp only
  split
  · exact Trail.silent rfl fun h => h
  · refine Trail.behind ((trail_parseBuffer srv a _).mono ?_) rfl fun h => h
    exact fun _ ho => Or.inr ho

/-- and by the timer, in front of its reply. -/
theorem trail_handleTimer (err : ErrorCode) (generation : ℕ) (s : AsyncConnection) :
    Trail (fun o => o = .closed) s (Tail.handleTimer srv a err generation s).state := by
  unfold Tail.handleTimer
  split
  · exact Trail.refl s
  split
  · exact Trail.refl s
  dsimp only
  split
  · exact Trail.behind (Trail.close _ rfl) rfl fun h => h
  · exact Trail.silent rfl fun h => h

/-- **What a step leaves in the trace**, up to its last call. -/
theorem trail_step {s : AsyncConnection} {e : Event} {x : Outcome}
    (h : Tail.step srv s e = some x) : Trail (StepEvent srv e) s x.state := by
  cases e with
  | handshake i ok =>
    simp only [Tail.step, step] at h
    split at h
    · obtain rfl := Option.some.inj h
      show Trail _ s (handleHandshake ok (s.release i))
      unfold handleHandshake
      split
      · exact Trail.silent rfl fun h => h
      · exact Trail.behind (Trail.close _ rfl) rfl fun h => h
    · cases h
  | receive i bytes =>
    simp only [Tail.step, step] at h
    split at h
    · split at h
      · obtain rfl := Option.some.inj h
        exact ⟨⟨[.received bytes], rfl, by simp [StepEvent, Outward]⟩, fun h => h⟩
      · cases h
    · cases h
  | readFails i err a =>
    simp only [Tail.step] at h
    split at h
    · split at h
      · obtain rfl := Option.some.inj h
        refine Trail.behind (t := s.release i) ?_ rfl fun h => h
        unfold Tail.handleRead
        split
        · exact Trail.silent rfl fun h => h
        · dsimp only
          exact Trail.behind (Trail.emit _ rfl fun _ => id) rfl fun h => h
      · cases h
    · cases h
  | runRead i a =>
    simp only [Tail.step] at h
    split at h
    · rename_i bytes _
      obtain rfl := Option.some.inj h
      refine Trail.behind (t := s.release i) ?_ rfl fun h => h
      unfold Tail.handleRead
      split
      · exact Trail.silent rfl fun h => h
      · exact Trail.behind (trail_handleReadBytes srv a bytes _) rfl fun h => h
    · cases h
  | runTask i a =>
    simp only [Tail.step] at h
    split at h
    · rename_i pool task _
      obtain rfl := Option.some.inj h
      refine Trail.behind (t := s.release i) ?_ rfl fun h => h
      cases task with
      | handleCompletedRead view =>
        exact Trail.behind (stretch_handleCompletedRead srv a _).toTrail rfl fun h => h
      | getNextChunk =>
        exact (stretch_getNextChunk srv a _).toTrail.mono fun _ ho =>
          Or.inl (ho.getter fun ha => ha.2.2)
      | getNextChunkedChunk =>
        exact (stretch_getNextChunkedChunk srv a _).toTrail.mono fun _ ho => Or.inl (ho.getter id)
    · cases h
  | writeSome i n a =>
    simp only [Tail.step] at h
    split at h
    · rename_i handler buffer _
      split at h
      · rename_i hn
        obtain rfl := Option.some.inj h
        refine Trail.behind (t := s.release i) ?_ rfl fun h => h
        refine (Trail.emit _ (Or.inl ⟨_, rfl⟩) ?_).trans
          ((stretch_runWriteHandler srv a handler _ n _).toTrail.mono fun _ ho =>
            Or.inr (ho.getter fun hp => hp.2.2.2))
        intro hc
        exact absurd (hn.2.symm.trans hc) (by simp)
      · cases h
    · cases h
  | writeFails i a =>
    simp only [Tail.step] at h
    split at h
    · rename_i handler buffer _
      obtain rfl := Option.some.inj h
      -- the socket is broken by the failure, unless it was closed before
      have hfail : Trail (GetterEvent srv (a.accepts = false)) s (s.release i).failWrite := by
        refine ⟨⟨[.writeError .handler], rfl, ?_⟩, ?_⟩
        · intro o ho
          obtain rfl := List.mem_singleton.mp ho
          exact ⟨Or.inl trivial, fun _ => id⟩
        · intro hc
          show (if s.world.socket = .open then SocketState.broken else s.world.socket) = .closed
          rw [hc]
          rfl
      exact hfail.trans ((stretch_runWriteHandler srv a handler _ 0 _).toTrail.mono fun _ ho =>
        ho.getter fun hp => hp.2.2.2)
    · cases h
  | timerExpires =>
    simp only [Tail.step, step] at h
    split at h
    · obtain rfl := Option.some.inj h
      exact Trail.silent rfl fun h => h
    · cases h
  | runTimer generation a =>
    simp only [Tail.step] at h
    split at h
    · rename_i w _
      obtain rfl := Option.some.inj h
      exact Trail.behind (trail_handleTimer srv a _ generation _) rfl fun h => h
    · cases h
  | requestShutdown =>
    obtain rfl := Option.some.inj h
    exact Trail.silent rfl fun h => h

/-- A whole step: what stands in front of the last call, and the last call. -/
theorem trail_whole {s s' : AsyncConnection} {e : Event} (h : step srv s e = some s') :
    ∃ x, Tail.step srv s e = some x ∧ s' = x.run srv e.answers ∧
      Trail (fun o => StepEvent srv e o ∨ LastEvent srv x o) s s' := by
  obtain ⟨x, hx, rfl⟩ := exists_outcome srv h
  refine ⟨x, hx, rfl, ?_⟩
  exact ((trail_step srv hx).mono fun _ ho => Or.inl ho).trans
    ((trail_run srv e.answers x).mono fun _ ho => Or.inr ho)

/-- **A closed socket is quiet**: whatever is still called, nothing is sent and
no handler is called. -/
theorem quiet_run {s s' : AsyncConnection} {es : List Event} (hs : s.world.socket = .closed)
    (hrun : runFrom srv s es = some s') :
    s'.world.socket = .closed ∧
      ∃ new, s'.world.trace = new ++ s.world.trace ∧ ∀ o ∈ new, ¬ Outward o := by
  let P : AsyncConnection → Prop := fun u => u.world.socket = .closed ∧
    ∃ new, u.world.trace = new ++ s.world.trace ∧ ∀ o ∈ new, ¬ Outward o
  refine Transition.run_preserves (P := P) ?_ ⟨hs, [], rfl, by simp⟩ hrun
  rintro u e u' ⟨hu, n, hn, hq⟩ hstep
  obtain ⟨x, -, -, ht⟩ := trail_whole srv hstep
  obtain ⟨n', hn', hq'⟩ := ht.events
  refine ⟨ht.socket hu, n' ++ n, ?_, ?_⟩
  · rw [hn', hn, List.append_assoc]
  · intro o ho
    rcases List.mem_append.mp ho with ho | ho
    · exact (hq' o ho).2 hu
    · exact hq o ho

end AsyncConnection

end SmartMet
