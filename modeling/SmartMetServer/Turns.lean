/-
# The turns of a dialogue

Each completion handler runs in one turn of the dialogue: it looks at what the client
has sent (`Looks`), or stands in the turn of a request it takes or serves (`Stands`).

* `continues_step` : a step of the connection goes on with the dialogue;
* `dialogue_kept` : in every run the connection does nothing else.
-/
import SmartMetServer.ChunkedReply
import SmartMetServer.Dialogue

namespace SmartMet

open StreamFraming

namespace AsyncConnection

variable (srv : Server)

/-! ## The handler's response -/

section Serving

variable {srv} {d : Floor} {s t : AsyncConnection} (a : Answers)

/-- An open turn is an open socket. -/
theorem Stands.open_iff {τ : Turn} (h : Stands τ d s) (hopen : τ ≠ .closed) :
    d.turn = .closed ↔ s.world.socket = .closed := by
  rw [h.turn]
  exact ⟨fun hc => absurd hc hopen, fun hc => absurd hc h.socket⟩

/-- A header section is written within the turn, -/
theorem within_flushPendingHeaders (h : Stands .serving d s) :
    Within srv d s (flushPendingHeaders a s) := by
  unfold flushPendingHeaders
  split
  · exact Within.silent rfl rfl
  · have hm : d.turn = .closed ∨ d.turn.write .handler = some d.turn := by
      rw [h.turn]
      exact Or.inr rfl
    exact (Within.write (h.open_iff (by simp)) hm s.itsPendingHeaders a.flushWrite).trans
      (Within.silent rfl rfl)

/-- the log is kept, -/
theorem within_finalizeStreamLogging (srv : Server) (d : Floor) (s : AsyncConnection) :
    Within srv d s (finalizeStreamLogging s) := by
  unfold finalizeStreamLogging
  split
  · exact (Within.emit rfl s).trans (Within.silent rfl rfl)
  · exact Within.silent rfl rfl

/-- the backend notified, -/
theorem within_notifyBackendFinished (srv : Server) (d : Floor) (status : StreamerStatus)
    (s : AsyncConnection) : Within srv d s (notifyBackendFinished status s) := by
  unfold notifyBackendFinished
  split
  · exact Within.silent rfl rfl
  · exact (Within.emit rfl s).trans (Within.silent rfl rfl)

/-- a write fails, -/
theorem within_failWrite (srv : Server) (d : Floor) (s : AsyncConnection) :
    Within srv d s s.failWrite := by
  refine ⟨Leads.emit (o := .writeError .handler) rfl s, rfl, ?_, rfl⟩
  show (if s.world.socket = .open then SocketState.broken else s.world.socket) = .closed ↔ _
  split
  · rename_i hs
    rw [hs]
    exact ⟨fun hc => (by cases hc), fun hc => (by cases hc)⟩
  · exact Iff.rfl

/-- What a handler's turn allows. -/
theorem Stands.event (h : Stands .serving d s) {o : Obs}
    (ho : Floor.step srv.spine.parseOneRequest d o = if d.turn = .serving then some d else none)
    (t : AsyncConnection) : Within srv d t (t.emit o) := by
  rw [if_pos h.turn] at ho
  exact Within.emit ho t

/-- a chunk is taken -/
theorem within_takeChunk (h : Stands .serving d s) (c : Bytes) :
    Within srv d s (takeChunk c s) := (h.event rfl s).trans (Within.silent rfl rfl)

/-- or the stream ends. -/
theorem within_streamEnded (h : Stands .serving d s) (status : StreamerStatus) (own : Bool) :
    Within srv d s (s.emit (.streamEnded status own)) := h.event rfl s

/-- The next getter is awaited, or refused. -/
theorem proceeds_scheduleGetter {task : Task}
    (htask : ∀ pool, (Activity.task pool task).turn = .serving) (h : Stands .serving d s) :
    Proceeds srv d s (Tail.scheduleGetter srv a task s) := by
  unfold Tail.scheduleGetter
  split
  · have hturn : Stands (Activity.task (chunkPool s) task).turn d s := by
      rw [htask]
      exact h
    exact hturn.await rfl
  · have hrefused : Within srv d s (s.emit .refused) := h.event rfl s
    have hend : Within srv d s { s.emit .refused with itsKeepAlive := false } :=
      hrefused.trans (Within.silent rfl rfl)
    exact ((h.within hend).stock a .serviceUnavailable (Or.inr rfl)).behind hend.leads

/-- The chunk's write is awaited. -/
theorem continues_sendChunk (h : Stands .serving d s) (handler : WriteHandler) (wire : Bytes) :
    Continues srv d s (sendChunk handler wire s) := by
  let t : AsyncConnection :=
    { s with
      itsResponseString := s.itsPendingHeaders ++ wire
      itsPendingHeaders := []
      itsSentBytes := 0 }
  have ht : Stands (Activity.write handler (s.itsPendingHeaders ++ wire)).turn d t :=
    h.silent rfl rfl
  exact (Leads.silent rfl).continues (ht.await rfl)

/-- An empty chunk: the pending header section goes out, and the next one is asked for. -/
theorem proceeds_emptyChunk {task : Task}
    (htask : ∀ pool, (Activity.task pool task).turn = .serving) (h : Stands .serving d s)
    (c : Bytes) :
    Proceeds srv d s (if flushFails a (takeChunk c s) then
        .stop (flushPendingHeaders a (takeChunk c s))
      else Tail.scheduleGetter srv a task (flushPendingHeaders a (takeChunk c s))) := by
  have hchunk : Within srv d s (takeChunk c s) := within_takeChunk h c
  have hflush := hchunk.trans (within_flushPendingHeaders a (h.within hchunk))
  have ht := h.within hflush
  split
  · exact (ht.stop (by simp) rfl).behind hflush.leads
  · exact (proceeds_scheduleGetter a htask ht).behind hflush.leads

/-- The getter of a stream of announced length serves, -/
theorem proceeds_getNextChunk (h : Stands .serving d s) :
    Proceeds srv d s (Tail.getNextChunk srv a s) := by
  have hend : ∀ status own, Proceeds srv d s
      (if flushFails a (s.emit (.streamEnded status own)) then
        .stop (flushPendingHeaders a (s.emit (.streamEnded status own)))
      else Tail.finishStream status (flushPendingHeaders a (s.emit (.streamEnded status own)))) := by
    intro status own
    have hended : Within srv d s (s.emit (.streamEnded status own)) := within_streamEnded h status own
    have hflush := hended.trans (within_flushPendingHeaders a (h.within hended))
    split
    · exact ((h.within hflush).stop (by simp) rfl).behind hflush.leads
    · have hbooks := (hflush.trans (within_finalizeStreamLogging srv d _)).trans
        (within_notifyBackendFinished srv d status _)
      let u := notifyBackendFinished status (finalizeStreamLogging
        (flushPendingHeaders a (s.emit (.streamEnded status own))))
      let keep := u.itsKeepAlive && u.itsTotalStreamedBytes == u.itsDeclaredContentLength
      have hdone : Stands .serving d { u with itsKeepAlive := keep } :=
        (h.within hbooks).silent rfl rfl
      exact hdone.finish.behind (hbooks.leads.trans (Leads.silent rfl))
  unfold Tail.getNextChunk
  cases getStreamingStatus a s.itsResponse with
  | ok =>
    cases nextContent a s.itsResponse with
    | none => exact h.stop (by simp) rfl
    | some c =>
      dsimp only
      split
      · have hchunk : Within srv d s (takeChunk c s) := within_takeChunk h c
        exact hchunk.leads.continues (continues_sendChunk (h.within hchunk) .writeStreamReply c)
      · exact proceeds_emptyChunk a (fun _ => rfl) h c
  | _ => exact hend _ _

/-- so does that of a chunked one -/
theorem proceeds_getNextChunkedChunk (h : Stands .serving d s) :
    Proceeds srv d s (Tail.getNextChunkedChunk srv a s) := by
  have hend : ∀ status own, Proceeds srv d s
      (if status ≠ .exitOk then
        .stop (abandonChunked a (notifyBackendFinished status (s.emit (.streamEnded status own))))
      else .stop (sendChunk .finalizeChunkedReply "0\r\n\r\n".toList
        (notifyBackendFinished status (s.emit (.streamEnded status own))))) := by
    intro status own
    have hbooks : Within srv d s (notifyBackendFinished status (s.emit (.streamEnded status own))) :=
      (within_streamEnded h status own).trans (within_notifyBackendFinished srv d status _)
    split
    · have hflush := (hbooks.trans (within_flushPendingHeaders a (h.within hbooks))).trans
        (within_finalizeStreamLogging srv d _)
      let u := finalizeStreamLogging (flushPendingHeaders a
        (notifyBackendFinished status (s.emit (.streamEnded status own))))
      have hclosing := (h.within hflush).silent (t := { u with itsKeepAlive := false })
        rfl rfl
      refine (hflush.leads.trans (Leads.silent rfl)).continues (continues_closeSocket ?_ ?_)
      · exact fun hne => absurd hclosing.outstanding hne
      · intro y hy
        rw [hclosing.outstanding] at hy
        cases hy
    · exact hbooks.leads.continues (continues_sendChunk (h.within hbooks) .finalizeChunkedReply _)
  unfold Tail.getNextChunkedChunk
  cases getStreamingStatus a s.itsResponse with
  | ok =>
    cases nextContent a s.itsResponse with
    | none => exact h.stop (by simp) rfl
    | some c =>
      dsimp only
      split
      · have hchunk : Within srv d s (takeChunk c s) := within_takeChunk h c
        exact hchunk.leads.continues (continues_sendChunk (h.within hchunk) .writeChunkedReply _)
      · exact proceeds_emptyChunk a (fun _ => rfl) h c
  | _ => exact hend _ _

/-- What is left of a buffer is written, or the response goes on; a failed write is
answered with a stock reply. -/
theorem proceeds_continueWrite (h : Stands .serving d s) (handler : WriteHandler) (e : ErrorCode)
    (n : ℕ) (next : AsyncConnection → Outcome) (failed : Books)
    (hnext : ∀ u, Stands .serving d u → Proceeds srv d u (next u)) :
    Proceeds srv d s (Tail.continueWrite srv a handler e n next failed s) := by
  unfold Tail.continueWrite
  dsimp only
  split
  · let t : AsyncConnection := { s with itsFinalStatus := e, itsSentBytes := s.itsSentBytes + n }
    have ht : Stands .serving d t := h.silent rfl rfl
    split
    · have hwrite : Stands (Activity.write handler
          (s.itsResponseString.drop (s.itsSentBytes + n))).turn d t := ht
      exact (Leads.silent rfl).continues (hwrite.await rfl)
    · exact (hnext t ht).behind (Leads.silent rfl)
  · let t : AsyncConnection := { s with itsFinalStatus := e, itsKeepAlive := false }
    have ht : Stands .serving d (stockResponse srv a .serviceUnavailable t) :=
      (h.silent (t := t) rfl rfl).silent rfl rfl
    exact (ht.reply rfl rfl rfl failed).behind (Leads.silent rfl)

/-- and a completed write. -/
theorem proceeds_runWriteHandler (h : Stands .serving d s) (handler : WriteHandler)
    (e : ErrorCode) (n : ℕ) : Proceeds srv d s (Tail.runWriteHandler srv a handler e n s) := by
  cases handler with
  | writeRegularReply =>
    refine proceeds_continueWrite a h .writeRegularReply e n
      (fun s => .finish (notifyBackendFinished .exitOk s)) .none fun u hu => ?_
    have hbooks := within_notifyBackendFinished srv d .exitOk u
    exact (hu.within hbooks).finish.behind hbooks.leads
  | writeStreamReply =>
    refine proceeds_continueWrite a h .writeStreamReply e n _ (.logAndNotify _) fun u hu => ?_
    exact proceeds_scheduleGetter a (fun _ => rfl) hu
  | writeChunkedReply =>
    refine proceeds_continueWrite a h .writeChunkedReply e n _ (.logAndNotify _) fun u hu => ?_
    exact proceeds_scheduleGetter a (fun _ => rfl) hu
  | finalizeChunkedReply =>
    refine proceeds_continueWrite a h .finalizeChunkedReply e n
      (fun s => .finish (finalizeStreamLogging s)) .log fun u hu => ?_
    have hbooks := within_finalizeStreamLogging srv d u
    exact (hu.within hbooks).finish.behind hbooks.leads

/-- The write of a buffered reply is awaited. -/
theorem continues_startRegularReply (h : Stands .serving d s) :
    Continues srv d s (startRegularReply srv s) := by
  let p := renderHeaders srv (frameResponse srv s.itsHeadRequest
    (echoETag srv s.itsRequest (encodeResponse srv s.itsRequest s.itsResponse)))
  let wire := if s.itsHeadRequest then p.2 else p.2 ++ p.1.getContent
  let t : AsyncConnection := { s with itsResponse := p.1 }.emit (.rendered .handler p.1 p.2)
  have ht : Within srv d s t :=
    (Within.silent rfl rfl : Within srv d s { s with itsResponse := p.1 }).trans (Within.emit rfl _)
  have hwrite : Stands (Activity.write .writeRegularReply wire).turn d
      { t with itsResponseString := wire } := (h.within ht).silent rfl rfl
  exact (ht.leads.trans (Leads.silent rfl)).continues (hwrite.await rfl)

/-- The header section is prepared within the turn. -/
theorem within_preparePendingHeaders (d : Floor) (s : AsyncConnection) :
    Within srv d s (preparePendingHeaders srv s) := by
  let p := renderHeaders srv s.itsResponse
  exact (Within.silent rfl rfl : Within srv d s
    { s with itsResponse := p.1, itsPendingHeaders := p.2 }).trans (Within.emit rfl _)

/-- A stream of announced length is started, -/
theorem proceeds_startStreamReply (h : Stands .serving d s) :
    Proceeds srv d s (Tail.startStreamReply srv a s) := by
  let declared := s.itsResponse.getContentLength
  let t : AsyncConnection :=
    { s with
      itsDeclaredContentLength := declared
      itsResponse := s.itsResponse.setHeader "Content-Length".toList (toDecimal declared) }
  have hprep : Within srv d s (preparePendingHeaders srv t) :=
    (Within.silent rfl rfl : Within srv d s t).trans (within_preparePendingHeaders d t)
  exact (proceeds_getNextChunk a (h.within hprep)).behind hprep.leads

/-- a chunked one, -/
theorem proceeds_startChunkedReply (h : Stands .serving d s) :
    Proceeds srv d s (Tail.startChunkedReply srv a s) := by
  let r := s.itsResponse.setHeader "Transfer-Encoding".toList "chunked".toList
  let t : AsyncConnection := { s with itsResponse := r.removeHeader "Content-Length".toList }
  have hprep : Within srv d s (preparePendingHeaders srv t) :=
    (Within.silent rfl rfl : Within srv d s t).trans (within_preparePendingHeaders d t)
  exact (proceeds_getNextChunkedChunk a (h.within hprep)).behind hprep.leads

/-- or a reply on any path. -/
theorem proceeds_startReply (h : Stands .serving d s) :
    Proceeds srv d s (Tail.startReply srv a s) := by
  have hstart : ∀ path, Within srv d s (setServerHeaders srv a (s.emit (.started path))) :=
    fun path => (h.event rfl s).trans (Within.silent rfl rfl)
  have hregular := (hstart .regular).leads.continues
    (continues_startRegularReply (h.within (hstart .regular)))
  unfold Tail.startReply
  split
  · exact hregular
  split
  · split
    · have hlast : Within srv d s { s.emit (.started .gateway) with itsKeepAlive := false } :=
        (h.event rfl s).trans (Within.silent rfl rfl)
      exact (proceeds_getNextChunk a (h.within hlast)).behind hlast.leads
    split
    · exact (proceeds_startChunkedReply a (h.within (hstart .chunked))).behind
        (hstart .chunked).leads
    · exact (proceeds_startStreamReply a (h.within (hstart .stream))).behind (hstart .stream).leads
  · exact hregular

/-- The handler is called, and from there on its response is served. -/
theorem proceeds_handleCompletedRead (h : Stands .taken d s) :
    Proceeds srv d s (Tail.handleCompletedRead srv a s) := by
  unfold Tail.handleCompletedRead
  split
  · exact h.stop (by simp) rfl
  rw [if_neg h.socket]
  let e : Floor := { d with turn := .serving }
  let t := Tail.called s
  have hcall : Leads srv d e s t := by
    have hstarted : Floor.step srv.spine.parseOneRequest d
        (.clientStarted s.itsRequest.clientIP) = some d := if_pos h.turn
    have hdispatched : Floor.step srv.spine.parseOneRequest d (.dispatched s.itsRequest) =
        some e := if_pos h.turn
    exact (Leads.emit hstarted s).trans (Leads.emit hdispatched _)
  have ht : Stands .serving e t := ⟨rfl, h.outstanding, h.socket, h.unread⟩
  refine Proceeds.behind (t := t) ?_ hcall
  have hhandled : ∀ response, Within srv e t (Tail.handled response t) :=
    fun response => (ht.event rfl t).trans (Within.silent rfl rfl)
  have hu : ∀ response, Stands .serving e (Tail.handled response t) :=
    fun response => ht.within (hhandled response)
  rw [Tail.callHandler_eq]
  rcases Tail.returnFromHandler_cases srv a t with
    ⟨-, heq⟩ | ⟨response, ⟨-, heq⟩ | ⟨-, heq⟩ | ⟨-, heq⟩⟩
  · rw [heq]
    exact ht.stop (by simp) rfl
  · rw [heq]
    exact ((hu response).stop (by simp) rfl).behind (hhandled response).leads
  · rw [heq]
    exact ((hu response).stock a .badRequest (Or.inr rfl)).behind (hhandled response).leads
  · rw [heq]
    exact (proceeds_startReply a (hu response)).behind (hhandled response).leads

end Serving

/-! ## A request -/

section Taken

variable {srv} {d : Floor} {s t : AsyncConnection} (a : Answers)

/-- A request that was taken up waits for its handler, or is refused. -/
theorem proceeds_scheduleRequest (h : Stands .taken d s) (view : HandlerView) :
    Proceeds srv d s (Tail.scheduleRequest srv a view s) := by
  unfold Tail.scheduleRequest
  split
  · let t : AsyncConnection := { s with itsQueryIsFast := true, itsAdminQuery := false }
    have ht : Stands .taken d t := h.silent rfl rfl
    dsimp only
    split
    · exact (Leads.silent rfl).continues
        (Stands.await (y := .task .fast (.handleCompletedRead view)) ht rfl)
    · exact (ht.stock a .serviceUnavailable (Or.inl rfl)).behind (Leads.silent rfl)
  · let t : AsyncConnection :=
      { s with itsQueryIsFast := srv.slowPoolSize == 0 || view.queryIsFast }
    let pool : Pool := if t.itsAdminQuery then .admin else if t.itsQueryIsFast then .fast else .slow
    have ht : Stands .taken d t := h.silent rfl rfl
    dsimp only
    split
    · exact (Leads.silent rfl).continues
        (Stands.await (y := .task pool (.handleCompletedRead view)) ht rfl)
    · exact (ht.stock a srv.spine.highLoad (Or.inl rfl)).behind (Leads.silent rfl)

/-- The way to its pool. -/
theorem proceeds_routeRequest (h : Stands .taken d s) :
    Proceeds srv d s (Tail.routeRequest srv a s) := by
  unfold Tail.routeRequest
  split
  · let t := setServerHeaders srv a { s with itsResponse := srv.spine.stockOptionsResponse }
    have ht : Stands .taken d t := h.silent rfl rfl
    exact (ht.reply rfl rfl rfl .none).behind (Leads.silent rfl)
  · cases srv.spine.getHandlerView s.itsRequest with
    | none => exact h.stock a .notFound (Or.inl rfl)
    | some view =>
      let admin : Bool := !view.isCatchNoMatch && view.isAdminQuery && srv.adminPoolSize > 0
      let t : AsyncConnection := { s with itsAdminQuery := admin }
      have ht : Stands .taken d t := h.silent rfl rfl
      dsimp only
      split
      · exact (ht.stock a srv.spine.highLoad (Or.inl rfl)).behind (Leads.silent rfl)
      · exact (proceeds_scheduleRequest a ht view).behind (Leads.silent rfl)

/-- Behind `resolveClientIP`, which finds the socket open. -/
theorem proceeds_resolved (h : Stands .taken d s) :
    Proceeds srv d s
      (let s := negotiate srv s
      if s.itsResponseVersion = .v1_1 && (s.itsRequest.headers.get "Host".toList).isNone then
        Tail.sendStockReply srv a .badRequest { s with itsKeepAlive := false }
      else Tail.routeRequest srv a (prepareRequest s)) := by
  have hneg : Stands .taken d (negotiate srv s) := h.silent rfl rfl
  dsimp only
  split
  · have hlast : Stands .taken d { negotiate srv s with itsKeepAlive := false } :=
      hneg.silent rfl rfl
    exact (hlast.stock a .badRequest (Or.inl rfl)).behind (Leads.silent rfl)
  · have hprep : Stands .taken d (prepareRequest (negotiate srv s)) := hneg.silent rfl rfl
    exact (proceeds_routeRequest a hprep).behind (Leads.silent rfl)

end Taken

/-! ## The bytes of a request -/

/-- A handler looks at the buffer and the bytes behind it. -/
structure Looks (bytes : Bytes) (d : Floor) (s : AsyncConnection) : Prop where
  turn : d.turn = .reading ∧ s.world.socket ≠ .closed ∨
    d.turn = .closed ∧ s.world.socket = .closed
  outstanding : s.world.outstanding = []
  unread : d.unread = s.itsBuffer ++ bytes
  keepAlive : s.itsKeepAlive = false

section Looks

variable {srv} {bytes : Bytes} {d : Floor} {s t : AsyncConnection} (a : Answers)

/-- The turn is closed with the socket. -/
theorem Looks.closed (h : Looks bytes d s) : d.turn = .closed ↔ s.world.socket = .closed := by
  rcases h.turn with ⟨hd, hs⟩ | ⟨hd, hs⟩
  · rw [hd]
    exact ⟨fun hc => (by cases hc), fun hc => absurd hc hs⟩
  · exact ⟨fun _ => hs, fun _ => hd⟩

/-- Who looks at bytes keeps the dialogue. -/
theorem Looks.keeps (h : Looks bytes d s) : Keeps d s := by
  have hnone : ∀ y, y ∉ s.world.outstanding := by
    intro y
    rw [h.outstanding]
    exact List.not_mem_nil
  refine ⟨h.closed, fun hne => absurd h.outstanding hne, fun _ y hy => absurd hy (hnone y),
    fun y hy => absurd hy (hnone y), fun hr => ?_⟩
  rcases h.turn with ⟨hd, -⟩ | ⟨hd, -⟩
  · rw [hd] at hr
    cases hr
  · rw [hd] at hr
    cases hr

/-- A handler that takes its leave. -/
theorem Looks.stock (h : Looks bytes d s) (status : Status) :
    Proceeds srv d s (Tail.sendStockReply srv a status s) := by
  have ht : Looks bytes d (stockResponse srv a status s) := by
    refine ⟨h.turn, h.outstanding, h.unread, ?_⟩
    cases hk : (stockResponse srv a status s).itsKeepAlive with
    | false => rfl
    | true =>
      have hs := keepAlive_of_stockResponse srv a hk
      rw [h.keepAlive] at hs
      cases hs
  refine ⟨d, Leads.silent rfl, ht.keeps, fun y hy => ?_, ?_, fun hk => ?_⟩
  · rw [ht.outstanding] at hy
    cases hy
  · rcases h.turn with ⟨hd, -⟩ | ⟨hd, -⟩
    · rw [hd]
      exact Or.inr rfl
    · exact Or.inl hd
  · rw [ht.keepAlive] at hk
    cases hk

/-- A handler that waits for more. -/
theorem Looks.await {y : Activity} (h : Looks y.unread d s) (hy : y.turn = .reading) :
    Continues srv d s (s.await y) := by
  have hone : (s.await y).world.outstanding = [y] := by
    show s.world.outstanding ++ [y] = [y]
    rw [h.outstanding]
    rfl
  refine ⟨d, Leads.silent rfl, h.closed, fun _ => ?_, fun hs z hz => ?_, fun z hz hz' => ?_,
    h.keeps.replied⟩
  · rw [h.unread]
    show _ = s.itsBuffer ++ (s.await y).world.outstanding.flatMap Activity.unread
    rw [hone, List.flatMap_singleton]
  · rw [hone] at hz
    obtain rfl := List.mem_singleton.mp hz
    rw [hy]
    rcases h.turn with ⟨hd, -⟩ | ⟨-, hc⟩
    · exact hd
    · exact absurd hc hs
  · rw [hone] at hz
    obtain rfl := List.mem_singleton.mp hz
    rw [hy] at hz'
    cases hz'

/-- More may be recorded meanwhile, as long as the connection does not persist. -/
theorem Looks.within (h : Looks bytes d s) (hw : Within srv d s t)
    (hk : t.itsKeepAlive = false) : Looks bytes d t := by
  refine ⟨?_, hw.outstanding.trans h.outstanding, by rw [hw.buffer]; exact h.unread, hk⟩
  rcases h.turn with ⟨hd, hs⟩ | ⟨hd, hs⟩
  · exact Or.inl ⟨hd, fun hc => hs (hw.socket.mp hc)⟩
  · exact Or.inr ⟨hd, hw.socket.mpr hs⟩

/-- The interim reply leaves it to the client. -/
theorem Looks.interim (h : Looks bytes d s) (b : Bytes) (o : WriteOutcome) :
    Within srv d s (write .interim b o s) := by
  refine Within.write h.closed ?_ b o
  rcases h.turn with ⟨hd, -⟩ | ⟨hd, -⟩
  · rw [hd]
    exact Or.inr rfl
  · exact Or.inl hd

/-- `handleExpectContinue` goes on with the reading, or takes its leave. -/
theorem proceeds_handleExpectContinue (srv : Server) (a : Answers) (h : Looks [] d s) :
    (∃ t, Tail.handleExpectContinue srv a s = (.stop t, true) ∧ Within srv d s t ∧
      t.itsKeepAlive = false) ∨
    (Tail.handleExpectContinue srv a s).2 = false ∧
      Proceeds srv d s (Tail.handleExpectContinue srv a s).1 := by
  let t : AsyncConnection := { s with itsExpectHandled := true }
  have hw : Within srv d s t := Within.silent rfl rfl
  have ht : Looks [] d t := h.within hw h.keepAlive
  unfold Tail.handleExpectContinue
  split
  · exact Or.inl ⟨s, rfl, Within.silent rfl rfl, h.keepAlive⟩
  dsimp only
  split
  · exact Or.inl ⟨s, rfl, Within.silent rfl rfl, h.keepAlive⟩
  split
  · exact Or.inl ⟨t, rfl, hw, h.keepAlive⟩
  split
  · exact Or.inl ⟨t, rfl, hw, h.keepAlive⟩
  split
  · have hsent : Within srv d t (write .interim _ a.interimWrite t) :=
      ht.interim "HTTP/1.1 100 Continue\r\n\r\n".toList a.interimWrite
    split
    · refine Or.inr ⟨rfl, ?_⟩
      let u := write .interim "HTTP/1.1 100 Continue\r\n\r\n".toList a.interimWrite t
      have hlast : Within srv d s { u with itsFinalStatus := .other, itsKeepAlive := false } :=
        (hw.trans hsent).trans (Within.silent rfl rfl)
      exact hlast.leads.continues ⟨d, Leads.silent rfl, (h.within hlast rfl).keeps⟩
    · exact Or.inl ⟨_, rfl, hw.trans hsent, h.keepAlive⟩
  · refine Or.inr ⟨rfl, ?_⟩
    have hlast : Within srv d s { t with itsKeepAlive := false } := hw.trans (Within.silent rfl rfl)
    exact ((h.within hlast rfl).stock a .expectationFailed).behind hlast.leads

/-- An incomplete request is read on, or refused. -/
theorem proceeds_handleIncompleteRequest (h : Looks [] d s) :
    Proceeds srv d s (Tail.handleIncompleteRequest srv a s) := by
  unfold Tail.handleIncompleteRequest
  split
  · have hlast : Within srv d s { s with itsKeepAlive := false } := Within.silent rfl rfl
    exact ((h.within hlast rfl).stock a .requestHeaderFieldsTooLarge).behind hlast.leads
  · dsimp only
    have hexpect := proceeds_handleExpectContinue srv a h
    rcases hexpect with ⟨t, heq, hw, hk⟩ | ⟨hstop, hends⟩
    · rw [heq]
      exact hw.leads.continues (Looks.await (y := .read) (h.within hw hk) rfl)
    · rw [hstop]
      exact hends

/-- The request at the front is taken; nobody serves it once the socket is closed. -/
theorem proceeds_parsed {n : ℕ} (hclosed : d.turn = .reading ∧ s.world.socket ≠ .closed ∨
      d.turn = .closed ∧ s.world.socket = .closed)
    (ho : s.world.outstanding = []) (hk : s.itsKeepAlive = false)
    (hparse : srv.spine.parseOneRequest d.unread = .complete s.itsRequest n)
    (hbuffer : d.unread.drop n = s.itsBuffer) :
    Proceeds srv d s (Tail.handleParsedRequest srv a s) := by
  let t := s.emit (.parsed s.itsRequest)
  have htold : ∀ τ, (d.turn = .reading ∧ τ = .taken ∨ d.turn = .closed ∧ τ = .closed) →
      Leads srv d { turn := τ, unread := d.unread.drop n } s t := fun τ hτ =>
    Leads.emit (Floor.step_parsed hparse hτ) s
  unfold Tail.handleParsedRequest
  dsimp only
  rcases hclosed with ⟨hd, hs⟩ | ⟨hd, hs⟩
  · have ht : Stands .taken { turn := .taken, unread := d.unread.drop n } t :=
      ⟨rfl, ho, hs, hbuffer⟩
    refine Proceeds.behind ?_ (htold .taken (Or.inl ⟨hd, rfl⟩))
    cases hip : resolveClientIP srv a t with
    | none =>
      have hemit : Within srv { turn := .taken, unread := d.unread.drop n } t
          (t.emit .peerUnknown) := Within.emit rfl _
      exact ((ht.within hemit).stop (by simp) rfl).behind hemit.leads
    | some u =>
      obtain ⟨-, ip, rfl⟩ := resolveClientIP_eq srv a hip
      let u : AsyncConnection := { t with itsRequest.clientIP := ip }
      have hu : Stands .taken { turn := .taken, unread := d.unread.drop n } u := ht.silent rfl rfl
      exact (proceeds_resolved a hu).behind (Leads.silent rfl)
  · have hnone : resolveClientIP srv a t = none := if_pos hs
    rw [hnone]
    have ht : Looks [] { turn := .closed, unread := d.unread.drop n } t :=
      ⟨Or.inr ⟨rfl, hs⟩, ho, hbuffer.trans (List.append_nil _).symm, hk⟩
    have hemit : Within srv { turn := .closed, unread := d.unread.drop n } t
        (t.emit .peerUnknown) := Within.emit rfl _
    exact ((htold .closed (Or.inr ⟨hd, rfl⟩)).trans hemit.leads).continues
      ⟨_, Leads.silent rfl, (ht.within hemit hk).keeps⟩

/-- What is parsed is taken up. -/
theorem proceeds_parseBuffer (h : Looks [] d s) : Proceeds srv d s (Tail.parseBuffer srv a s) := by
  have hunread : d.unread = s.itsBuffer := h.unread.trans (List.append_nil _)
  unfold Tail.parseBuffer
  cases hparse : srv.spine.parseOneRequest s.itsBuffer with
  | incomplete => exact proceeds_handleIncompleteRequest a h
  | failed => exact h.stock a .badRequest
  | complete r n =>
    let rest := s.itsBuffer.drop n
    let t : AsyncConnection :=
      { s with itsRequest := r, itsBuffer := rest, itsReceivedBytes := rest.length }
    have ht : Proceeds srv d t (Tail.handleParsedRequest srv a t) :=
      proceeds_parsed a h.turn h.outstanding h.keepAlive
        ((congrArg _ hunread).trans hparse) (congrArg (List.drop n) hunread)
    exact ht.behind (Leads.silent rfl)

/-- The swap of the timer tells the dialogue nothing. -/
theorem within_leaveIdle (srv : Server) (d : Floor) (s : AsyncConnection) :
    Within srv d s (leaveIdle srv s) ∧ (leaveIdle srv s).itsKeepAlive = s.itsKeepAlive := by
  unfold leaveIdle
  split
  · exact ⟨⟨⟨[_], rfl, rfl⟩, rfl, Iff.rfl, rfl⟩, rfl⟩
  · exact ⟨Within.silent rfl rfl, rfl⟩

/-- The completion handler of a read. -/
theorem proceeds_handleRead (h : Looks bytes d s) (e : ErrorCode) :
    Proceeds srv d s (Tail.handleRead srv a e bytes s) := by
  unfold Tail.handleRead
  split
  · exact h.stock a srv.spine.shutdown
  dsimp only
  have hset : Within srv d s { s with itsFinalStatus := e } := Within.silent rfl rfl
  split
  · obtain ⟨hleave, hkeep⟩ := within_leaveIdle srv d { s with itsFinalStatus := e }
    have hw := hset.trans hleave
    have ht := h.within hw (hkeep.trans h.keepAlive)
    refine Proceeds.behind ?_ hw.leads
    generalize leaveIdle srv { s with itsFinalStatus := e } = t at ht
    unfold Tail.handleReadBytes
    dsimp only
    let u : AsyncConnection := { t with itsReceivedBytes := t.itsReceivedBytes + bytes.length }
    have hu : Within srv d t u := Within.silent rfl rfl
    split
    · exact ((ht.within hu ht.keepAlive).stock a .requestEntityTooLarge).behind hu.leads
    · have hv : Looks [] d { u with itsBuffer := u.itsBuffer ++ bytes } :=
        ⟨ht.turn, ht.outstanding, ht.unread.trans (List.append_nil _).symm, ht.keepAlive⟩
      exact (proceeds_parseBuffer a hv).behind (Leads.silent rfl)
  · have herr : Within srv d s (handleReadError { s with itsFinalStatus := e }) :=
      hset.trans (Within.emit rfl _)
    exact herr.leads.continues ⟨d, Leads.silent rfl, (h.within herr h.keepAlive).keeps⟩

end Looks

/-! ## One step -/

section Step

variable {srv} {d : Floor} {s t : AsyncConnection}

/-- The timer's waits and the shutdown are the server's own affairs. -/
theorem Keeps.of_eq (h : Keeps d s) (htrace : t.world.trace = s.world.trace)
    (ho : t.world.outstanding = s.world.outstanding) (hs : t.world.socket = s.world.socket)
    (hb : t.itsBuffer = s.itsBuffer) : Keeps d t := by
  refine ⟨?_, ?_, ?_, ?_, ?_⟩
  · rw [hs]
    exact h.closed
  · rw [ho, held_eq hb ho]
    exact h.unread
  · rw [hs, ho]
    exact h.turn
  · rw [hs, ho]
    exact h.serving
  · unfold AsyncConnection.exchange
    rw [htrace]
    exact h.replied

/-- The one activity that is outstanding is completed. -/
theorem Inv.outstanding_eq (hinv : Inv srv s) {i : ℕ} {y : Activity}
    (hi : s.world.outstanding[i]? = some y) :
    s.world.outstanding = [y] ∧ (s.release i).world.outstanding = [] := by
  obtain ⟨hrel, hc, -⟩ := hinv.released srv hi
  refine ⟨?_, by rw [hrel]; rfl⟩
  have hmem := List.mem_of_getElem? hi
  rcases hinv.2 with ⟨ho, -⟩ | ⟨z, ho, -⟩
  · rw [ho] at hmem
    cases hmem
  · rw [ho] at hmem ⊢
    rw [List.mem_singleton.mp hmem]

/-- A handler that is called in its turn. -/
theorem Keeps.stands (hk : Keeps d s) (hinv : Inv srv s) {i : ℕ} {y : Activity}
    (hi : s.world.outstanding[i]? = some y) (hs : s.world.socket ≠ .closed) (hy : y.unread = []) :
    Stands y.turn d (s.release i) := by
  obtain ⟨ho, hnone⟩ := hinv.outstanding_eq hi
  refine ⟨hk.turn hs y (List.mem_of_getElem? hi), hnone, hs, ?_⟩
  have hheld : s.held = s.itsBuffer := by
    unfold held AsyncConnection.unread
    rw [ho, List.flatMap_singleton, hy, List.append_nil]
  exact (hk.unread (by rw [ho]; simp)).trans hheld

/-- A handler that looks at what the client has sent. -/
theorem Keeps.looks (hk : Keeps d s) (hinv : Inv srv s) {i : ℕ} {y : Activity}
    (hi : s.world.outstanding[i]? = some y) (hy : y.turn = .reading) :
    Looks y.unread d (s.release i) := by
  obtain ⟨ho, hnone⟩ := hinv.outstanding_eq hi
  have hreading : Reading srv s.bare := by
    have hp := (hinv.released srv hi).2.2
    cases y with
    | task pool task => cases task <;> cases hy
    | write handler buffer => cases hy
    | _ => exact hp
  refine ⟨?_, hnone, ?_, hreading.keepAlive⟩
  · by_cases hs : s.world.socket = .closed
    · exact Or.inr ⟨hk.closed.mpr hs, hs⟩
    · exact Or.inl ⟨(hk.turn hs y (List.mem_of_getElem? hi)).trans hy, hs⟩
  · rw [hk.unread (by rw [ho]; simp)]
    show s.itsBuffer ++ s.world.outstanding.flatMap Activity.unread = s.itsBuffer ++ y.unread
    rw [ho, List.flatMap_singleton]

/-- The timer closes an idle connection, and answers any other. -/
theorem proceeds_handleTimer (a : Answers) (hinv : Inv srv s) (hk : Keeps d s) {w : TimerWait}
    (hw : w ∈ s.world.waits) (err : ErrorCode) :
    Proceeds srv d s (Tail.handleTimer srv a err w.generation
      { s with world.waits := s.world.waits.erase w }) := by
  let t : AsyncConnection := { s with world.waits := s.world.waits.erase w }
  have ht : Keeps d t := hk.of_eq rfl rfl rfl rfl
  have hstop : Proceeds srv d s (.stop t) := ⟨d, Leads.silent rfl, ht⟩
  unfold Tail.handleTimer
  split
  · exact hstop
  split
  · exact hstop
  rename_i hgen
  have hcurrent : w.generation = s.itsTimerGeneration := not_not.mp hgen
  have harmed : ¬ Unarmed s.bare := fun hu => by
    have hlt : w.generation < s.itsTimerGeneration := hu w hw
    omega
  have hwaiting := hinv.waiting srv harmed
  have hserving : ∀ y ∈ s.world.outstanding, y.turn ≠ .serving := by
    intro y hy hturn
    obtain ⟨i, hi⟩ := List.mem_iff_getElem?.mp hy
    have hp := (hinv.released srv hi).2.2
    rcases y with _ | _ | bytes | ⟨pool, _ | _ | _⟩ | ⟨_ | _ | _ | _, buffer⟩
    · cases hturn
    · cases hturn
    · cases hturn
    · cases hturn
    · exact harmed hp.1.unarmed
    · exact harmed hp.1.unarmed
    · exact harmed hp.1.unarmed
    · exact harmed hp.1.unarmed
    · exact harmed hp.1.unarmed
    · exact harmed hp.1.unarmed
  let u : AsyncConnection := { t with hasTimedOut := true }
  have hu : Keeps d u := ht.of_eq rfl rfl rfl rfl
  dsimp only
  split
  · exact (Leads.silent rfl).continues (continues_closeSocket hu.unread hserving)
  · let v := stockResponse srv a .requestTimeout { u with itsKeepAlive := false }
    have hv : Keeps d v := hu.of_eq rfl rfl rfl rfl
    refine ⟨d, Leads.silent rfl, hv, hserving, ?_, fun hkeep => ?_⟩
    · by_cases hc : d.turn = .closed
      · exact Or.inl hc
      · refine Or.inr (Turn.write_stock hc ?_ _)
        cases hr : d.turn.replies with
        | false => rfl
        | true =>
          have hlive : s.world.socket ≠ .closed := fun h => hc (hk.closed.mpr h)
          exact absurd (hwaiting.live hlive).1 (hk.replied hr)
    · have hfalse := keepAlive_of_stockResponse srv a hkeep
      cases hfalse

/-- A request whose client is gone is not served. -/
theorem proceeds_runTask (a : Answers) (hinv : Inv srv s) (hk : Keeps d s) {i : ℕ} {pool : Pool}
    {task : Task} (hi : s.world.outstanding[i]? = some (.task pool task)) :
    Proceeds srv d s (Tail.runTask srv a task (s.release i)) := by
  have hserves : (Activity.task pool task).turn = .serving → Stands .serving d (s.release i) := by
    intro hturn
    have hs := hk.serving _ (List.mem_of_getElem? hi) hturn
    have h := hk.stands hinv hi hs rfl
    rwa [hturn] at h
  have hfirst : Leads srv d d s (s.release i) := Leads.silent rfl
  cases task with
  | handleCompletedRead view =>
    by_cases hs : s.world.socket = .closed
    · have hstop : Tail.handleCompletedRead srv a (cancelTimer (s.release i)) =
          .stop (cancelTimer (s.release i)) := by
        unfold Tail.handleCompletedRead
        split
        · rfl
        · exact if_pos hs
      show Proceeds srv d s (Tail.handleCompletedRead srv a (cancelTimer (s.release i)))
      rw [hstop]
      have hnone : (s.release i).world.outstanding = [] := (hinv.outstanding_eq hi).2
      refine ⟨d, Leads.silent rfl, hk.closed, fun hne => absurd hnone hne, fun hne => absurd hs hne,
        fun y hy => ?_, hk.replied⟩
      have hy' : y ∈ (s.release i).world.outstanding := hy
      rw [hnone] at hy'
      cases hy'
    · have hcancelled : Within srv d (s.release i) (cancelTimer (s.release i)) :=
        ⟨Leads.silent rfl, rfl, Iff.rfl, rfl⟩
      have h : Stands .taken d (s.release i) := hk.stands hinv hi hs rfl
      exact (proceeds_handleCompletedRead a (h.within hcancelled)).behind
        (hfirst.trans hcancelled.leads)
  | getNextChunk => exact (proceeds_getNextChunk a (hserves rfl)).behind hfirst
  | getNextChunkedChunk => exact (proceeds_getNextChunkedChunk a (hserves rfl)).behind hfirst

/-- **A step of a connection goes on with the dialogue.** -/
theorem continues_step {s' : AsyncConnection} {e : Event} (hinv : Inv srv s) (hk : Keeps d s)
    (h : step srv s e = some s') : Continues srv d s s' := by
  obtain ⟨x, hx, rfl⟩ := exists_outcome srv h
  refine Proceeds.run e.answers ?_
  cases e with
  | handshake i ok =>
    simp only [Tail.step, step] at hx
    split at hx
    · rename_i hi
      obtain rfl := Option.some.inj hx
      have hlooks := hk.looks hinv hi rfl
      show Continues srv d s (handleHandshake ok (s.release i))
      unfold handleHandshake
      split
      · exact (Leads.silent rfl).continues (Looks.await (y := .read) hlooks rfl)
      · refine (Leads.silent rfl).continues (continues_closeSocket (fun hne => ?_) fun y hy => ?_)
        · exact absurd hlooks.outstanding hne
        · rw [hlooks.outstanding] at hy
          cases hy
    · cases hx
  | receive i bytes =>
    simp only [Tail.step, step] at hx
    split at hx
    · rename_i hi
      split at hx
      · rename_i hrecv
        obtain rfl := Option.some.inj hx
        have hlooks := hk.looks hinv hi rfl
        have hturn : d.turn = .reading := hk.turn hrecv.2.2 _ (List.mem_of_getElem? hi)
        -- the client's bytes are added to what the floor has not read
        let e : Floor := { d with unread := d.unread ++ bytes }
        have hstep : Floor.step srv.spine.parseOneRequest d (.received bytes) = some e :=
          if_pos hturn
        have htold : Leads srv d e s ((s.release i).emit (.received bytes)) :=
          (Leads.silent (t := s.release i) rfl).trans (Leads.emit hstep _)
        have ht : Looks bytes e ((s.release i).emit (.received bytes)) := by
          refine ⟨hlooks.turn, hlooks.outstanding, ?_, hlooks.keepAlive⟩
          show d.unread ++ bytes = s.itsBuffer ++ bytes
          rw [hlooks.unread]
          exact congrArg (· ++ bytes) (List.append_nil _)
        exact htold.continues (Looks.await (y := .handleRead bytes) ht rfl)
      · cases hx
    · cases hx
  | readFails i err a =>
    simp only [Tail.step] at hx
    split at hx
    · rename_i hi
      split at hx
      · obtain rfl := Option.some.inj hx
        exact (proceeds_handleRead a (hk.looks hinv hi rfl) err).behind (Leads.silent rfl)
      · cases hx
    · cases hx
  | runRead i a =>
    simp only [Tail.step] at hx
    split at hx
    · rename_i bytes hi
      obtain rfl := Option.some.inj hx
      exact (proceeds_handleRead a (hk.looks hinv hi rfl) .success).behind (Leads.silent rfl)
    · cases hx
  | runTask i a =>
    simp only [Tail.step] at hx
    split at hx
    · rename_i pool task hi
      obtain rfl := Option.some.inj hx
      exact proceeds_runTask a hinv hk hi
    · cases hx
  | writeSome i n a =>
    simp only [Tail.step] at hx
    split at hx
    · rename_i handler buffer hi
      split at hx
      · rename_i hsend
        obtain rfl := Option.some.inj hx
        -- a write is outstanding while the handler's response is served
        have hs := hk.serving _ (List.mem_of_getElem? hi) rfl
        have h : Stands .serving d (s.release i) := hk.stands hinv hi hs rfl
        have hwrote : Within srv d (s.release i)
            ((s.release i).emit (.wrote .handler (buffer.take n))) := by
          refine Within.emit ?_ _
          show (d.turn.write .handler).map _ = some d
          rw [h.turn]
          exact congrArg some (by rw [← h.turn])
        exact (proceeds_runWriteHandler a (h.within hwrote) handler .success n).behind
          ((Leads.silent rfl).trans hwrote.leads)
      · cases hx
    · cases hx
  | writeFails i a =>
    simp only [Tail.step] at hx
    split at hx
    · rename_i handler buffer hi
      obtain rfl := Option.some.inj hx
      have hs := hk.serving _ (List.mem_of_getElem? hi) rfl
      have h : Stands .serving d (s.release i) := hk.stands hinv hi hs rfl
      have hfailed := within_failWrite srv d (s.release i)
      exact (proceeds_runWriteHandler a (h.within hfailed) handler .other 0).behind
        ((Leads.silent rfl).trans hfailed.leads)
    · cases hx
  | timerExpires =>
    simp only [Tail.step, step] at hx
    split at hx
    · obtain rfl := Option.some.inj hx
      exact ⟨d, Leads.silent rfl, hk.of_eq rfl rfl rfl rfl⟩
    · cases hx
  | runTimer generation a =>
    simp only [Tail.step] at hx
    split at hx
    · rename_i w hw
      obtain ⟨hmem, rfl, -⟩ := readyWait_spec hw
      obtain rfl := Option.some.inj hx
      exact proceeds_handleTimer a hinv hk hmem _
    · cases hx
  | requestShutdown =>
    obtain rfl := Option.some.inj hx
    exact ⟨d, Leads.silent rfl, hk.of_eq rfl rfl rfl rfl⟩

end Step

/-! ## Whole runs -/

section Start

variable (srv : Server)

/-- A connection that has just been started reads. -/
theorem keeps_start : Keeps {} (start srv) := by
  have hone : (start srv).world.socket = .open ∧ (start srv).held = [] ∧
      ∀ y ∈ (start srv).world.outstanding, y.turn = .reading := by
    unfold start
    dsimp only
    split
    · exact ⟨rfl, rfl, fun y hy => by rw [List.mem_singleton.mp hy]; rfl⟩
    · exact ⟨rfl, rfl, fun y hy => by rw [List.mem_singleton.mp hy]; rfl⟩
  obtain ⟨hopen, hheld, hturn⟩ := hone
  refine ⟨?_, fun _ => hheld.symm, fun _ y hy => (hturn y hy).symm, fun y hy hy' => ?_,
    fun hr => by cases hr⟩
  · rw [hopen]
    exact ⟨fun hc => (by cases hc), fun hc => (by cases hc)⟩
  · rw [hturn y hy] at hy'
    cases hy'

/-- In every run the connection takes its turns. -/
theorem floor_kept {s : AsyncConnection} (h : Reachable srv s) :
    ∃ d, Transition.run (Floor.step srv.spine.parseOneRequest) {} s.world.trace.reverse =
      some d ∧ Keeps d s := by
  obtain ⟨es, hrun⟩ := h
  have hstart : Transition.run (Floor.step srv.spine.parseOneRequest) {}
      (start srv).world.trace.reverse = some {} := by
    rw [start_trace]
    rfl
  refine Transition.run_accepted (fun t => t.world.trace.reverse) ?_ (inv_start srv) hstart
    (keeps_start srv) hrun
  intro t e u d hinv hk hstep
  obtain ⟨d', ⟨new, hnew, hnext⟩, hk'⟩ := continues_step hinv hk hstep
  refine ⟨inv_step srv hinv hstep, d', new.reverse, ?_, hnext, hk'⟩
  rw [hnew, List.reverse_append]

/-- Behind every exchange that is over bytes of a response were sent, or a write has
failed. -/
theorem begun_of_past {s : AsyncConnection} (h : Reachable srv s)
    (hhead : ∀ r, srv.spine.headerSection r ≠ []) {x : Exchange} (hx : x ∈ past s.world.trace) :
    x.delivery ≠ .due := by
  intro hdue
  obtain ⟨hout, hfailed⟩ := Exchange.delivery_eq_due.mp hdue
  have hdone := (inv_reachable srv h).1.past x hx
  obtain ⟨m, r, head, hheads, -⟩ := hdone.framed
  have hfirst : (m, r, head) ∈ x.heads := by
    rw [hheads]
    exact List.mem_singleton_self _
  have hnil : head = [] := by
    have hpre : head <+: x.out := hdone.begins hfailed _ hfirst
    rw [hout] at hpre
    exact List.prefix_nil.mp hpre
  exact hhead r ((head_eq srv h (mem_exchanges.mpr (Or.inl hx)) hfirst).symm.trans hnil)

/-- **In every run the connection keeps to the dialogue**: the events of its trace are
those of a dialogue, and the dialogue stands where the connection stands.  Spine's header
sections are assumed not to be empty. -/
theorem dialogue_kept {s : AsyncConnection} (h : Reachable srv s)
    (hhead : ∀ r, srv.spine.headerSection r ≠ []) :
    ∃ d, Transition.run (Dialogue.step srv.spine.parseOneRequest) .start
        s.world.trace.reverse = some d ∧ Keeps d.1 s ∧ d.2 = s.exchange.delivery := by
  obtain ⟨floor, hfloor, hkeeps⟩ := floor_kept srv h
  have hdelivery := Delivery.run_trace fun x hx => begun_of_past srv h hhead hx
  exact ⟨(floor, s.exchange.delivery), Transition.run_both hfloor hdelivery, hkeeps, rfl⟩

/-- The dialogue of a chunked reply. -/
theorem dialogue_kept_chunked :
    ∃ s, runFrom MinimalSpine.server (start MinimalSpine.server) chunkedRun = some s ∧
      ∃ d, Transition.run (Dialogue.step MinimalSpine.parseBodyless) .start
        s.world.trace.reverse = some d ∧ Keeps d.1 s ∧ d.2 = s.exchange.delivery := by
  obtain ⟨s, hs, -⟩ := MinimalSpine.reached chunkedRun (fun _ => true) (by decide +kernel)
  refine ⟨s, hs, dialogue_kept MinimalSpine.server ⟨chunkedRun, hs⟩ fun r hr => ?_⟩
  have hfirst := MinimalSpine.headerSection_head r
  rw [show MinimalSpine.headerSection r = [] from hr] at hfirst
  cases hfirst

end Start

end AsyncConnection

end SmartMet
