/-
# The body behind a header section

A response with its content at hand is sent as its header section and that
content; a response of announced length, once its stream has ended, as its header
section and the chunks of the stream.
-/
import SmartMetServer.Announcement
import SmartMetServer.OwnReplies
import SmartMetServer.Reassembly

namespace SmartMet

open Exchange

/-- The bytes a pending write has still to send. -/
def Activity.unsent : Activity → Bytes
  | .write _ buffer => buffer
  | _ => []

namespace Exchange

/-- The body of a response with its content at hand. -/
def body (x : Exchange) (r : Response) : Bytes :=
  if x.requests.any (fun q => q.method = .head) then [] else r.getContent

/-- A response with its content at hand: its bytes are sent in order, and as long as
no write has failed `unsent` are those still to go. -/
def Buffered (x : Exchange) (unsent : Bytes) : Prop :=
  x.path = some .regular → x.refused = false ∧ ∃ r head rest,
    x.heads = (.handler, r, head) :: rest ∧ x.handlerBytes <+: head ++ x.body r ∧
    (x.failed = false → x.handlerBytes ++ unsent = head ++ x.body r)

/-- A response of announced length whose stream has ended. -/
def Exhausted (x : Exchange) : Prop :=
  x.path = some .stream → x.ended ≠ none → x.failed = false →
    x.handlerBytes = x.headBytes ++ x.chunks.flatten

/-- Neither a response with its content at hand nor one of announced length whose
stream has ended. -/
def Open (x : Exchange) : Prop :=
  x.path ≠ some .regular ∧ (x.path = some .stream → x.ended = none)

/-- None of the two. -/
def Aside (x : Exchange) : Prop := x.path ≠ some .regular ∧ x.path ≠ some .stream

theorem Aside.toOpen {x : Exchange} (h : Aside x) : Open x := ⟨h.1, fun hs => absurd hs h.2⟩

theorem aside_of_path {x : Exchange} (h : x.path = none) : Aside x := by
  refine ⟨?_, ?_⟩
  · rw [h]
    simp
  · rw [h]
    simp

theorem aside_empty : Aside {} := aside_of_path rfl

theorem Open.buffered {x : Exchange} (h : Open x) (unsent : Bytes) : Buffered x unsent :=
  fun hp => absurd hp h.1

theorem Open.exhausted {x : Exchange} (h : Open x) : Exhausted x := fun hp he =>
  absurd (h.2 hp) he

theorem Aside.observe {x : Exchange} (h : Aside x) {o : Obs} (ho : ∀ p, o ≠ .started p) :
    Aside (x.observe o) := by
  cases o with
  | started p => exact absurd rfl (ho p)
  | _ => exact h

theorem Open.observe {x : Exchange} (h : Open x) {o : Obs} (ho : ∀ p, o ≠ .started p)
    (he : ∀ st own, o ≠ .streamEnded st own) : Open (x.observe o) := by
  cases o with
  | started p => exact absurd rfl (ho p)
  | streamEnded st own => exact absurd rfl (he st own)
  | _ => exact h

end Exchange

namespace AsyncConnection

variable (srv : Server)

/-- The bytes that are being written. -/
def unsent (s : AsyncConnection) : Bytes := s.world.outstanding.flatMap Activity.unsent

/-- What was sent of the responses so far. -/
structure Conveying (s : AsyncConnection) : Prop where
  past : ∀ x ∈ past s.world.trace, Buffered x [] ∧ Exhausted x
  buffered : Buffered s.exchange s.unsent
  exhausted : Exhausted s.exchange
  ended : s.exchange.path = some .stream → s.world.outstanding ≠ [] → s.exchange.ended = none

/-- Nothing is to be said of the exchange under way. -/
theorem conveying_of_open {s : AsyncConnection}
    (h : ∀ x ∈ SmartMet.past s.world.trace, Buffered x [] ∧ Exhausted x) (hx : Open s.exchange) :
    Conveying s := ⟨h, hx.buffered _, hx.exhausted, fun hp _ => hx.2 hp⟩

/-- A property the events of a trail keep. -/
theorem Conveying.trail {A : Obs → Prop} {R : Exchange → Prop} {s t : AsyncConnection}
    (h : ∀ x ∈ SmartMet.past s.world.trace, Buffered x [] ∧ Exhausted x) (ht : Trail A s t)
    (hcur : R s.exchange) (h0 : R {}) (hobs : ∀ o, A o → ∀ x, R x → R (x.observe o))
    (hR : ∀ x, R x → Open x) : Conveying t ∧ R t.exchange := by
  obtain ⟨new, hnew, hev⟩ := ht.events
  obtain ⟨hc, hp⟩ := exchange_append hcur h0 fun o (ho : o ∈ new) _ => hobs o (hev o ho).1
  rw [← hnew] at hc hp
  refine ⟨conveying_of_open (fun x hx => ?_) (hR _ hc), hc⟩
  rcases hp x hx with hx | hx
  · exact h x hx
  · exact ⟨(hR x hx).buffered [], (hR x hx).exhausted⟩

/-- No path is started. -/
theorem Conveying.aside {A : Obs → Prop} {s t : AsyncConnection} (h : Conveying s)
    (hx : Aside s.exchange) (ht : Trail A s t) (hA : ∀ o, A o → ∀ p, o ≠ .started p) :
    Conveying t ∧ Aside t.exchange :=
  Conveying.trail h.past ht hx aside_empty (fun o ho _ h => h.observe (hA o ho))
    fun _ => Aside.toOpen

/-- No stream has ended either. -/
theorem Conveying.still {A : Obs → Prop} {s t : AsyncConnection} (h : Conveying s)
    (hx : Open s.exchange) (ht : Trail A s t)
    (hA : ∀ o, A o → (∀ p, o ≠ .started p) ∧ ∀ st own, o ≠ .streamEnded st own) :
    Conveying t ∧ Open t.exchange :=
  Conveying.trail h.past ht hx aside_empty.toOpen
    (fun o ho _ h => h.observe (hA o ho).1 (hA o ho).2) fun _ => id

/-- The connection and the exchanges are the same. -/
theorem Conveying.congr {s t : AsyncConnection} (h : Conveying s) (hx : t.exchange = s.exchange)
    (hp : SmartMet.past t.world.trace = SmartMet.past s.world.trace)
    (ho : t.world.outstanding = s.world.outstanding) : Conveying t := by
  refine ⟨?_, ?_, ?_, ?_⟩
  · rw [hp]
    exact h.past
  · unfold unsent
    rw [hx, ho]
    exact h.buffered
  · rw [hx]
    exact h.exhausted
  · rw [hx, ho]
    exact h.ended

theorem Conveying.logOnly {s t : AsyncConnection} (h : Conveying s) (hl : LogOnly s t) :
    Conveying t := h.congr hl.exchange hl.past hl.outstanding

/-! ## The last call -/

/-- A response that is written in full. -/
theorem Conveying.finishResponse {s : AsyncConnection} (h : Conveying s)
    (ho : s.world.outstanding = []) : Conveying (finishResponse srv s) := by
  unfold AsyncConnection.finishResponse
  split
  · have hunsent : s.unsent = [] := by
      unfold unsent
      rw [ho]
      rfl
    have hreset : Conveying (armForNextRequest srv (resetRequestState s)) := by
      refine conveying_of_open (fun x hx => ?_) aside_empty.toOpen
      rcases List.mem_cons.mp hx with rfl | hx
      · have hb := h.buffered
        rw [hunsent] at hb
        exact ⟨hb, h.exhausted⟩
      · exact h.past x hx
    unfold resumeReading
    split
    · exact conveying_of_open hreset.past aside_empty.toOpen
    · exact conveying_of_open hreset.past aside_empty.toOpen
  · exact h

/-- The last call of a function that ends no response. -/
theorem Conveying.run {x : Outcome} (h : Conveying x.state) (hx : Open x.state.exchange)
    (a : Answers) : Conveying (x.run srv a) := by
  cases x with
  | stop s => exact h
  | finish s =>
    refine (h.still hx (trail_finishResponse srv s) ?_).1
    rintro o (rfl | ⟨g, n, rfl⟩)
    · exact ⟨(by simp), (by simp)⟩
    · exact ⟨(by simp), (by simp)⟩
  | reply m s books =>
    refine Conveying.logOnly ?_ (logOnly_keep books _)
    refine (h.still hx (trail_sendSimpleReply srv a m s) ?_).1
    rintro o (⟨r, rfl⟩ | ⟨b, rfl⟩ | rfl | rfl | rfl | ⟨g, n, rfl⟩)
    all_goals exact ⟨(by simp), (by simp)⟩

/-! ## A response with its content at hand -/

variable {srv}

/-- Some of the bytes go out. -/
theorem Buffered.wrote {x : Exchange} {sent rest : Bytes} (h : Buffered x (sent ++ rest))
    (hf : x.failed = false) : Buffered (x.observe (.wrote .handler sent)) rest := by
  intro hp
  obtain ⟨hr, r, head, later, hh, -, heq⟩ := h hp
  have hbytes : (x.observe (.wrote .handler sent)).handlerBytes = x.handlerBytes ++ sent := by
    show (x.wire ++ [(Message.handler, sent)]).flatMap _ = x.wire.flatMap _ ++ sent
    rw [List.flatMap_append, List.flatMap_singleton, if_pos rfl]
  have hwhole : (x.observe (.wrote .handler sent)).handlerBytes ++ rest = head ++ x.body r := by
    rw [hbytes, List.append_assoc]
    exact heq hf
  exact ⟨hr, r, head, later, hh, ⟨rest, hwhole⟩, fun _ => hwhole⟩

/-- Nothing more goes out. -/
theorem Buffered.failed {x : Exchange} {unsent : Bytes} (h : Buffered x unsent) {m : Message}
    {r : Response} {head : Bytes} (hm : m ≠ .handler) {extra : List (Message × Bytes)}
    (hx : ∀ p ∈ extra, p.1 = m) (u : Bytes) : Buffered (x.reply m r head extra true) u := by
  intro hp
  obtain ⟨hr, r', head', later, hh, hpre, -⟩ := h hp
  refine ⟨hr, r', head', later ++ [(m, r, head)], ?_, ?_, (by rintro ⟨⟩)⟩
  · show x.heads ++ [(m, r, head)] = _
    rw [hh]
    rfl
  · rw [handlerBytes_reply hm hx]
    exact hpre

/-- A part of a response was written. -/
theorem Conveying.regularWritten {s : AsyncConnection} (h : Conveying s) (hinv : Inv srv s) {i : ℕ}
    {buffer : Bytes} (hi : s.world.outstanding[i]? = some (.write .writeRegularReply buffer))
    (n : ℕ) (a : Answers) :
    Conveying ((Tail.runWriteHandler srv a .writeRegularReply .success n
      ((s.release i).emit (.wrote .handler (buffer.take n)))).run srv a) := by
  obtain ⟨hrel, hc, hw, hreg⟩ := hinv.released srv hi
  obtain ⟨ho, -, -, -⟩ := hinv.held_release hi
  rw [hrel]
  let t := s.bare.emit (.wrote .handler (buffer.take n))
  have hpath : t.exchange.path = some .regular := hreg.path
  have hfailed : s.exchange.failed = false := hw.failed
  have hbuffered : Buffered t.exchange (buffer.drop n) := by
    refine Buffered.wrote ?_ hfailed
    rw [List.take_append_drop]
    have hb := h.buffered
    unfold unsent at hb
    rw [ho, List.flatMap_singleton] at hb
    exact hb
  have hstream : ∀ {u : Exchange}, u.path = some .regular → Exhausted u := by
    intro u hu hs
    rw [hu] at hs
    cases hs
  have hended : ∀ {u : Exchange}, u.path = some .regular → u.path = some .stream → False := by
    intro u hu hs
    rw [hu] at hs
    cases hs
  unfold Tail.runWriteHandler Tail.continueWrite
  dsimp only
  rw [if_pos rfl]
  split
  · refine ⟨h.past, ?_, hstream hpath, fun hs => (hended hpath hs).elim⟩
    have hrest : s.bare.itsResponseString.drop (s.bare.itsSentBytes + n) = buffer.drop n := by
      rw [← hw.buffer, List.drop_drop]
    show Buffered t.exchange (([] ++ [Activity.write .writeRegularReply
      (s.bare.itsResponseString.drop (s.bare.itsSentBytes + n))]).flatMap Activity.unsent)
    rw [hrest, List.nil_append, List.flatMap_singleton]
    exact hbuffered
  · rename_i hlen
    have hnone : buffer.drop n = [] := by
      rw [← hw.buffer, List.drop_drop]
      exact List.drop_eq_nil_of_le (Nat.not_lt.mp hlen)
    rw [hnone] at hbuffered
    let u : AsyncConnection := { t with
      itsFinalStatus := .success, itsSentBytes := t.itsSentBytes + n }
    have hu : Conveying u :=
      ⟨h.past, hbuffered, hstream hpath, fun hs => (hended hpath hs).elim⟩
    refine Conveying.finishResponse srv ?_ ?_
    · exact hu.logOnly (logOnly_notifyBackendFinished .exitOk u)
    · exact (logOnly_notifyBackendFinished .exitOk u).outstanding

/-- The write of a response has failed. -/
theorem Conveying.regularFailed {s : AsyncConnection} (h : Conveying s) (hinv : Inv srv s) {i : ℕ}
    {buffer : Bytes} (hi : s.world.outstanding[i]? = some (.write .writeRegularReply buffer))
    (a : Answers) :
    Conveying ((Tail.runWriteHandler srv a .writeRegularReply .other 0
      (s.release i).failWrite).run srv a) := by
  obtain ⟨hrel, hc, hw, hreg⟩ := hinv.released srv hi
  rw [hrel]
  let u : AsyncConnection := { s.bare.failWrite with itsFinalStatus := .other, itsKeepAlive := false }
  obtain ⟨r, e, w, heq, -, -, hin⟩ := sendStockReply_closing srv a .serviceUnavailable (s := u) rfl
  obtain ⟨extra, f, hx, hs⟩ := hin.current
  have hux : current u.world.trace = s.exchange.send [] true := by
    show { s.exchange with failed := true } = _
    unfold send
    rw [List.append_nil]
  have hf : f = true := by
    cases f with
    | true => rfl
    | false =>
      have hff := (hs.exact rfl).2
      rw [hux] at hff
      cases hff
  have hbuffered : Buffered (s.exchange.send [] true) s.unsent := by
    intro hp
    obtain ⟨hr, r, head, later, hh, hpre, -⟩ := h.buffered hp
    refine ⟨hr, r, head, later, hh, ?_, (by rintro ⟨⟩)⟩
    rw [handlerBytes_send (by simp)]
    show s.exchange.handlerBytes ++ [] <+: head ++ s.exchange.body r
    rw [List.append_nil]
    exact hpre
  have hrun : (Tail.runWriteHandler srv a .writeRegularReply .other 0 s.bare.failWrite).run srv a
      = sendStockReply srv a .serviceUnavailable u := rfl
  rw [hrun, heq]
  have hpath : s.exchange.path = some .regular := hreg.path
  have hcur : (current w.trace).path = some .regular := by
    rw [hx, hux]
    exact hpath
  refine ⟨?_, ?_, ?_, ?_⟩
  · show ∀ x ∈ SmartMet.past w.trace, _
    rw [hin.past]
    exact h.past
  · show Buffered (current w.trace) _
    rw [hx, hux, hf]
    exact Buffered.failed (m := .stock .serviceUnavailable) hbuffered (by simp) hs.message _
  · intro hp
    have hp' := hcur.symm.trans hp
    cases hp'
  · intro hp
    have hp' := hcur.symm.trans hp
    cases hp'

/-! ## A response of announced length -/

/-- The getter of the next chunk is queued, or refused. -/
theorem conveying_scheduleGetter {t : AsyncConnection} (a : Answers) (task : Task)
    (hpast : ∀ x ∈ SmartMet.past t.world.trace, Buffered x [] ∧ Exhausted x)
    (hx : Open t.exchange) : Conveying ((Tail.scheduleGetter srv a task t).run srv a) := by
  unfold Tail.scheduleGetter
  split
  · exact conveying_of_open hpast hx
  · refine Conveying.run srv (conveying_of_open ?_ ?_) ?_ a
    · exact hpast
    · exact hx
    · exact hx

/-- A stream that has ended: what was pending is sent. -/
theorem conveying_streamEnded {t : AsyncConnection} (a : Answers) (st : StreamerStatus)
    (own : Bool)
    (hpast : ∀ x ∈ SmartMet.past t.world.trace, Buffered x [] ∧ Exhausted x)
    (hidle : t.world.outstanding = []) (hf : t.exchange.failed = false)
    (hreg : t.exchange.path ≠ some .regular)
    (hbytes : t.exchange.path = some .stream →
      t.exchange.handlerBytes ++ t.itsPendingHeaders
        = t.exchange.headBytes ++ t.exchange.chunks.flatten) :
    Conveying (Outcome.run srv a
      (if flushFails a (t.emit (.streamEnded st own)) then
        .stop (flushPendingHeaders a (t.emit (.streamEnded st own)))
      else Tail.finishStream st (flushPendingHeaders a (t.emit (.streamEnded st own))))) := by
  let u := t.emit (.streamEnded st own)
  have hfl := flushed_flushPendingHeaders a u
  obtain ⟨extra, f, hm, -, hsend, -, -, -, hgood⟩ := flush_spec srv a u
  obtain ⟨_, _, hfx, hfails⟩ := hfl.exchange
  have hconv : Conveying (flushPendingHeaders a u) := by
    refine ⟨?_, ?_, ?_, ?_⟩
    · rw [hfl.past]
      exact hpast
    · intro hp
      rw [hsend] at hp
      exact absurd hp hreg
    · intro hp _ hok
      have hflush : flushFails a u = false := by
        by_contra hne
        rw [hfx] at hok
        exact absurd ((hfails (by simpa using hne)).symm.trans hok) (by simp)
      obtain ⟨-, hall⟩ := hgood hflush hf
      rw [hsend] at hp ⊢
      rw [handlerBytes_send hm, hall]
      exact hbytes hp
    · intro _ ho
      exact absurd (hfl.outstanding.trans hidle) ho
  split
  · exact hconv
  · have hl : LogOnly (flushPendingHeaders a u)
        (notifyBackendFinished st (finalizeStreamLogging (flushPendingHeaders a u))) :=
      (logOnly_finalizeStreamLogging _).trans (logOnly_notifyBackendFinished st _)
    refine Conveying.finishResponse srv ?_ ?_
    · exact (hconv.logOnly hl).congr rfl rfl rfl
    · exact hl.outstanding.trans (hfl.outstanding.trans hidle)

/-- **`getNextChunk`.** -/
theorem conveying_getNextChunk {t : AsyncConnection} (a : Answers)
    (hpast : ∀ x ∈ SmartMet.past t.world.trace, Buffered x [] ∧ Exhausted x)
    (hidle : t.world.outstanding = []) (hf : t.exchange.failed = false) (hx : Open t.exchange)
    (hbytes : t.exchange.path = some .stream →
      t.exchange.handlerBytes ++ t.itsPendingHeaders
        = t.exchange.headBytes ++ t.exchange.chunks.flatten) :
    Conveying ((Tail.getNextChunk srv a t).run srv a) := by
  unfold Tail.getNextChunk
  cases getStreamingStatus a t.itsResponse with
  | ok =>
    cases nextContent a t.itsResponse with
    | none => exact conveying_of_open hpast hx
    | some content =>
      have hfl := flushed_flushPendingHeaders a (takeChunk content t)
      obtain ⟨wire, f, hfx, -⟩ := hfl.exchange
      have hopen : Open (flushPendingHeaders a (takeChunk content t)).exchange := by
        rw [hfx]
        exact hx
      have hpast' : ∀ x ∈ SmartMet.past
          (flushPendingHeaders a (takeChunk content t)).world.trace,
          Buffered x [] ∧ Exhausted x := by
        rw [hfl.past]
        exact hpast
      dsimp only
      split
      · exact conveying_of_open hpast hx
      split
      · exact conveying_of_open hpast' hopen
      · exact conveying_scheduleGetter a _ hpast' hopen
  | exitOk => exact conveying_streamEnded a .exitOk _ hpast hidle hf hx.1 hbytes
  | exitError => exact conveying_streamEnded a .exitError _ hpast hidle hf hx.1 hbytes

/-- A write of a streamed response was completed. -/
theorem conveying_writeStreamReply {t : AsyncConnection} (a : Answers) (e : ErrorCode) (n : ℕ)
    (hpast : ∀ x ∈ SmartMet.past t.world.trace, Buffered x [] ∧ Exhausted x)
    (hx : Open t.exchange) :
    Conveying ((Tail.runWriteHandler srv a .writeStreamReply e n t).run srv a) := by
  unfold Tail.runWriteHandler Tail.continueWrite
  dsimp only
  split
  · split
    · exact conveying_of_open hpast hx
    · exact conveying_scheduleGetter a _ hpast hx
  · refine Conveying.run srv (conveying_of_open ?_ ?_) ?_ a
    · exact hpast
    · exact hx
    · exact hx

/-! ## The start of a response -/

theorem Starting.conveying_startRegularReply {response : Response} {t : AsyncConnection}
    (h : Starting .regular response t) (hidle : t.world.outstanding = [])
    (hpast : ∀ x ∈ SmartMet.past t.world.trace, Buffered x [] ∧ Exhausted x) :
    Conveying (startRegularReply srv t) := by
  let q := renderHeaders srv (frameResponse srv t.itsHeadRequest
    (echoETag srv t.itsRequest (encodeResponse srv t.itsRequest t.itsResponse)))
  let wire := if t.itsHeadRequest then q.2 else q.2 ++ q.1.getContent
  let u : AsyncConnection := t.emit (.rendered .handler q.1 q.2)
  have hpath : u.exchange.path = some .regular := h.path
  have hunsent : (startRegularReply srv t).unsent = wire := by
    show (t.world.outstanding ++ [Activity.write .writeRegularReply wire]).flatMap _ = wire
    rw [hidle]
    exact List.append_nil wire
  have hwhole : u.exchange.handlerBytes ++ wire = q.2 ++ u.exchange.body q.1 := by
    obtain ⟨m, hm, hmh⟩ := h.request
    have hnone : u.exchange.handlerBytes = [] := h.handlerBytes
    have hbody : u.exchange.body q.1 = if t.itsHeadRequest then [] else q.1.getContent := by
      unfold body
      rw [show u.exchange.requests = [m] from hm, List.any_cons, List.any_nil, Bool.or_false, hmh]
    rw [hnone, hbody, List.nil_append]
    show (if t.itsHeadRequest then q.2 else q.2 ++ q.1.getContent) = _
    split
    · exact (List.append_nil _).symm
    · rfl
  refine ⟨hpast, ?_, ?_, ?_⟩
  · intro _
    refine ⟨h.refused, q.1, q.2, [], ?_, ⟨wire, hwhole⟩, fun _ => ?_⟩
    · show t.exchange.heads ++ [(Message.handler, q.1, q.2)] = _
      rw [h.heads]
      rfl
    · rw [hunsent]
      exact hwhole
  · intro hp
    have hp' := hpath.symm.trans hp
    cases hp'
  · intro hp
    have hp' := hpath.symm.trans hp
    cases hp'

theorem Starting.conveying_startStreamReply {response : Response} {t : AsyncConnection}
    (h : Starting .stream response t) (a : Answers) (hidle : t.world.outstanding = [])
    (hpast : ∀ x ∈ SmartMet.past t.world.trace, Buffered x [] ∧ Exhausted x) :
    Conveying ((Tail.startStreamReply srv a t).run srv a) := by
  let r := t.itsResponse.setHeader "Content-Length".toList
    (toDecimal t.itsResponse.getContentLength)
  let v := preparePendingHeaders srv { t with
    itsDeclaredContentLength := t.itsResponse.getContentLength, itsResponse := r }
  have hheads : v.exchange.heads = [(.handler, (renderHeaders srv r).1, v.itsPendingHeaders)] := by
    show t.exchange.heads ++ [_] = _
    rw [h.heads]
    rfl
  have hopen : Open v.exchange := by
    refine ⟨?_, fun _ => h.ended⟩
    show t.exchange.path ≠ _
    rw [h.path]
    simp
  refine conveying_getNextChunk (t := v) a hpast hidle h.failed hopen fun _ => ?_
  rw [headBytes_of_heads hheads]
  show t.exchange.handlerBytes ++ v.itsPendingHeaders
    = v.itsPendingHeaders ++ t.exchange.chunks.flatten
  rw [h.handlerBytes, h.chunks]
  simp

theorem not_started_of_getterEvent {p : Prop} {o : Obs} (h : GetterEvent srv p o)
    {path : ReplyPath} : o ≠ .started path := by
  rintro rfl
  rcases h with h | ⟨h, -⟩
  · exact absurd h id
  · cases h

/-- The response of a handler is sent. -/
theorem Called.conveying_startReply {t : AsyncConnection} (h : Called srv t) (a : Answers)
    (hidle : t.world.outstanding = [])
    (hpast : ∀ x ∈ SmartMet.past t.world.trace, Buffered x [] ∧ Exhausted x) :
    Conveying ((Tail.startReply srv a t).run srv a) := by
  unfold Tail.startReply
  split
  · exact (h.start srv a .regular).1.conveying_startRegularReply hidle hpast
  split
  swap
  · exact (h.start srv a .regular).1.conveying_startRegularReply hidle hpast
  split
  · have hgateway := (h.start srv a .gateway).2
    refine conveying_getNextChunk (t := { t.emit (.started .gateway) with itsKeepAlive := false })
      a hpast hidle hgateway.failed ⟨?_, ?_⟩ ?_
    · exact fun hp => absurd (hgateway.path.symm.trans hp) (by simp)
    · exact fun hp => absurd (hgateway.path.symm.trans hp) (by simp)
    · exact fun hp => absurd (hgateway.path.symm.trans hp) (by simp)
  split
  · let u := setServerHeaders srv a (t.emit (.started .chunked))
    have hpath : u.exchange.path = some .chunked := (h.start srv a .chunked).1.path
    have haside : Aside u.exchange := by
      refine ⟨?_, ?_⟩
      · rw [hpath]
        simp
      · rw [hpath]
        simp
    have hu : Conveying u := conveying_of_open hpast haside.toOpen
    obtain ⟨hc, hx⟩ := hu.aside haside (stretch_startChunkedReply srv a u).toTrail fun o ho p =>
      not_started_of_getterEvent ho
    exact hc.run srv hx.toOpen a
  · exact (h.start srv a .stream).1.conveying_startStreamReply a hidle hpast

/-! ## Every step -/

/-- Only the task of a handler starts a path. -/
theorem not_started_of_stepEvent {e : Event} {o : Obs} (h : StepEvent srv e o)
    (he : ∀ i a, e ≠ .runTask i a) {path : ReplyPath} : o ≠ .started path := by
  rintro rfl
  cases e with
  | handshake i ok => cases h
  | receive i bytes => cases h
  | readFails i err a => cases h
  | runRead i a =>
    rcases h with ⟨g, n, h⟩ | ⟨r, h⟩ | h | ⟨b, h⟩ | h
    all_goals cases h
  | runTask i a => exact he i a rfl
  | writeSome i n a =>
    rcases h with ⟨b, h⟩ | h
    · cases h
    · exact not_started_of_getterEvent h rfl
  | writeFails i a => exact not_started_of_getterEvent h rfl
  | timerExpires => exact h
  | runTimer generation a => cases h
  | requestShutdown => exact h

theorem not_started_of_lastEvent {x : Outcome} {o : Obs} (h : LastEvent srv x o)
    {path : ReplyPath} : o ≠ .started path := by
  rintro rfl
  cases x with
  | stop s => exact h
  | finish s =>
    rcases h with h | ⟨g, n, h⟩
    · cases h
    · cases h
  | reply m s books =>
    rcases h with (⟨r, h⟩ | ⟨b, h⟩ | h | h | h | ⟨g, n, h⟩) | h
    · cases h
    · cases h
    · cases h
    · cases h
    · cases h
    · cases h
    · exact h

/-- The call of the handler, and what follows it. -/
theorem Conveying.handleCompletedRead {s : AsyncConnection} (h : Conveying s) (hinv : Inv srv s)
    {i : ℕ} {pool : Pool} {view : HandlerView}
    (hi : s.world.outstanding[i]? = some (.task pool (.handleCompletedRead view))) (a : Answers) :
    Conveying ((Tail.runTask srv a (.handleCompletedRead view) (s.release i)).run srv a) := by
  obtain ⟨hrel, hc, hph⟩ := hinv.released srv hi
  have hq : Queued srv s.bare := hph
  have haside : Aside s.exchange := aside_of_path hq.direct.path
  rw [hrel]
  unfold Tail.runTask Tail.handleCompletedRead
  dsimp only
  split
  · exact conveying_of_open h.past haside.toOpen
  split
  · exact conveying_of_open h.past haside.toOpen
  rename_i hopen
  rw [Tail.callHandler_eq]
  rcases Tail.returnFromHandler_cases srv a (Tail.called (cancelTimer s.bare)) with
    ⟨-, heq⟩ | ⟨response, ⟨-, heq⟩ | ⟨-, heq⟩ | ⟨-, heq⟩⟩
  · rw [heq]
    exact conveying_of_open h.past haside.toOpen
  · rw [heq]
    exact conveying_of_open h.past haside.toOpen
  · rw [heq]
    refine Conveying.run srv (conveying_of_open ?_ ?_) ?_ a
    · exact h.past
    · exact haside.toOpen
    · exact haside.toOpen
  · rw [heq]
    exact (hq.called srv hc hopen response).conveying_startReply a rfl h.past

theorem Conveying.runTask {s : AsyncConnection} (h : Conveying s) (hinv : Inv srv s)
    {i : ℕ} {pool : Pool} {task : Task}
    (hi : s.world.outstanding[i]? = some (.task pool task)) (a : Answers) :
    Conveying ((Tail.runTask srv a task (s.release i)).run srv a) := by
  obtain ⟨hrel, -, hph⟩ := hinv.released srv hi
  have ho : s.world.outstanding ≠ [] := by
    intro hnil
    rw [hnil] at hi
    simp at hi
  cases task with
  | handleCompletedRead view => exact h.handleCompletedRead hinv hi a
  | getNextChunk =>
    obtain ⟨hans, hpending, hstream⟩ := (hph : Answering s.bare ∧ _ ∧ Streaming srv s.bare [])
    rw [hrel]
    refine conveying_getNextChunk (t := s.bare) a h.past rfl hans.failed ⟨?_, ?_⟩ fun _ => ?_
    · rcases hstream.path with hp | hp
      · rw [hp]
        simp
      · rw [hp]
        simp
    · exact fun hp => h.ended hp ho
    · rw [hpending]
      exact hstream.bytes
  | getNextChunkedChunk =>
    obtain ⟨-, -, hchunk⟩ := (hph : Answering s.bare ∧ _ ∧ Chunking srv s.bare [])
    have hpath : s.bare.exchange.path = some .chunked := hchunk.path
    have haside : Aside s.bare.exchange := by
      refine ⟨?_, ?_⟩
      · rw [hpath]
        simp
      · rw [hpath]
        simp
    rw [hrel]
    have hu : Conveying s.bare := conveying_of_open h.past haside.toOpen
    have ht : Trail (GetterEvent srv (a.accepts = false)) s.bare
        (Tail.getNextChunkedChunk srv a s.bare).state :=
      (stretch_getNextChunkedChunk srv a s.bare).toTrail.mono fun _ ho => ho.getter id
    obtain ⟨hconv, hx⟩ := hu.aside haside ht fun o ho p => not_started_of_getterEvent ho
    exact hconv.run srv hx.toOpen a

/-- The completion handlers of the writes. -/
theorem Conveying.runWrite {s s' : AsyncConnection} {e : Event} (h : Conveying s)
    (hinv : Inv srv s) (hstep : step srv s e = some s') {i : ℕ} {handler : WriteHandler}
    {buffer : Bytes} (hi : s.world.outstanding[i]? = some (.write handler buffer))
    (he : (∃ n a, e = .writeSome i n a) ∨ ∃ a, e = .writeFails i a) : Conveying s' := by
  have ho : s.world.outstanding ≠ [] := by
    intro hnil
    rw [hnil] at hi
    simp at hi
  have htask : ∀ j a, e ≠ .runTask j a := by
    rintro j a rfl
    rcases he with ⟨n, a', h⟩ | ⟨a', h⟩
    · cases h
    · cases h
  by_cases haside : Aside s.exchange
  · obtain ⟨x, -, -, ht⟩ := trail_whole srv hstep
    exact (h.aside haside ht fun o ho p =>
      ho.elim (fun ho => not_started_of_stepEvent ho htask) fun ho => not_started_of_lastEvent ho).1
  obtain ⟨x, hx, rfl⟩ := exists_outcome srv hstep
  have hph := (hinv.released srv hi).2.2
  cases handler with
  | writeRegularReply =>
    rcases he with ⟨n, a, rfl⟩ | ⟨a, rfl⟩
    · simp only [Tail.step, hi] at hx
      split at hx
      · obtain rfl := Option.some.inj hx
        exact h.regularWritten hinv hi n a
      · cases hx
    · simp only [Tail.step, hi] at hx
      obtain rfl := Option.some.inj hx
      exact h.regularFailed hinv hi a
  | writeStreamReply =>
    obtain ⟨-, hstream⟩ := (hph : Writing s.bare buffer ∧ Streaming srv s.bare buffer)
    have hopen : Open s.exchange := by
      refine ⟨fun hp => ?_, fun hp => h.ended hp ho⟩
      rcases hstream.path with hp' | hp'
      · exact absurd (hp'.symm.trans hp) (by simp)
      · exact absurd (hp'.symm.trans hp) (by simp)
    rcases he with ⟨n, a, rfl⟩ | ⟨a, rfl⟩
    · simp only [Tail.step, hi] at hx
      split at hx
      · obtain rfl := Option.some.inj hx
        exact conveying_writeStreamReply a _ n h.past hopen
      · cases hx
    · simp only [Tail.step, hi] at hx
      obtain rfl := Option.some.inj hx
      exact conveying_writeStreamReply a _ 0 h.past hopen
  | writeChunkedReply =>
    obtain ⟨-, hchunk⟩ := (hph : Writing s.bare buffer ∧ Chunking srv s.bare buffer)
    refine absurd ⟨fun hp => ?_, fun hp => ?_⟩ haside
    · exact absurd (hchunk.path.symm.trans hp) (by simp)
    · exact absurd (hchunk.path.symm.trans hp) (by simp)
  | finalizeChunkedReply =>
    obtain ⟨-, hfinal, -⟩ :=
      (hph : Writing s.bare buffer ∧ Finalizing srv s.bare buffer ∧ buffer ≠ [])
    refine absurd ⟨fun hp => ?_, fun hp => ?_⟩ haside
    · exact absurd (hfinal.path.symm.trans hp) (by simp)
    · exact absurd (hfinal.path.symm.trans hp) (by simp)

/-- **Every step keeps what was sent of the responses.** -/
theorem Conveying.step {s s' : AsyncConnection} {e : Event} (h : Conveying s) (hinv : Inv srv s)
    (hstep : step srv s e = some s') : Conveying s' := by
  have hnone : (∀ i a, e ≠ .runTask i a) → s.exchange.path = none → Conveying s' := by
    intro he hp
    obtain ⟨x, -, -, ht⟩ := trail_whole srv hstep
    exact (h.aside (aside_of_path hp) ht fun o ho p =>
      ho.elim (fun ho => not_started_of_stepEvent ho he) fun ho => not_started_of_lastEvent ho).1
  obtain ⟨x, hx, hrun⟩ := exists_outcome srv hstep
  -- bytes of a body are sent by the tasks and the writes of its own path only
  cases e with
  | handshake i ok =>
    simp only [Tail.step, AsyncConnection.step] at hx
    split at hx
    · rename_i hi
      exact hnone (by simp) (hinv.path_of_reading hi id)
    · cases hx
  | receive i bytes =>
    simp only [Tail.step, AsyncConnection.step] at hx
    split at hx
    · rename_i hi
      exact hnone (by simp) (hinv.path_of_reading hi id)
    · cases hx
  | readFails i err a =>
    simp only [Tail.step] at hx
    split at hx
    · rename_i hi
      exact hnone (by simp) (hinv.path_of_reading hi id)
    · cases hx
  | runRead i a =>
    simp only [Tail.step] at hx
    split at hx
    · rename_i hi
      exact hnone (by simp) (hinv.path_of_reading hi id)
    · cases hx
  | runTask i a =>
    simp only [Tail.step] at hx
    split at hx
    · rename_i hi
      obtain rfl := Option.some.inj hx
      rw [hrun]
      exact h.runTask hinv hi a
    · cases hx
  | writeSome i n a =>
    simp only [Tail.step] at hx
    split at hx
    · rename_i hi
      exact h.runWrite hinv hstep hi (Or.inl ⟨n, a, rfl⟩)
    · cases hx
  | writeFails i a =>
    simp only [Tail.step] at hx
    split at hx
    · rename_i hi
      exact h.runWrite hinv hstep hi (Or.inr ⟨a, rfl⟩)
    · cases hx
  | timerExpires =>
    simp only [Tail.step, AsyncConnection.step] at hx
    split at hx
    · obtain rfl := Option.some.inj hx
      rw [hrun]
      exact h.congr rfl rfl rfl
    · cases hx
  | runTimer generation a =>
    simp only [Tail.step] at hx
    split at hx
    · rename_i w hw
      obtain rfl := Option.some.inj hx
      obtain ⟨hmem, hgen, -⟩ := readyWait_spec hw
      by_cases hg : generation = s.itsTimerGeneration
      · exact hnone (by simp) (hinv.path_of_acts hmem (hgen.trans hg))
      · rw [hrun, handleTimer_inert srv (s := { s with world.waits := s.world.waits.erase w }) hg]
        exact h.congr rfl rfl rfl
    · cases hx
  | requestShutdown =>
    obtain rfl := Option.some.inj hx
    rw [hrun]
    exact h.congr rfl rfl rfl

variable (srv)

theorem conveying_start : Conveying (start srv) := by
  have hpast : SmartMet.past (start srv).world.trace = [] := by
    rw [start_trace]
    rfl
  have hexchange : (start srv).exchange = {} := by
    unfold exchange
    rw [start_trace]
    rfl
  refine conveying_of_open ?_ ?_
  · rw [hpast]
    simp
  · rw [hexchange]
    exact aside_empty.toOpen

/-- **What was sent of the responses**, in every state a connection reaches. -/
theorem conveying_reachable {s : AsyncConnection} (h : Reachable srv s) : Conveying s := by
  obtain ⟨es, hrun⟩ := h
  refine (Transition.run_preserves (P := fun u => Inv srv u ∧ Conveying u) ?_
    ⟨inv_start srv, conveying_start srv⟩ hrun).2
  rintro u e u' ⟨hinv, hu⟩ hstep
  exact ⟨inv_step srv hinv hstep, hu.step hinv hstep⟩

end AsyncConnection

end SmartMet
