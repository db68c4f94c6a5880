/-
# Deliveries and their books

The functions of the reply paths close the books of a response when its delivery
ends, but for the ends listed first: there a function returns, or the connection
ends, and nobody comes back to this response.
-/
import SmartMetServer.Ledger
import SmartMetServer.Reassembly

namespace SmartMet

/-- The handler has left a response that is sent, and `P` holds of it. -/
def HandlerResult.Answered (P : Response → Prop) : HandlerResult → Prop
  | .returned true r false => P r
  | _ => False

instance (P : Response → Prop) [∀ r, Decidable (P r)] :
    ∀ h : HandlerResult, Decidable (h.Answered P)
  | .returned true r false => inferInstanceAs (Decidable (P r))
  | .returned true _ true => isFalse id
  | .returned false _ _ => isFalse id
  | .threw => isFalse id

namespace AsyncConnection

variable (srv : Server)

/-- A getter that asks the response `r` ends the delivery and keeps no books: the
streamer threw; the getter of the next chunk was not taken; or the pending header
section, which goes with the first getter, could not be flushed. -/
def GetterLeaves (chunked unflushed : Bool) (a : Answers) (r : Response) : Prop :=
  getStreamingStatus a r = .ok ∧
      (nextContent a r = none ∨
        nextContent a r = some [] ∧ (unflushed = true ∨ a.accepts = false)) ∨
    getStreamingStatus a r ≠ .ok ∧ chunked = false ∧ unflushed = true

instance (chunked unflushed : Bool) (a : Answers) (r : Response) :
    Decidable (GetterLeaves chunked unflushed a r) :=
  inferInstanceAs (Decidable (_ ∨ _))

/-- What a getter does depends on the content alone. -/
theorem getterLeaves_congr {chunked unflushed : Bool} {a : Answers} {r r' : Response}
    (h : r'.content = r.content) :
    GetterLeaves chunked unflushed a r' ↔ GetterLeaves chunked unflushed a r := by
  unfold GetterLeaves
  rw [(getters_congr a h).1, (getters_congr a h).2]

/-- The first getter of a reply path, for the response `r` of the handler. -/
def StartLeaves (path : ReplyPath) (unflushed : Bool) (a : Answers) (r : Response) : Prop :=
  match path with
  | .regular => False
  | .gateway => GetterLeaves false false a r
  | .stream => GetterLeaves false unflushed a (renderHeaders srv r).1
  | .chunked => GetterLeaves true unflushed a (renderHeaders srv r).1

instance (path : ReplyPath) (unflushed : Bool) (a : Answers) (r : Response) :
    Decidable (StartLeaves srv path unflushed a r) :=
  match path with
  | .regular => inferInstanceAs (Decidable False)
  | .gateway => inferInstanceAs (Decidable (GetterLeaves false false a r))
  | .stream => inferInstanceAs (Decidable (GetterLeaves false unflushed a _))
  | .chunked => inferInstanceAs (Decidable (GetterLeaves true unflushed a _))

/-- The task that calls the handler leaves its response. -/
def HandlerLeaves (s : AsyncConnection) (a : Answers) : Prop :=
  a.handler.Answered fun r => s.world.socket ≠ .closed ∧ r.Logged ∧
    StartLeaves srv (replyPath s.itsHeadRequest r)
      (s.world.socket != .open || a.flushWrite != .done) a r

instance (s : AsyncConnection) (a : Answers) : Decidable (s.HandlerLeaves srv a) :=
  inferInstanceAs (Decidable (a.handler.Answered _))

/-! ## The two members of a response -/

/-- The members of a response the books depend on. -/
def hooks (r : Response) : Bool × Bytes := (r.streamCompletionHandler, r.itsOriginatingBackend)

/-- The `Vary` field is no hook, -/
theorem hooks_setVary (r : Response) : hooks (setVary r) = hooks r := by
  unfold setVary
  split
  · rfl
  split
  · rfl
  split
  · rfl
  · rfl

/-- nor are the stale directives, -/
theorem hooks_appendStaleDirectives (r : Response) :
    hooks (appendStaleDirectives srv r) = hooks r := by
  unfold appendStaleDirectives
  split
  · split
    · split
      · rfl
      · rfl
    · rfl
  · rfl

/-- the fields of the persistence -/
theorem hooks_announce (k : Bool) (v : HttpVersion) (field : Bytes) (r : Response) :
    hooks (announce k v field r) = hooks r := by
  unfold announce
  split
  · rfl
  split
  · rfl
  · rfl

/-- or any other of the server's. -/
theorem hooks_setServerHeaders (a : Answers) (s : AsyncConnection) :
    hooks (setServerHeaders srv a s).itsResponse = hooks s.itsResponse := by
  refine (hooks_appendStaleDirectives srv _).trans ((hooks_announce _ _ _ _).trans ?_)
  dsimp only
  split
  · exact hooks_setVary _
  · exact hooks_setVary _

/-- The page of a status keeps the hooks, -/
theorem hooks_stockResponse (a : Answers) (st : Status) (s : AsyncConnection) :
    hooks (stockResponse srv a st s).itsResponse = hooks s.itsResponse :=
  hooks_setServerHeaders srv a _

/-- and so does that of 501. -/
theorem hooks_renderHeaders (r : Response) : hooks (renderHeaders srv r).1 = hooks r := by
  unfold renderHeaders
  split
  · rfl
  · rfl

/-- The members of the books agree where the hooks and the counters do. -/
theorem books_of_hooks {s t : AsyncConnection} (h : hooks t.itsResponse = hooks s.itsResponse)
    (hs : t.itsTotalStreamedBytes = s.itsTotalStreamedBytes)
    (hb : t.itsBackendNotified = s.itsBackendNotified) : t.books = s.books := by
  obtain ⟨h1, h2⟩ := Prod.mk.inj h
  unfold books
  rw [hs, hb, h1, h2]

/-! ## The books of all exchanges -/

/-- The books of the exchanges before are closed; those of the exchange under
way stand as they should. -/
structure Accounted (s : AsyncConnection) : Prop where
  past : ∀ x ∈ pastAccounts s.world.trace, x.Settled
  blank : s.exchange.path = none → s.ledger.Blank
  stands : s.exchange.path ≠ none → s.ledger.Stands s.world.outstanding

/-- The books of an exchange that was not begun, or is over, are settled. -/
theorem Accounted.settled {s : AsyncConnection} (h : Accounted s)
    (ho : s.exchange.path = none ∨ s.world.outstanding = []) : s.ledger.Settled := by
  by_cases hp : s.exchange.path = none
  · exact Ledger.settled_of_no_path hp
  · have := h.stands hp
    rwa [ho.resolve_left hp] at this

/-- The account depends on the ledgers and on what is outstanding. -/
theorem Accounted.of_ledger {s t : AsyncConnection} (h : Accounted s)
    (hp : pastAccounts t.world.trace = pastAccounts s.world.trace) (hl : t.ledger = s.ledger)
    (ho : t.world.outstanding = s.world.outstanding) : Accounted t := by
  have hpath : t.exchange.path = s.exchange.path := congrArg Ledger.path hl
  refine ⟨?_, ?_, ?_⟩
  · rw [hp]
    exact h.past
  · rw [hpath, hl]
    exact h.blank
  · rw [hpath, hl, ho]
    exact h.stands

/-- Code that keeps no books. -/
theorem Accounted.of_trail {A : Obs → Prop} {s t : AsyncConnection} (h : Accounted s)
    (ht : Trail A s t) (hA : ∀ o, A o → ¬ Booked o) (hb : t.books = s.books)
    (ho : t.world.outstanding = s.world.outstanding) : Accounted t :=
  h.of_ledger (pastAccounts_of_trail ht hA) (ledger_of_trail ht hA hb) ho

/-- Code that begins no delivery. -/
theorem Accounted.early {A : Obs → Prop} {s t : AsyncConnection} (h : Accounted s)
    (hp : s.exchange.path = none) (ht : Trail A s t) (hA : ∀ o, A o → ¬ Booked o)
    (hb : t.itsBackendNotified = s.itsBackendNotified) :
    Accounted t ∧ t.exchange.path = none := by
  obtain ⟨new, hnew, hev⟩ := ht.events
  obtain ⟨h1, h2, -, -, h5, h6⟩ :=
    account_append (t := s.world.trace) fun o ho => hA o (hev o ho).1
  rw [← hnew] at h1 h2 h5 h6
  have hpath : t.exchange.path = none := h5.trans hp
  have hblank := h.blank hp
  refine ⟨⟨?_, fun _ => ⟨h1.trans hblank.logged, h2.trans hblank.notified,
    hb.trans hblank.backendNotified⟩, fun hne => absurd hpath hne⟩, hpath⟩
  rw [h6]
  exact h.past

/-! ## The functions that end an exchange -/

/-- The next exchange opens its own books. -/
theorem Accounted.finishResponse {s : AsyncConnection} (h : Accounted s)
    (ho : s.exchange.path = none ∨ s.world.outstanding = []) :
    Accounted (finishResponse srv s) := by
  unfold AsyncConnection.finishResponse
  split
  · have hresume : ∀ u : AsyncConnection, Accounted u → u.exchange.path = none →
        Accounted (resumeReading u) := by
      intro u hu hp
      unfold resumeReading
      split
      · exact ⟨hu.past, hu.blank, fun hne => absurd hp hne⟩
      · exact ⟨hu.past, hu.blank, fun hne => absurd hp hne⟩
    refine hresume _ ⟨?_, fun _ => ⟨rfl, rfl, rfl⟩, fun hne => absurd rfl hne⟩ rfl
    intro x hx
    rcases List.mem_cons.mp hx with rfl | hx
    · exact (settled_iff s).mp (h.settled ho)
    · exact h.past x hx
  · exact h

/-- The events of `sendSimpleReply` in front of its end. -/
def SentEvent (o : Obs) : Prop :=
  (∃ m r head, o = .rendered m r head) ∨ (∃ m b, o = .wrote m b) ∨ ∃ m, o = .writeError m

/-- A write enters nothing. -/
theorem not_booked_of_sentEvent {o : Obs} (h : SentEvent o) : ¬ Booked o := by
  rcases h with ⟨m, r, head, rfl⟩ | ⟨m, b, rfl⟩ | ⟨m, rfl⟩
  · exact id
  · exact id
  · exact id

/-- `sendSimpleReply` writes a response, and re-arms or closes the connection. -/
theorem sendSimpleReply_books (a : Answers) (m : Message) (s : AsyncConnection) :
    sendSimpleReply srv a m s = s ∨
    ∃ t, Trail SentEvent s t ∧ t.books = s.books ∧ t.world.outstanding = s.world.outstanding ∧
      (s.itsKeepAlive = false → t.itsKeepAlive = false) ∧
      sendSimpleReply srv a m s
        = if t.itsKeepAlive then AsyncConnection.finishResponse srv t else closeSocket t := by
  unfold sendSimpleReply
  cases headersToString srv.spine s.itsResponse with
  | none => exact Or.inl rfl
  | some head =>
    have hw : ∀ (b : Bytes) (o : WriteOutcome) (u : AsyncConnection),
        Trail SentEvent u (write m b o u) := fun b o u =>
      Trail.write u b o (fun c => Or.inr (Or.inl ⟨_, c, rfl⟩)) (Or.inr (Or.inr ⟨_, rfl⟩))
    have hbooks : (writeContent a m (writeHead a m head s)).books = s.books := by
      unfold books writeContent writeHead write emit
      rfl
    refine Or.inr ⟨writeContent a m (writeHead a m head s), ?_, hbooks, ?_, ?_, rfl⟩
    · have hhead : Trail SentEvent s (writeHead a m head s) :=
        (Trail.emit s (o := .rendered m s.itsResponse head) (Or.inl ⟨_, _, _, rfl⟩)
          fun _ => id).trans (hw _ _ _)
      exact hhead.trans ((hw _ _ _).trans (Trail.silent rfl fun h => h))
    · show (World.write _ _ _ _).outstanding = _
      rw [(World.write_delivers _ _ _ _).outstanding]
      exact (World.write_delivers _ _ _ _).outstanding
    · intro hk
      show (s.itsKeepAlive && _) = false
      rw [hk]
      rfl

/-- Closing enters nothing. -/
theorem Accounted.closeSocket {s : AsyncConnection} (h : Accounted s) :
    Accounted (closeSocket s) := h.of_ledger rfl rfl rfl

/-- The server's own reply. -/
theorem Accounted.sendSimpleReply {s : AsyncConnection} (h : Accounted s)
    (ho : s.exchange.path = none ∨ s.world.outstanding = []) (a : Answers) (m : Message) :
    Accounted (sendSimpleReply srv a m s) := by
  rcases sendSimpleReply_books srv a m s with heq | ⟨t, ht, hb, hout, -, heq⟩
  · rw [heq]
    exact h
  · rw [heq]
    have ht' := h.of_trail ht (fun _ => not_booked_of_sentEvent) hb hout
    have hl := ledger_of_trail ht (fun _ => not_booked_of_sentEvent) hb
    split
    · refine ht'.finishResponse srv ?_
      rw [show t.exchange.path = s.exchange.path from congrArg Ledger.path hl, hout]
      exact ho
    · exact ht'.closeSocket

/-- A page of the server is sent. -/
theorem Accounted.sendStockReply {s : AsyncConnection} (h : Accounted s)
    (ho : s.exchange.path = none ∨ s.world.outstanding = []) (a : Answers) (st : Status) :
    Accounted (sendStockReply srv a st s) := by
  have hstretch := (stretch_stockResponse srv a st s).toTrail
  have hbooks := books_of_hooks (hooks_stockResponse srv a st s) rfl rfl
  have hledger := ledger_of_trail (A := NoEvent) hstretch (fun _ => False.elim) hbooks
  have hready : Accounted (stockResponse srv a st s) :=
    h.of_trail (A := NoEvent) hstretch (fun _ => False.elim) hbooks rfl
  refine hready.sendSimpleReply srv ?_ a _
  rw [show (stockResponse srv a st s).exchange.path = s.exchange.path from
    congrArg Ledger.path hledger]
  exact ho

/-- A reply on a connection that ends leaves the ledger alone. -/
theorem ledger_sendSimpleReply {a : Answers} {m : Message} {s : AsyncConnection}
    (hk : s.itsKeepAlive = false) :
    (AsyncConnection.sendSimpleReply srv a m s).ledger = s.ledger ∧
      pastAccounts (AsyncConnection.sendSimpleReply srv a m s).world.trace
        = pastAccounts s.world.trace ∧
      (AsyncConnection.sendSimpleReply srv a m s).world.outstanding = s.world.outstanding := by
  rcases sendSimpleReply_books srv a m s with heq | ⟨t, ht, hb, hout, hk', heq⟩
  · rw [heq]
    exact ⟨rfl, rfl, rfl⟩
  · rw [heq, if_neg (by rw [hk' hk]; simp)]
    have hl : t.ledger = s.ledger := ledger_of_trail ht (fun _ => not_booked_of_sentEvent) hb
    have hp : pastAccounts t.world.trace = pastAccounts s.world.trace :=
      pastAccounts_of_trail ht fun _ => not_booked_of_sentEvent
    exact ⟨hl, hp, hout⟩

/-- A header section that is flushed leaves all books. -/
theorem flushPendingHeaders_books (a : Answers) (s : AsyncConnection) :
    (flushPendingHeaders a s).ledger = s.ledger ∧
      pastAccounts (flushPendingHeaders a s).world.trace = pastAccounts s.world.trace := by
  unfold flushPendingHeaders
  split
  · exact ⟨rfl, rfl⟩
  · have ht : Trail SentEvent s (write .handler s.itsPendingHeaders a.flushWrite s) :=
      Trail.write s _ _ (fun c => Or.inr (Or.inl ⟨_, c, rfl⟩)) (Or.inr (Or.inr ⟨_, rfl⟩))
    have ht' := ht.trans (u := { write .handler s.itsPendingHeaders a.flushWrite s with
      itsPendingHeaders := []
      itsFinalStatus := if s.world.writeFails s.itsPendingHeaders a.flushWrite then .other
        else s.itsFinalStatus }) (Trail.silent rfl fun h => h)
    exact ⟨ledger_of_trail ht' (fun _ => not_booked_of_sentEvent) rfl,
      pastAccounts_of_trail ht' fun _ => not_booked_of_sentEvent⟩

/-- Both calls. -/
theorem ledger_keep (books : Books) (s : AsyncConnection) :
    (books.keep s).ledger = match books with
      | .none => s.ledger
      | .log => s.ledger.log
      | .logAndNotify status =>
        s.ledger.log.notify (status (finalizeStreamLogging s).itsResponse) := by
  cases books with
  | none => rfl
  | log => exact ledger_finalizeStreamLogging s
  | logAndNotify status =>
    show (notifyBackendFinished _ (finalizeStreamLogging s)).ledger = _
    rw [ledger_notifyBackendFinished, ledger_finalizeStreamLogging]

/-- The log is entered in the books under way, -/
theorem pastAccounts_finalizeStreamLogging (s : AsyncConnection) :
    pastAccounts (finalizeStreamLogging s).world.trace = pastAccounts s.world.trace := by
  unfold finalizeStreamLogging
  split
  · rfl
  · rfl

/-- and so is the notification; -/
theorem pastAccounts_notifyBackendFinished (st : StreamerStatus) (s : AsyncConnection) :
    pastAccounts (notifyBackendFinished st s).world.trace = pastAccounts s.world.trace := by
  unfold notifyBackendFinished
  split
  · rfl
  · rfl

/-- those of the exchanges before are closed. -/
theorem pastAccounts_keep (books : Books) (s : AsyncConnection) :
    pastAccounts (books.keep s).world.trace = pastAccounts s.world.trace := by
  cases books with
  | none => rfl
  | log => exact pastAccounts_finalizeStreamLogging s
  | logAndNotify status =>
    exact (pastAccounts_notifyBackendFinished _ _).trans
      (pastAccounts_finalizeStreamLogging s)

/-! ## A delivery -/

/-- A function of a reply path is called. -/
structure Begun (s : AsyncConnection) : Prop where
  past : ∀ x ∈ pastAccounts s.world.trace, x.Settled
  path : s.exchange.path ≠ none
  idle : s.world.outstanding = []

namespace Begun

variable {s : AsyncConnection}

/-- What begins depends on the ledgers and on what is outstanding. -/
theorem of_ledger {t : AsyncConnection} (h : Begun s)
    (hp : pastAccounts t.world.trace = pastAccounts s.world.trace) (hl : t.ledger = s.ledger)
    (ho : t.world.outstanding = s.world.outstanding) : Begun t := by
  refine ⟨?_, ?_, ho.trans h.idle⟩
  · rw [hp]
    exact h.past
  · rw [show t.exchange.path = s.exchange.path from congrArg Ledger.path hl]
    exact h.path

/-- A function returns and leaves this outstanding. -/
theorem accounted (h : Begun s) {t : AsyncConnection}
    (hp : pastAccounts t.world.trace = pastAccounts s.world.trace)
    (hpath : t.exchange.path = s.exchange.path) (hs : t.ledger.Stands t.world.outstanding) :
    Accounted t := by
  refine ⟨?_, fun hn => absurd (hpath.symm.trans hn) h.path, fun _ => hs⟩
  rw [hp]
  exact h.past

/-- A function returns and leaves nothing outstanding. -/
theorem leaves (h : Begun s) (hl : ¬ s.ledger.Logged) : Accounted s := by
  refine h.accounted rfl rfl ?_
  rw [h.idle]
  exact Ledger.settled_of_not_logged hl

/-- The books are closed when the delivery ends. -/
theorem ends (h : Begun s) {t : AsyncConnection}
    (hp : pastAccounts t.world.trace = pastAccounts s.world.trace)
    (hpath : t.exchange.path = s.exchange.path) (ho : t.world.outstanding = [])
    (hs : t.ledger.Settled) : Accounted t := by
  refine h.accounted hp hpath ?_
  rw [ho]
  exact hs

/-- A function has made its calls, and nothing is outstanding. -/
theorem keep (h : Begun s) {t : AsyncConnection} (books : Books)
    (ht : t = books.keep s) (hs : (books.keep s).ledger.Settled) :
    Accounted t ∧ t.world.outstanding = [] := by
  have ho : (books.keep s).world.outstanding = [] := (keep_fields books s).1.trans h.idle
  have hpath : (books.keep s).exchange.path = s.exchange.path := by
    show (books.keep s).ledger.path = s.ledger.path
    rw [ledger_keep]
    cases books with
    | none => rfl
    | log => exact Ledger.path_log
    | logAndNotify status => exact (Ledger.path_notify _).trans Ledger.path_log
  rw [ht]
  exact ⟨h.ends (pastAccounts_keep books s) hpath ho hs, ho⟩

end Begun

/-- The books are open. -/
structure Delivering (s : AsyncConnection) : Prop extends Begun s where
  opened : s.ledger.Open

namespace Delivering

variable {s : AsyncConnection}

/-- Code that keeps no books. -/
theorem of_ledger {t : AsyncConnection} (h : Delivering s)
    (hp : pastAccounts t.world.trace = pastAccounts s.world.trace) (hl : t.ledger = s.ledger)
    (ho : t.world.outstanding = s.world.outstanding) : Delivering t := by
  refine ⟨h.toBegun.of_ledger hp hl ho, ?_⟩
  rw [hl]
  exact h.opened

/-- A chunk is entered in the open books. -/
theorem takeChunk (h : Delivering s) (c : Bytes) : Delivering (takeChunk c s) :=
  ⟨⟨h.past, h.path, h.idle⟩, h.opened.chunk c⟩

/-- A flushed header section leaves them open, -/
theorem flushPendingHeaders (h : Delivering s) (a : Answers) :
    Delivering (flushPendingHeaders a s) :=
  h.of_ledger (flushPendingHeaders_books a s).2 (flushPendingHeaders_books a s).1
    (outstanding_flushPendingHeaders a s)

/-- and so does a pending one. -/
theorem preparePendingHeaders (h : Delivering s) :
    Delivering (preparePendingHeaders srv s) := by
  have hbooks : (AsyncConnection.preparePendingHeaders srv s).books = s.books :=
    books_of_hooks (hooks_renderHeaders srv s.itsResponse) rfl rfl
  have ht : Trail SentEvent s (AsyncConnection.preparePendingHeaders srv s) := by
    exact ⟨⟨[_], rfl, by simp [SentEvent, Outward]⟩, fun h => h⟩
  exact h.of_ledger rfl (ledger_of_trail ht (fun _ => not_booked_of_sentEvent) hbooks) rfl

/-- A chunk is sent. -/
theorem sendChunk (h : Delivering s) {handler : WriteHandler} (wire : Bytes)
    (hh : handler = .writeStreamReply ∨ handler = .writeChunkedReply) :
    Accounted (sendChunk handler wire s) := by
  refine h.accounted rfl rfl ?_
  show s.ledger.Stands (s.world.outstanding ++ [.write handler (s.itsPendingHeaders ++ wire)])
  rw [h.idle]
  rcases hh with rfl | rfl
  · exact h.opened
  · exact h.opened

/-- The next getter is scheduled. -/
theorem scheduleGetter (h : Delivering s) {task : Task} {a : Answers}
    (ht : task = .getNextChunk ∨ task = .getNextChunkedChunk)
    (hl : a.accepts = false → ¬ s.ledger.Logged) :
    Accounted ((Tail.scheduleGetter srv a task s).run srv a) := by
  unfold Tail.scheduleGetter
  split
  · refine h.accounted rfl rfl ?_
    show s.ledger.Stands (s.world.outstanding ++ [.task (chunkPool s) task])
    rw [h.idle]
    rcases ht with rfl | rfl
    · exact h.opened
    · exact h.opened
  · rename_i ha
    have hleft := h.leaves (hl (by simpa using ha))
    let u : AsyncConnection := { s.emit .refused with itsKeepAlive := false }
    have hu : Accounted u := by
      refine hleft.of_trail (A := fun o => o = .refused) ?_ ?_ rfl rfl
      · have hemit : Trail (fun o => o = .refused) s (s.emit .refused) :=
          Trail.emit s rfl fun _ => id
        exact hemit.trans (Trail.silent rfl fun h => h)
      · rintro _ rfl
        exact id
    exact hu.sendStockReply srv (Or.inr h.idle) a .serviceUnavailable

/-- The ends that keep no books are left for responses that are not logged. -/
theorem not_logged {t : AsyncConnection} {p : Prop} (hl : s.ledger.Logged → ¬ p)
    (ht : t.ledger.handled = s.ledger.handled) (hg : p) : ¬ t.ledger.Logged := by
  rintro ⟨r, hr, hlog⟩
  exact hl ⟨r, ht.symm.trans hr, hlog⟩ hg

/-- The streamer is asked for a chunk. -/
theorem chunkAsked (h : Delivering s) {a : Answers} {chunked unflushed : Bool} {handler : WriteHandler}
    {task : Task} (wire : Bytes → Bytes) (hst : getStreamingStatus a s.itsResponse = .ok)
    (hh : handler = .writeStreamReply ∨ handler = .writeChunkedReply)
    (ht : task = .getNextChunk ∨ task = .getNextChunkedChunk)
    (hf : flushFails a s = true → unflushed = true)
    (hl : s.ledger.Logged → ¬ GetterLeaves chunked unflushed a s.itsResponse) :
    Accounted (Outcome.run srv a (match nextContent a s.itsResponse with
      | none => .stop s
      | some content =>
        if !content.isEmpty then
          .stop (AsyncConnection.sendChunk handler (wire content)
            (AsyncConnection.takeChunk content s))
        else if flushFails a (AsyncConnection.takeChunk content s) then
          .stop (AsyncConnection.flushPendingHeaders a (AsyncConnection.takeChunk content s))
        else Tail.scheduleGetter srv a task
          (AsyncConnection.flushPendingHeaders a (AsyncConnection.takeChunk content s)))) := by
  cases hc : nextContent a s.itsResponse with
  | none => exact h.leaves (not_logged hl rfl (Or.inl ⟨hst, Or.inl hc⟩))
  | some content =>
    dsimp only
    split
    · exact (h.takeChunk content).sendChunk _ hh
    rename_i hempty
    obtain rfl : content = [] := by simpa using hempty
    have hd := (h.takeChunk []).flushPendingHeaders a
    have hledger : (AsyncConnection.flushPendingHeaders a
        (AsyncConnection.takeChunk [] s)).ledger.handled = s.ledger.handled := by
      rw [(flushPendingHeaders_books a _).1]
      rfl
    split
    · rename_i hfail
      exact hd.leaves (not_logged hl hledger (Or.inl ⟨hst, Or.inr ⟨hc, Or.inl (hf hfail)⟩⟩))
    · refine hd.scheduleGetter srv ht fun ha => ?_
      exact not_logged hl hledger (Or.inl ⟨hst, Or.inr ⟨hc, Or.inr ha⟩⟩)

/-- A stream of announced length, or one of a gateway. -/
theorem getNextChunk (h : Delivering s) {a : Answers} {v : Bool}
    (hf : flushFails a s = true → v = true)
    (hl : s.ledger.Logged → ¬ GetterLeaves false v a s.itsResponse) :
    Accounted ((Tail.getNextChunk srv a s).run srv a) := by
  let own := s.itsResponse.hasStreamContent
  have hend : ∀ st : StreamerStatus, getStreamingStatus a s.itsResponse = st → st ≠ .ok →
      Accounted (Outcome.run srv a
      (if flushFails a (s.emit (.streamEnded st own)) then
        .stop (AsyncConnection.flushPendingHeaders a (s.emit (.streamEnded st own)))
      else Tail.finishStream st
        (AsyncConnection.flushPendingHeaders a (s.emit (.streamEnded st own))))) := by
    intro st hst hne
    have hd := (h.of_ledger (t := s.emit (.streamEnded st own)) rfl rfl rfl).flushPendingHeaders a
    have hledger := (flushPendingHeaders_books a (s.emit (.streamEnded st own))).1
    generalize AsyncConnection.flushPendingHeaders a (s.emit (.streamEnded st own)) = u at hd hledger
    split
    · rename_i hfail
      refine hd.leaves (not_logged hl ?_ (Or.inr ⟨by rwa [hst], rfl, hf hfail⟩))
      rw [hledger]
      rfl
    · obtain ⟨hacc, ho⟩ := hd.keep (.logAndNotify fun _ => st) rfl (by
        rw [ledger_keep]
        exact hd.opened.settled st)
      exact Accounted.finishResponse srv (hacc.of_ledger rfl rfl rfl) (Or.inr ho)
  unfold Tail.getNextChunk
  cases hst : getStreamingStatus a s.itsResponse with
  | ok => exact h.chunkAsked srv (fun content => content) hst (Or.inl rfl) (Or.inl rfl) hf hl
  | exitOk => exact hend .exitOk hst (by simp)
  | exitError => exact hend .exitError hst (by simp)

/-- A chunked stream. -/
theorem getNextChunkedChunk (h : Delivering s) {a : Answers} {v : Bool}
    (hf : flushFails a s = true → v = true)
    (hl : s.ledger.Logged → ¬ GetterLeaves true v a s.itsResponse) :
    Accounted ((Tail.getNextChunkedChunk srv a s).run srv a) := by
  let own := s.itsResponse.hasStreamContent
  -- whichever way the stream ends, the backend is told before anything is written
  have hnotified : ∀ st : StreamerStatus,
      let u := notifyBackendFinished st (s.emit (.streamEnded st own))
      u.ledger.Ending ∧ pastAccounts u.world.trace = pastAccounts s.world.trace ∧
        u.exchange.path = s.exchange.path ∧ u.world.outstanding = [] := by
    intro st
    have hl : (notifyBackendFinished st (s.emit (.streamEnded st own))).ledger = s.ledger.notify st :=
      ledger_notifyBackendFinished st _
    refine ⟨?_, ?_, ?_, ?_⟩
    · rw [hl]
      exact h.opened.notify st
    · exact pastAccounts_notifyBackendFinished st _
    · show (notifyBackendFinished st (s.emit (.streamEnded st own))).ledger.path = _
      rw [hl]
      exact Ledger.path_notify st
    · exact (outstanding_notifyBackendFinished st _).trans h.idle
  unfold Tail.getNextChunkedChunk
  cases hst : getStreamingStatus a s.itsResponse with
  | ok =>
    exact h.chunkAsked srv (fun content => convertToHex content.length ++ crlf ++ content ++ crlf)
      hst (Or.inr rfl) (Or.inr rfl) hf hl
  | exitOk =>
    obtain ⟨hending, hpast, hpath, ho⟩ := hnotified .exitOk
    refine h.accounted hpast hpath ?_
    show Ledger.Stands (notifyBackendFinished .exitOk (s.emit (.streamEnded .exitOk own))).ledger
      ((notifyBackendFinished .exitOk (s.emit (.streamEnded .exitOk own))).world.outstanding
        ++ [.write .finalizeChunkedReply _])
    rw [ho]
    exact hending
  | exitError =>
    obtain ⟨hending, hpast, hpath, ho⟩ := hnotified .exitError
    show Accounted (abandonChunked a (notifyBackendFinished .exitError
      (s.emit (.streamEnded .exitError own))))
    generalize notifyBackendFinished .exitError (s.emit (.streamEnded .exitError own)) = u
      at hending hpast hpath ho
    have hlu := flushPendingHeaders_books a u
    have hlog := ledger_finalizeStreamLogging (AsyncConnection.flushPendingHeaders a u)
    rw [hlu.1] at hlog
    refine h.ends ?_ ?_ ?_ (t := abandonChunked a u) ?_
    · exact (pastAccounts_finalizeStreamLogging _).trans (hlu.2.trans hpast)
    · show (finalizeStreamLogging (AsyncConnection.flushPendingHeaders a u)).ledger.path = _
      rw [hlog]
      exact Ledger.path_log.trans hpath
    · exact (outstanding_finalizeStreamLogging _).trans
        ((outstanding_flushPendingHeaders a u).trans ho)
    · show (finalizeStreamLogging (AsyncConnection.flushPendingHeaders a u)).ledger.Settled
      rw [hlog]
      exact hending.log

/-- The start of a stream of announced length, -/
theorem startStreamReply (h : Delivering s) {a : Answers} {unflushed : Bool}
    (hf : (s.world.socket != .open || a.flushWrite != .done) = true → unflushed = true)
    (hl : s.ledger.Logged → ¬ GetterLeaves false unflushed a (renderHeaders srv s.itsResponse).1) :
    Accounted ((Tail.startStreamReply srv a s).run srv a) := by
  let u : AsyncConnection := { s with
    itsDeclaredContentLength := s.itsResponse.getContentLength
    itsResponse := s.itsResponse.setHeader "Content-Length".toList
      (toDecimal s.itsResponse.getContentLength) }
  have hu : Delivering u := h.of_ledger rfl rfl rfl
  have hcontent : (renderHeaders srv u.itsResponse).1.content
      = (renderHeaders srv s.itsResponse).1.content := content_renderHeaders srv rfl rfl
  refine (hu.preparePendingHeaders srv).getNextChunk srv (v := unflushed) ?_
    fun hlog hg => hl hlog ?_
  swap
  · exact (getterLeaves_congr hcontent).mp hg
  intro hfail
  exact hf ((Bool.and_eq_true _ _).mp hfail).2

/-- and of a chunked one. -/
theorem startChunkedReply (h : Delivering s) {a : Answers} {unflushed : Bool}
    (hf : (s.world.socket != .open || a.flushWrite != .done) = true → unflushed = true)
    (hl : s.ledger.Logged → ¬ GetterLeaves true unflushed a (renderHeaders srv s.itsResponse).1) :
    Accounted ((Tail.startChunkedReply srv a s).run srv a) := by
  let r := s.itsResponse.setHeader "Transfer-Encoding".toList "chunked".toList
  let u : AsyncConnection := { s with itsResponse := r.removeHeader "Content-Length".toList }
  have hu : Delivering u := h.of_ledger rfl rfl rfl
  have hcontent : (renderHeaders srv u.itsResponse).1.content
      = (renderHeaders srv s.itsResponse).1.content := content_renderHeaders srv rfl rfl
  refine (hu.preparePendingHeaders srv).getNextChunkedChunk srv (v := unflushed) ?_
    fun hlog hg => hl hlog ?_
  swap
  · exact (getterLeaves_congr hcontent).mp hg
  intro hfail
  exact hf ((Bool.and_eq_true _ _).mp hfail).2

end Delivering

/-! ## The call of the handler -/

/-- The response of the handler is sent. -/
theorem accounted_startReply {a : Answers} {s : AsyncConnection} (h : Accounted s)
    (hp : s.exchange.path = none) (ho : s.world.outstanding = [])
    (hpending : s.itsPendingHeaders = []) (hchunks : s.exchange.chunks = [])
    (hstreamed : s.itsTotalStreamedBytes = 0) (hr : s.exchange.handled = some s.itsResponse)
    (hl : s.itsResponse.Logged → ¬ StartLeaves srv (replyPath s.itsHeadRequest s.itsResponse)
      (s.world.socket != .open || a.flushWrite != .done) a s.itsResponse) :
    Accounted ((Tail.startReply srv a s).run srv a) := by
  have hblank := h.blank hp
  have hstart : ∀ p, Delivering (s.emit (.started p)) := by
    refine fun p => ⟨⟨h.past, ?_, ho⟩, hblank.logged, hblank.notified, ?_,
      hblank.backendNotified, ?_⟩
    · exact Option.some_ne_none p
    · show s.itsTotalStreamedBytes = s.exchange.chunks.flatten.length
      rw [hstreamed, hchunks]
      rfl
    · intro r hr'
      obtain rfl : s.itsResponse = r := Option.some.inj (hr.symm.trans hr')
      exact ⟨rfl, rfl⟩
  -- the server's own fields touch neither the books nor what was handled
  have hheaders : ∀ {u : AsyncConnection}, Delivering u → Delivering (setServerHeaders srv a u) := by
    intro u hu
    exact hu.of_ledger rfl (ledger_of_trail (A := NoEvent) (stretch_setServerHeaders srv a u).toTrail
      (fun _ => False.elim) (books_of_hooks (hooks_setServerHeaders srv a u) rfl rfl)) rfl
  have hregular : Accounted (startRegularReply srv (setServerHeaders srv a
      (s.emit (.started .regular)))) := by
    have hd := hheaders (hstart .regular)
    refine hd.accounted (t := startRegularReply srv _) rfl rfl ?_
    show Ledger.Stands _ (s.world.outstanding ++ [.write .writeRegularReply _])
    rw [ho]
    trivial
  have hlogged : ∀ u : AsyncConnection, u.exchange.handled = s.exchange.handled →
      u.ledger.Logged → s.itsResponse.Logged := by
    rintro u hu ⟨r, hr', hlog⟩
    obtain rfl : s.itsResponse = r := Option.some.inj (hr.symm.trans (hu.symm.trans hr'))
    exact hlog
  -- the fields of the body do not change what the getter finds
  have hsent : ∀ {chunked unflushed : Bool} (p : ReplyPath),
      GetterLeaves chunked unflushed a
          (renderHeaders srv (setServerHeaders srv a (s.emit (.started p))).itsResponse).1 ↔
        GetterLeaves chunked unflushed a (renderHeaders srv s.itsResponse).1 := fun p =>
    have hbody := sameBody_setServerHeaders srv a (s.emit (.started p))
    getterLeaves_congr (content_renderHeaders srv hbody.status hbody.content)
  unfold Tail.startReply
  unfold replyPath at hl
  split
  · exact hregular
  rename_i hhead
  rw [if_neg hhead] at hl
  split
  swap
  · exact hregular
  rename_i hcontent
  rw [if_pos hcontent] at hl
  split
  · rename_i hgateway
    rw [if_pos hgateway] at hl
    have hd : Delivering { s.emit (.started .gateway) with itsKeepAlive := false } :=
      (hstart .gateway).of_ledger rfl rfl rfl
    refine hd.getNextChunk srv (v := false) ?_ ?_
    · -- the gateway's headers are in its stream, so nothing is pending
      intro hf
      have hf' : s.world.writeFails s.itsPendingHeaders a.flushWrite = true := hf
      rw [hpending] at hf'
      cases hf'
    · exact fun hlog => hl (hlogged _ rfl hlog)
  rename_i hgateway
  rw [if_neg hgateway] at hl
  split
  · rename_i hchunked
    rw [if_pos hchunked] at hl
    have hd := hheaders (hstart .chunked)
    refine hd.startChunkedReply srv id fun hlog hg => hl (hlogged _ rfl hlog) ?_
    exact (hsent _).mp hg
  · rename_i hchunked
    rw [if_neg hchunked] at hl
    have hd := hheaders (hstart .stream)
    refine hd.startStreamReply srv id fun hlog hg => hl (hlogged _ rfl hlog) ?_
    exact (hsent _).mp hg

/-- The task that calls the handler. -/
theorem accounted_handleCompletedRead {a : Answers} {s : AsyncConnection} (h : Accounted s)
    (hp : s.exchange.path = none) (ho : s.world.outstanding = [])
    (hpending : s.itsPendingHeaders = []) (hchunks : s.exchange.chunks = [])
    (hstreamed : s.world.socket ≠ .closed → s.itsTotalStreamedBytes = 0)
    (hl : ¬ s.HandlerLeaves srv a) :
    Accounted ((Tail.handleCompletedRead srv a s).run srv a) := by
  unfold Tail.handleCompletedRead
  split
  · exact h
  split
  · exact h
  rename_i hsocket
  let c := Tail.called s
  have hidle : c.world.outstanding = [] := ho
  have hnone : c.itsPendingHeaders = [] := hpending
  have hfresh : c.itsTotalStreamedBytes = 0 := hstreamed hsocket
  let called : Response → AsyncConnection := fun response => Tail.handled response c
  -- the call of the handler leaves three events, none of which is booked
  have hpath : ∀ response, (called response).exchange.path = none := by
    intro response
    show (Tail.handled response (Tail.called s)).exchange.path = none
    rw [Tail.exchange_handled]
    exact hp
  have hcalled : ∀ response, Accounted (called response) := by
    intro response
    have hblank := h.blank hp
    have hlogged : (account (called response).world.trace).logged =
        (account s.world.trace).logged := rfl
    have hnotified : (account (called response).world.trace).notified =
        (account s.world.trace).notified := rfl
    refine ⟨h.past, fun _ => ⟨?_, ?_, hblank.backendNotified⟩, fun hne => ?_⟩
    · exact hlogged.trans hblank.logged
    · exact hnotified.trans hblank.notified
    · exact absurd (hpath response) hne
  rw [Tail.callHandler_eq]
  rcases Tail.returnFromHandler_cases srv a (Tail.called s) with
    ⟨-, heq⟩ | ⟨response, ⟨-, heq⟩ | ⟨-, heq⟩ | ⟨hr, heq⟩⟩
  · rw [heq]
    exact h.of_ledger rfl rfl rfl
  · rw [heq]
    exact hcalled response
  · rw [heq]
    exact (hcalled response).sendStockReply srv (Or.inl (hpath response)) a _
  · rw [heq]
    have hgot : (called response).exchange.chunks = [] := by
      show (Tail.handled response (Tail.called s)).exchange.chunks = []
      rw [Tail.exchange_handled]
      exact hchunks
    refine accounted_startReply srv (hcalled response) (hpath response) hidle hnone hgot hfresh rfl
      ?_
    intro hlogged hstart
    refine hl ?_
    unfold HandlerLeaves
    rw [hr]
    exact ⟨hsocket, hlogged, hstart⟩

/-! ## A completed write -/

/-- A write of a reply path is completed: more is written, or `next` goes on, or
the connection ends with the calls of `books`. -/
theorem Begun.continueWrite {s : AsyncConnection} (h : Begun s) {a : Answers}
    {handler : WriteHandler} {e : ErrorCode} {n : ℕ} {next : AsyncConnection → Outcome}
    {books : Books} (hstands : ∀ b, s.ledger.Stands [.write handler b])
    (hnext : e = .success → s.itsResponseString.length ≤ s.itsSentBytes + n →
      ∀ t : AsyncConnection, Begun t → t.ledger = s.ledger → Accounted ((next t).run srv a))
    (hfail : e ≠ .success → ∀ t : AsyncConnection, t.ledger = s.ledger →
      (books.keep t).ledger.Settled) :
    Accounted ((Tail.continueWrite srv a handler e n next books s).run srv a) := by
  unfold Tail.continueWrite
  dsimp only
  split
  · rename_i he
    split
    · let u : AsyncConnection :=
        { s with itsFinalStatus := e, itsSentBytes := s.itsSentBytes + n }
      have hu : Begun u := h.of_ledger rfl rfl rfl
      refine hu.accounted (t := asyncWriteSome handler _ u) rfl rfl ?_
      show s.ledger.Stands (s.world.outstanding ++ [Activity.write handler _])
      rw [h.idle]
      exact hstands _
    · rename_i hlen
      exact hnext he (Nat.le_of_not_lt hlen) _ (h.of_ledger rfl rfl rfl) rfl
  · rename_i he
    let u : AsyncConnection := { s with itsFinalStatus := e, itsKeepAlive := false }
    let v := stockResponse srv a .serviceUnavailable u
    have hv : v.ledger = s.ledger := ledger_of_trail (A := NoEvent) (s := u)
      (stretch_stockResponse srv a _ u).toTrail (fun _ => False.elim)
      (books_of_hooks (hooks_stockResponse srv a _ u) rfl rfl)
    have hk : v.itsKeepAlive = false := by
      cases hvk : v.itsKeepAlive with
      | false => rfl
      | true => exact (keepAlive_of_stockResponse srv a hvk).symm
    obtain ⟨hl, hp, ho⟩ := ledger_sendSimpleReply srv (a := a)
      (m := .stock .serviceUnavailable) hk
    have hw : Begun (sendSimpleReply srv a (.stock .serviceUnavailable) v) :=
      h.of_ledger hp (hl.trans hv) ho
    exact (hw.keep books rfl (hfail he _ (hl.trans hv))).1

/-- The handlers of the completed writes. -/
theorem Begun.runWriteHandler {s : AsyncConnection} (h : Begun s) {a : Answers}
    {handler : WriteHandler} {e : ErrorCode} {n : ℕ}
    (hstands : ∀ b, s.ledger.Stands [.write handler b])
    (hregular : handler = .writeRegularReply →
      (e = .success → s.itsResponseString.length ≤ s.itsSentBytes + n) → ¬ s.ledger.Logged)
    (hrefused : handler = .writeStreamReply ∨ handler = .writeChunkedReply → e = .success →
      s.itsResponseString.length ≤ s.itsSentBytes + n → a.accepts = false → ¬ s.ledger.Logged) :
    Accounted ((Tail.runWriteHandler srv a handler e n s).run srv a) := by
  cases handler with
  | writeRegularReply =>
    show Accounted ((Tail.continueWrite srv a .writeRegularReply e n
      (fun s => .finish (notifyBackendFinished .exitOk s)) .none s).run srv a)
    refine h.continueWrite srv hstands ?_ ?_
    · intro he hlen t ht hl
      -- nothing is logged for a regular reply, so there is nothing to settle
      have hsettled : (notifyBackendFinished .exitOk t).ledger.Settled := by
        refine Ledger.settled_of_not_logged ?_
        rintro ⟨r, hr, hlog⟩
        rw [ledger_notifyBackendFinished, Ledger.handled_notify, hl] at hr
        exact hregular rfl (fun _ => hlen) ⟨r, hr, hlog⟩
      have hout := (outstanding_notifyBackendFinished .exitOk t).trans ht.idle
      refine Accounted.finishResponse srv (ht.ends (pastAccounts_notifyBackendFinished .exitOk t) ?_
        hout hsettled) (Or.inr hout)
      show (notifyBackendFinished .exitOk t).ledger.path = t.ledger.path
      rw [ledger_notifyBackendFinished, Ledger.path_notify]
    · intro he t hl
      show t.ledger.Settled
      rw [hl]
      exact Ledger.settled_of_not_logged (hregular rfl fun hs => absurd hs he)
  | writeStreamReply =>
    refine h.continueWrite srv hstands ?_ ?_
    · intro he hlen t ht hl
      have hd : Delivering t := ⟨ht, by rw [hl]; exact hstands []⟩
      refine hd.scheduleGetter srv (Or.inl rfl) fun ha => ?_
      rw [hl]
      exact hrefused (Or.inl rfl) he hlen ha
    · intro _ t hl
      rw [ledger_keep, hl]
      exact Ledger.Open.settled (hstands []) _
  | writeChunkedReply =>
    refine h.continueWrite srv hstands ?_ ?_
    · intro he hlen t ht hl
      have hd : Delivering t := ⟨ht, by rw [hl]; exact hstands []⟩
      refine hd.scheduleGetter srv (Or.inr rfl) fun ha => ?_
      rw [hl]
      exact hrefused (Or.inr rfl) he hlen ha
    · intro _ t hl
      rw [ledger_keep, hl]
      exact Ledger.Open.settled (hstands []) _
  | finalizeChunkedReply =>
    have hlog : ∀ t : AsyncConnection, t.ledger = s.ledger →
        (Books.log.keep t).ledger.Settled := by
      intro t hl
      rw [ledger_keep, hl]
      exact Ledger.Ending.log (hstands [])
    show Accounted ((Tail.continueWrite srv a .finalizeChunkedReply e n
      (fun s => .finish (finalizeStreamLogging s)) .log s).run srv a)
    refine h.continueWrite srv hstands ?_ fun _ t hl => hlog t hl
    intro _ _ t ht hl
    obtain ⟨hacc, hout⟩ := ht.keep .log rfl (hlog t hl)
    exact hacc.finishResponse srv (Or.inr hout)

end AsyncConnection

end SmartMet
