/-
# The requests of a stream

The requests `handleParsedRequest` is entered with are the messages of the
client's stream, whatever reads it arrives in.  As long as a connection goes on,
what it has received is cut into the requests so far and the bytes it holds: the
buffer, and behind it the bytes of a call of `handleRead` that waits.
-/
import SmartMetServer.MinimalSpine
import SmartMetServer.OwnReplies
import SmartMetServer.Reads

namespace SmartMet

open StreamFraming

namespace AsyncConnection

variable (srv : Server)

/-- The bytes that have arrived and belong to no request yet. -/
def held (s : AsyncConnection) : Bytes := s.itsBuffer ++ s.unread

/-! ## The last call -/

theorem held_finishResponse (s : AsyncConnection) : (finishResponse srv s).held = s.held := by
  have hresume : ∀ u : AsyncConnection, (resumeReading u).held = u.held := by
    intro u
    unfold resumeReading held unread
    split
    · show u.itsBuffer ++ (u.world.outstanding ++ [Activity.read]).flatMap Activity.unread = _
      rw [List.flatMap_append]
      exact congrArg _ (List.append_nil _)
    · show u.itsBuffer ++ (u.world.outstanding ++ [Activity.handleRead []]).flatMap Activity.unread = _
      rw [List.flatMap_append]
      exact congrArg _ (List.append_nil _)
  unfold finishResponse
  split
  · exact hresume _
  · rfl

/-- The reply and what stands before the keep-alive decision. -/
theorem sendSimpleReply_ends (a : Answers) (m : Message) (s : AsyncConnection) :
    sendSimpleReply srv a m s = s ∨
    ∃ t, t.itsBuffer = s.itsBuffer ∧ t.world.outstanding = s.world.outstanding ∧
      (s.itsKeepAlive = false → t.itsKeepAlive = false) ∧
      sendSimpleReply srv a m s = if t.itsKeepAlive then finishResponse srv t else closeSocket t := by
  unfold sendSimpleReply
  cases headersToString srv.spine s.itsResponse with
  | none => exact Or.inl rfl
  | some head =>
    refine Or.inr ⟨writeContent a m (writeHead a m head s), rfl, ?_, ?_, rfl⟩
    · show (World.write _ _ _ _).outstanding = _
      rw [(World.write_delivers _ _ _ _).outstanding]
      exact (World.write_delivers _ _ _ _).outstanding
    · intro hk
      show (s.itsKeepAlive && _) = false
      rw [hk]
      rfl

theorem held_eq {s t : AsyncConnection} (hb : t.itsBuffer = s.itsBuffer)
    (ho : t.world.outstanding = s.world.outstanding) : t.held = s.held := by
  unfold held unread
  rw [hb, ho]

theorem keep_fields (books : Books) (s : AsyncConnection) :
    (books.keep s).world.outstanding = s.world.outstanding ∧
      (books.keep s).itsBuffer = s.itsBuffer ∧
      (books.keep s).itsExpectHandled = s.itsExpectHandled := by
  have hlog : ∀ u : AsyncConnection, (finalizeStreamLogging u).itsBuffer = u.itsBuffer ∧
      (finalizeStreamLogging u).itsExpectHandled = u.itsExpectHandled := by
    intro u
    unfold finalizeStreamLogging
    split
    · exact ⟨rfl, rfl⟩
    · exact ⟨rfl, rfl⟩
  have hnotify : ∀ st (u : AsyncConnection), (notifyBackendFinished st u).itsBuffer = u.itsBuffer ∧
      (notifyBackendFinished st u).itsExpectHandled = u.itsExpectHandled := by
    intro st u
    unfold notifyBackendFinished
    split
    · exact ⟨rfl, rfl⟩
    · exact ⟨rfl, rfl⟩
  cases books with
  | none => exact ⟨rfl, rfl, rfl⟩
  | log => exact ⟨outstanding_finalizeStreamLogging s, hlog s⟩
  | logAndNotify status =>
    exact ⟨(outstanding_notifyBackendFinished _ _).trans (outstanding_finalizeStreamLogging s),
      (hnotify _ _).1.trans (hlog s).1, (hnotify _ _).2.trans (hlog s).2⟩

theorem held_keep (books : Books) (s : AsyncConnection) : (books.keep s).held = s.held :=
  held_eq (keep_fields books s).2.1 (keep_fields books s).1

/-- The last call holds on to all bytes. -/
theorem held_run (a : Answers) (x : Outcome) : (x.run srv a).held = x.state.held := by
  cases x with
  | stop s => rfl
  | finish s => exact held_finishResponse srv s
  | reply m s books =>
    show (books.keep (sendSimpleReply srv a m s)).held = s.held
    rw [held_keep]
    rcases sendSimpleReply_ends srv a m s with h | ⟨t, hb, ho, -, h⟩
    · rw [h]
    · rw [h]
      split
      · rw [held_finishResponse, held_eq hb ho]
      · exact held_eq hb ho

/-- A reply on a connection that does not persist puts nothing out. -/
theorem outstanding_reply {m : Message} {s : AsyncConnection} (h : s.itsKeepAlive = false)
    (books : Books) (a : Answers) :
    ((Outcome.reply m s books).run srv a).world.outstanding = s.world.outstanding := by
  show (books.keep (sendSimpleReply srv a m s)).world.outstanding = _
  rw [(keep_fields books _).1]
  rcases sendSimpleReply_ends srv a m s with h' | ⟨t, -, ho, hk, h'⟩
  · rw [h']
  · rw [h', hk h]
    exact ho

/-- A stock reply on a connection that does not persist. -/
theorem outstanding_sendStockReply {st : Status} {s : AsyncConnection}
    (h : s.itsKeepAlive = false) (a : Answers) :
    ((Tail.sendStockReply srv a st s).run srv a).world.outstanding = s.world.outstanding := by
  refine outstanding_reply srv (s := stockResponse srv a st s) ?_ .none a
  show (s.itsKeepAlive && _ && _) = false
  rw [h]
  rfl

/-- The timer's handler puts nothing out and leaves the buffer alone. -/
theorem handleTimer_frame (a : Answers) (err : ErrorCode) (generation : ℕ) (s : AsyncConnection) :
    ((Tail.handleTimer srv a err generation s).run srv a).world.outstanding
        = s.world.outstanding ∧
      ((Tail.handleTimer srv a err generation s).run srv a).itsBuffer = s.itsBuffer ∧
      ((Tail.handleTimer srv a err generation s).run srv a).itsExpectHandled
        = s.itsExpectHandled := by
  unfold Tail.handleTimer
  split
  · exact ⟨rfl, rfl, rfl⟩
  split
  · exact ⟨rfl, rfl, rfl⟩
  dsimp only
  split
  · exact ⟨rfl, rfl, rfl⟩
  · obtain ⟨r, e, w, heq, -, -, hin⟩ := sendStockReply_closing srv a .requestTimeout
      (s := { s with hasTimedOut := true, itsKeepAlive := false }) rfl
    show (sendStockReply srv a _ _).world.outstanding = _ ∧ (sendStockReply srv a _ _).itsBuffer = _ ∧
      (sendStockReply srv a _ _).itsExpectHandled = _
    rw [heq]
    exact ⟨hin.outstanding, rfl, rfl⟩

/-! ## One step -/

/-- What was received is cut into the requests so far and a rest; the connection
holds the rest as long as it goes on. -/
def Reassembled (s : AsyncConnection) : Prop :=
  ∃ rest, Cut srv.spine.parseOneRequest (receivedOf s.world.trace) (parsedOf s.world.trace) rest ∧
    (s.world.outstanding ≠ [] → rest = s.held)

/-- The same in front of the last call of a step. -/
def Taken (a : Answers) (x : Outcome) : Prop :=
  ∃ rest, Cut srv.spine.parseOneRequest (receivedOf x.state.world.trace)
    (parsedOf x.state.world.trace) rest ∧
    ((x.run srv a).world.outstanding ≠ [] → rest = x.state.held)

variable {srv}

theorem Taken.run {a : Answers} {x : Outcome} (h : Taken srv a x) :
    Reassembled srv (x.run srv a) := by
  obtain ⟨rest, hcut, hheld⟩ := h
  have ht := trail_run srv a x
  refine ⟨rest, ?_, ?_⟩
  · rw [ht.parsedOf fun o ho => not_parsed_of_lastEvent srv ho,
      ht.receivedOf fun o ho => not_received_of_lastEvent srv ho]
    exact hcut
  · rw [held_run]
    exact hheld

/-- A step that neither receives nor parses. -/
theorem Reassembled.taken {s : AsyncConnection} {e : Event} {x : Outcome}
    (h : Reassembled srv s) (hx : Tail.step srv s e = some x) (hread : ∀ i a, e ≠ .runRead i a)
    (hreceive : ∀ i b, e ≠ .receive i b) (hheld : x.state.held = s.held)
    (ho : (x.run srv e.answers).world.outstanding ≠ [] → s.world.outstanding ≠ []) :
    Taken srv e.answers x := by
  obtain ⟨rest, hcut, hrest⟩ := h
  have ht := trail_step srv hx
  refine ⟨rest, ?_, fun hne => (hrest (ho hne)).trans hheld.symm⟩
  rw [ht.parsedOf fun o ho => not_parsed_of_stepEvent srv hread ho,
    ht.receivedOf fun o ho => not_received_of_stepEvent srv hreceive ho]
  exact hcut

/-- The bytes held before a handler is called and after it was taken out. -/
theorem Inv.held_release {s : AsyncConnection} (h : Inv srv s) {i : ℕ} {y : Activity}
    (hi : s.world.outstanding[i]? = some y) :
    s.world.outstanding = [y] ∧ s.held = s.itsBuffer ++ y.unread ∧
      (s.release i).held = s.itsBuffer ∧ (s.release i).world.outstanding = [] := by
  have ho : s.world.outstanding = [y] := by
    rcases h.2 with ⟨ho, -⟩ | ⟨z, ho, -⟩
    · rw [ho] at hi
      simp at hi
    · rw [ho] at hi ⊢
      cases i with
      | zero => rw [Option.some.inj hi]
      | succ k => simp at hi
  have hrel := (h.released srv hi).1
  refine ⟨ho, ?_, ?_, ?_⟩
  · unfold held unread
    rw [ho, List.flatMap_singleton]
  · rw [hrel]
    exact List.append_nil _
  · rw [hrel]
    rfl

/-- The bytes of a message leave the buffer with it. -/
theorem taken_parseBuffer {a : Answers} {t : AsyncConnection}
    (hcut : Cut srv.spine.parseOneRequest (receivedOf t.world.trace) (parsedOf t.world.trace)
      t.itsBuffer) (hunread : t.unread = []) : Taken srv a (Tail.parseBuffer srv a t) := by
  have hheld : ∀ {A : Obs → Prop} {u v : AsyncConnection}, Stretch A u v → u.unread = [] →
      u.itsBuffer = v.held := by
    intro A u v h hu
    unfold held
    rw [h.buffer, h.unread, hu, List.append_nil]
  unfold Tail.parseBuffer
  cases hparse : srv.spine.parseOneRequest t.itsBuffer with
  | complete r n =>
    dsimp only
    have hs := stretch_handleParsedRequest srv a
      { t with itsRequest := r, itsBuffer := t.itsBuffer.drop n,
               itsReceivedBytes := (t.itsBuffer.drop n).length }
    refine ⟨t.itsBuffer.drop n, ?_, fun _ => hheld hs hunread⟩
    have hpeer : ∀ o, PeerEvent o → (∀ b, o ≠ .received b) ∧ ∀ r, o ≠ .parsed r := by
      rintro o rfl
      exact ⟨by simp, by simp⟩
    rw [hs.toTrail.receivedOf fun o ho => (hpeer o ho).1,
      hs.toTrail.parsedOf fun o ho => (hpeer o ho).2]
    show Cut _ (receivedOf (.parsed r :: t.world.trace)) (parsedOf (.parsed r :: t.world.trace)) _
    have hreceived : receivedOf (.parsed r :: t.world.trace) = receivedOf t.world.trace := by
      show receivedOf ([.parsed r] ++ t.world.trace) = _
      exact receivedOf_append (by simp)
    rw [parsedOf_parsed, hreceived]
    exact hcut.snoc hparse
  | failed => exact ⟨t.itsBuffer, hcut, fun _ => (hheld (stretch_stockResponse srv a _ t) hunread)⟩
  | incomplete =>
    have hs := stretch_handleIncompleteRequest srv a t
    refine ⟨t.itsBuffer, ?_, fun _ => hheld hs hunread⟩
    rw [hs.toTrail.receivedOf ?_, hs.toTrail.parsedOf ?_]
    · exact hcut
    · rintro o (⟨_, rfl⟩ | rfl) r
      · simp
      · simp
    · rintro o (⟨_, rfl⟩ | rfl) r
      · simp
      · simp

/-- A queued call of `handleRead` takes its bytes and at most one request. -/
theorem Reassembled.taken_runRead {s : AsyncConnection} {i : ℕ} {bytes : Bytes} {a : Answers}
    (hinv : Inv srv s) (h : Reassembled srv s)
    (hi : s.world.outstanding[i]? = some (.handleRead bytes)) :
    Taken srv a (Tail.handleRead srv a .success bytes (s.release i)) := by
  obtain ⟨ho, hs, -, -⟩ := hinv.held_release hi
  obtain ⟨rest, hcut, hrest⟩ := h
  obtain rfl : rest = s.itsBuffer ++ bytes := by
    refine (hrest ?_).trans hs
    rw [ho]
    simp
  obtain ⟨t, hf, hcase⟩ := hinv.runRead_cases hi a
  rw [← hf.receivedOf, ← hf.parsedOf] at hcut
  have hrefused : ∀ st, Taken srv a (Tail.sendStockReply srv a st t) := by
    -- the bytes are dropped with the connection
    intro st
    refine ⟨_, hcut, fun hne => absurd ?_ hne⟩
    exact (outstanding_sendStockReply srv hf.keepAlive a).trans hf.common.outstanding
  rcases hcase with ⟨-, hx⟩ | ⟨-, -, hx⟩ | ⟨-, -, -, hb, hx⟩
  · rw [hx]
    exact hrefused _
  · rw [hx]
    exact hrefused _
  · rw [hx]
    rw [← hb] at hcut
    exact taken_parseBuffer hcut hf.unread

/-- What is done without bytes keeps those that are held. -/
theorem Stretch.held {A : Obs → Prop} {s t : AsyncConnection} (h : Stretch A s t) :
    t.held = s.held := by
  unfold AsyncConnection.held
  rw [h.buffer, h.unread]

/-- **One step**: at most one message is cut off, and what is left is held. -/
theorem Reassembled.step {s s' : AsyncConnection} {e : Event}
    (hparse : Stable srv.spine.parseOneRequest) (hinv : Inv srv s) (h : Reassembled srv s)
    (hstep : step srv s e = some s') : Reassembled srv s' := by
  obtain ⟨x, hx, rfl⟩ := exists_outcome srv hstep
  -- a handler that brings no bytes was the only one, and held what is held behind it
  have hcalled : ∀ {i : ℕ} {y : Activity}, s.world.outstanding[i]? = some y → y.unread = [] →
      s.world.outstanding ≠ [] ∧ (s.release i).held = s.held := by
    intro i y hi hy
    obtain ⟨ho, hs, hr, -⟩ := hinv.held_release hi
    refine ⟨by rw [ho]; simp, ?_⟩
    rw [hr, hs, hy, List.append_nil]
  cases e with
  | handshake i ok =>
    simp only [Tail.step, AsyncConnection.step] at hx
    split at hx
    · rename_i hi
      obtain rfl := Option.some.inj hx
      obtain ⟨hne, hheld⟩ := hcalled hi rfl
      refine Taken.run (h.taken (e := .handshake i ok) ?_ (by simp) (by simp) ?_ fun _ => hne)
      · simp only [Tail.step, AsyncConnection.step, hi]
        rfl
      · show (handleHandshake ok (s.release i)).held = s.held
        rw [← hheld]
        unfold handleHandshake
        split
        · exact (Stretch.await (A := NoEvent) _ rfl).held
        · rfl
    · cases hx
  | receive i bytes =>
    simp only [Tail.step, AsyncConnection.step] at hx
    split at hx
    · rename_i hi
      split at hx
      · obtain rfl := Option.some.inj hx
        obtain ⟨ho, hs, hr, hnone⟩ := hinv.held_release hi
        obtain ⟨rest, hcut, hrest⟩ := h
        obtain rfl : rest = s.itsBuffer := by
          refine (hrest (by rw [ho]; simp)).trans (hs.trans (List.append_nil _))
        refine ⟨s.itsBuffer ++ bytes, ?_, fun _ => ?_⟩
        · show Cut _ (receivedOf (.received bytes :: s.world.trace)) _ _
          rw [receivedOf_received]
          show Cut _ _ (parsedOf ([.received bytes] ++ s.world.trace)) _
          rw [parsedOf_append (by simp)]
          exact hcut.append hparse bytes
        · show _ = s.itsBuffer ++
            ((s.release i).world.outstanding ++ [Activity.handleRead bytes]).flatMap Activity.unread
          rw [hnone]
          exact (congrArg _ (List.append_nil _)).symm
      · cases hx
    · cases hx
  | readFails i err a =>
    simp only [Tail.step] at hx
    split at hx
    · rename_i hi
      split at hx
      · rename_i herr
        obtain rfl := Option.some.inj hx
        obtain ⟨hne, hheld⟩ := hcalled hi rfl
        refine Taken.run (h.taken (e := .readFails i err a) ?_ (by simp) (by simp) ?_ fun _ => hne)
        · simp only [Tail.step, hi, if_pos herr]
        · rw [← hheld]
          unfold Tail.handleRead
          split
          · rfl
          · rfl
      · cases hx
    · cases hx
  | runRead i a =>
    simp only [Tail.step] at hx
    split at hx
    · rename_i bytes hi
      obtain rfl := Option.some.inj hx
      exact (h.taken_runRead hinv hi).run
    · cases hx
  | runTask i a =>
    have hx' := hx
    simp only [Tail.step] at hx'
    split at hx'
    · rename_i pool task hi
      obtain rfl := Option.some.inj hx'
      obtain ⟨hne, hheld⟩ := hcalled hi rfl
      refine Taken.run (h.taken hx (by simp) (by simp) ?_ fun _ => hne)
      rw [← hheld]
      cases task with
      | handleCompletedRead view =>
        exact (stretch_handleCompletedRead srv a (cancelTimer (s.release i))).held
      | getNextChunk => exact (stretch_getNextChunk srv a _).held
      | getNextChunkedChunk => exact (stretch_getNextChunkedChunk srv a _).held
    · cases hx'
  | writeSome i n a =>
    have hx' := hx
    simp only [Tail.step] at hx'
    split at hx'
    · rename_i handler buffer hi
      split at hx'
      · obtain rfl := Option.some.inj hx'
        obtain ⟨hne, hheld⟩ := hcalled hi rfl
        refine Taken.run (h.taken hx (by simp) (by simp) ?_ fun _ => hne)
        rw [← hheld]
        exact (stretch_runWriteHandler srv a handler _ n _).held
      · cases hx'
    · cases hx'
  | writeFails i a =>
    have hx' := hx
    simp only [Tail.step] at hx'
    split at hx'
    · rename_i handler buffer hi
      obtain rfl := Option.some.inj hx'
      obtain ⟨hne, hheld⟩ := hcalled hi rfl
      refine Taken.run (h.taken hx (by simp) (by simp) ?_ fun _ => hne)
      rw [← hheld]
      exact (stretch_runWriteHandler srv a handler _ 0 _).held
    · cases hx'
  | timerExpires =>
    have hx' := hx
    simp only [Tail.step, AsyncConnection.step] at hx'
    split at hx'
    · obtain rfl := Option.some.inj hx'
      exact Taken.run (h.taken hx (by simp) (by simp) rfl fun hne => hne)
    · cases hx'
  | runTimer generation a =>
    have hx' := hx
    simp only [Tail.step] at hx'
    split at hx'
    · rename_i w hw
      obtain rfl := Option.some.inj hx'
      obtain ⟨ho, hb, -⟩ := handleTimer_frame srv a
        (if w.status = .aborted then .operationAborted else .success) generation
        { s with world.waits := s.world.waits.erase w }
      refine Taken.run (h.taken hx (by simp) (by simp) ?_ fun hne => ?_)
      · rw [← held_run srv a]
        exact held_eq hb ho
      · rw [show (Event.runTimer generation a).answers = a from rfl, ho] at hne
        exact hne
    · cases hx'
  | requestShutdown =>
    have hx' := hx
    obtain rfl := Option.some.inj hx'
    exact Taken.run (h.taken hx (by simp) (by simp) rfl fun hne => hne)

variable (srv)

/-! ## Whole runs -/

theorem reassembled_start : Reassembled srv (start srv) := by
  refine ⟨[], ?_, fun _ => ?_⟩
  · rw [start_trace]
    exact Cut.nothing _
  · unfold start held unread
    dsimp only
    split
    · rfl
    · rfl

/-- **The requests of a stream.**  However the client's stream is cut into reads,
the requests that are parsed are the first messages of the stream; what has been
read is these messages one behind the other and, as long as the connection goes
on, the bytes it holds. -/
theorem requests_of_stream {s : AsyncConnection} {es : List Event} {stream : Bytes}
    (hparse : Stable srv.spine.parseOneRequest) (hrun : runFrom srv (start srv) es = some s)
    (hstream : es.flatMap Event.arrived <+: stream) :
    parsedOf s.world.trace <+: messages srv.spine.parseOneRequest stream ∧
      ∃ rest, Cut srv.spine.parseOneRequest (es.flatMap Event.arrived) (parsedOf s.world.trace) rest ∧
        (s.world.outstanding ≠ [] → rest = s.itsBuffer ++ s.unread) := by
  have hall : Inv srv s ∧ Reassembled srv s := by
    refine Transition.run_preserves (P := fun u => Inv srv u ∧ Reassembled srv u) ?_
      ⟨inv_start srv, reassembled_start srv⟩ hrun
    intro u e u' hu hstep
    exact ⟨inv_step srv hu.1 hstep, hu.2.step hparse hu.1 hstep⟩
  obtain ⟨rest, hcut, hheld⟩ := hall.2
  have hreceived : receivedOf s.world.trace = es.flatMap Event.arrived := by
    rw [receivedOf_run srv hrun, start_trace]
    rfl
  rw [hreceived] at hcut
  refine ⟨?_, rest, hcut, hheld⟩
  obtain ⟨later, rfl⟩ := hstream
  rw [(hcut.append hparse later).messages_eq hparse]
  exact List.prefix_append _ _

/-- Two requests in three reads; the second starts in the middle of a read. -/
def splitRun : List Event :=
  [.receive 0 "GET /a HTTP/1.1\r\nHo".toList, .runRead 0 MinimalSpine.answers,
    .receive 0 "st: h\r\n\r\nGET /x HTTP".toList, .runRead 0 MinimalSpine.answers,
    .runRead 0 MinimalSpine.answers,
    .receive 0 "/1.1\r\nHost: h\r\n\r\n".toList, .runRead 0 MinimalSpine.answers]

theorem requests_of_stream_split :
    ∃ s, runFrom MinimalSpine.server (start MinimalSpine.server) splitRun = some s ∧
      (parsedOf s.world.trace).length = 2 ∧
      parsedOf s.world.trace <+: messages MinimalSpine.server.spine.parseOneRequest
        ("GET /a HTTP/1.1\r\nHost: h\r\n\r\n" ++ "GET /x HTTP/1.1\r\nHost: h\r\n\r\n").toList := by
  obtain ⟨s, hs, hp⟩ := MinimalSpine.reached splitRun
    (fun s => (parsedOf s.world.trace).length == 2) (by decide +kernel)
  refine ⟨s, hs, by simpa using hp, ?_⟩
  exact (requests_of_stream MinimalSpine.server MinimalSpine.stable_parseBodyless hs
    (by decide +kernel)).1

/-! ## Messages and exchanges -/

/-- Each exchange before the one under way has one request. -/
theorem Inv.parsedOf_length {s : AsyncConnection} (h : Inv srv s) :
    (parsedOf s.world.trace).length
      = (past s.world.trace).length + s.exchange.requests.length := by
  have hpast : ∀ xs : List Exchange, (∀ x ∈ xs, x.requests.length = 1) →
      (xs.flatMap Exchange.requests).length = xs.length := by
    intro xs
    induction xs with
    | nil => exact fun _ => rfl
    | cons x xs ih =>
      intro hxs
      obtain ⟨hx, hxs⟩ := List.forall_mem_cons.mp hxs
      rw [List.flatMap_cons, List.length_append, hx, ih hxs, List.length_cons, Nat.add_comm]
  rw [← flatMap_requests, exchanges, List.flatMap_append, List.flatMap_singleton,
    List.length_append, hpast, List.length_reverse]
  · rfl
  · intro x hx
    exact (h.1.past x (List.mem_reverse.mp hx)).request

variable {srv}

/-- A connection that reads holds the bytes behind the messages so far. -/
theorem Reassembled.behind_held {s : AsyncConnection} (hinv : Inv srv s) (h : Reassembled srv s)
    (hr : Reading srv s.bare) (ho : s.world.outstanding ≠ []) :
    s.exchange.requests = [] ∧
      behind srv.spine.parseOneRequest (past s.world.trace).length (receivedOf s.world.trace)
        = some s.held := by
  have hreq : s.exchange.requests = [] := hr.requests
  obtain ⟨rest, hcut, hrest⟩ := h
  refine ⟨hreq, ?_⟩
  have hlen := hinv.parsedOf_length srv
  rw [hreq] at hlen
  have hb := hcut.behind_eq
  rw [hlen] at hb
  exact hb.trans (congrArg some (hrest ho))

/-- A queued call of `handleRead` has the bytes behind the messages so far in
front of it. -/
theorem Reassembled.behind_eq {s : AsyncConnection} (hinv : Inv srv s) (h : Reassembled srv s)
    {i : ℕ} {bytes : Bytes} (hi : s.world.outstanding[i]? = some (.handleRead bytes)) :
    s.exchange.requests = [] ∧
      behind srv.spine.parseOneRequest (past s.world.trace).length (receivedOf s.world.trace)
        = some (s.itsBuffer ++ bytes) := by
  obtain ⟨ho, hs, -, -⟩ := hinv.held_release hi
  obtain ⟨-, -, hph⟩ := hinv.released srv hi
  rw [show s.itsBuffer ++ bytes = s.held from hs.symm]
  exact h.behind_held hinv (show Reading srv s.bare from hph) (by rw [ho]; simp)

variable (srv)

/-- Only good messages of the stream were parsed. -/
def ParsedOnly (Good : Bytes → Prop) (stream : Bytes) (k : ℕ) (x : Exchange) : Prop :=
  x.requests ≠ [] → ∀ m, MessageAt srv.spine.parseOneRequest stream k m → Good m

variable {srv}

theorem parsedOnly_of_trail {Good : Bytes → Prop} {stream : Bytes} {A : Obs → Prop}
    {s t : AsyncConnection} (h : EachExchange (ParsedOnly srv Good stream) s.world.trace)
    (ht : Trail A s t) (hA : ∀ o, A o → ∀ r, o ≠ .parsed r) :
    EachExchange (ParsedOnly srv Good stream) t.world.trace := by
  obtain ⟨new, hnew, hev⟩ := ht.events
  rw [hnew]
  refine h.append (fun k hne => absurd rfl hne) ?_
  intro o ho _ k x hx
  have := hA o (hev o ho).1
  cases o with
  | parsed r => exact absurd rfl (this r)
  | _ => exact hx

/-- **One step** parses good messages only, if every message it parses is good. -/
theorem parsedOnly_step {Good : Bytes → Prop} {stream : Bytes}
    (hparse : Stable srv.spine.parseOneRequest) {s s' : AsyncConnection} {e : Event}
    (hinv : Inv srv s) (hre : Reassembled srv s)
    (hstream : receivedOf s.world.trace <+: stream)
    (h : EachExchange (ParsedOnly srv Good stream) s.world.trace)
    (hgood : ∀ i a bytes m r, e = .runRead i a →
      s.world.outstanding[i]? = some (.handleRead bytes) → s.world.shutdownRequested = false →
      ¬ TooLarge srv (s.itsBuffer ++ bytes) →
      srv.spine.parseOneRequest (s.itsBuffer ++ bytes) = .complete r m.length →
      m <+: s.itsBuffer ++ bytes → Good m)
    (hstep : step srv s e = some s') :
    EachExchange (ParsedOnly srv Good stream) s'.world.trace := by
  obtain ⟨x, hx, rfl⟩ := exists_outcome srv hstep
  refine parsedOnly_of_trail ?_ (trail_run srv e.answers x) fun o ho =>
    not_parsed_of_lastEvent srv ho
  by_cases he : ∃ i a, e = .runRead i a
  · obtain ⟨i, a, rfl⟩ := he
    simp only [Tail.step] at hx
    split at hx
    · rename_i bytes hi
      obtain rfl := Option.some.inj hx
      obtain ⟨hreq, hbehind⟩ := hre.behind_eq hinv hi
      obtain ⟨t, hf, hcase⟩ := hinv.runRead_cases hi a
      have ht : EachExchange (ParsedOnly srv Good stream) t.world.trace := by
        refine parsedOnly_of_trail h hf.trail ?_
        rintro o ⟨_, _, rfl⟩ r
        simp
      rcases hcase with ⟨-, hx⟩ | ⟨-, -, hx⟩ | ⟨hshut, hsize, hr, hb, hx⟩
      · rw [hx]
        exact ht
      · rw [hx]
        exact ht
      · rw [hx]
        unfold Tail.parseBuffer
        rw [hb]
        cases hp : srv.spine.parseOneRequest (s.itsBuffer ++ bytes) with
        | complete r n =>
          refine parsedOnly_of_trail ?_ (stretch_handleParsedRequest srv a _).toTrail
            fun o (ho : o = .peerUnknown) => by simp [ho]
          refine EachExchange.cons (t := t.world.trace) ht (by simp) ?_
          intro _ m hm
          rw [hf.past] at hm
          obtain ⟨later, rfl⟩ := hstream
          obtain ⟨-, hfound, -⟩ := hm.parse_eq hparse hbehind
          obtain ⟨rfl, hpre⟩ := hfound _ _ hp
          exact hgood i a bytes m r rfl hi hshut hsize hp hpre
        | failed => exact ht
        | incomplete =>
          refine parsedOnly_of_trail ht (stretch_handleIncompleteRequest srv a t).toTrail ?_
          rintro o (⟨_, rfl⟩ | rfl) r
          · simp
          · simp
    · cases hx
  · exact parsedOnly_of_trail h (trail_step srv hx)
      fun o ho => not_parsed_of_stepEvent srv (fun i a h => he ⟨i, a, h⟩) ho

/-- What the steps of a run keep that read a stream. -/
theorem stream_run {Q : AsyncConnection → Prop} {G : AsyncConnection → Event → Prop}
    {stream : Bytes} (hparse : Stable srv.spine.parseOneRequest) (h0 : Q (start srv))
    (hQ : ∀ s e s', Inv srv s → Reassembled srv s → receivedOf s'.world.trace <+: stream →
      receivedOf s.world.trace <+: stream → Q s → G s e → step srv s e = some s' → Q s')
    {s : AsyncConnection} {es : List Event} (hG : Transition.Along (step srv) G (start srv) es)
    (hrun : runFrom srv (start srv) es = some s) (hstream : es.flatMap Event.arrived <+: stream) :
    Inv srv s ∧ Reassembled srv s ∧ receivedOf s.world.trace <+: stream ∧ Q s := by
  have hall : Inv srv s ∧ Reassembled srv s ∧ (receivedOf s.world.trace <+: stream → Q s) := by
    refine Transition.run_preserves_of
      (P := fun u => Inv srv u ∧ Reassembled srv u ∧ (receivedOf u.world.trace <+: stream → Q u))
      ?_ hG ⟨inv_start srv, reassembled_start srv, fun _ => h0⟩ hrun
    rintro u e u' ⟨hinv, hre, hq⟩ hg hstep
    refine ⟨inv_step srv hinv hstep, hre.step hparse hinv hstep, fun hu' => ?_⟩
    have hu : receivedOf u.world.trace <+: stream := by
      refine List.IsPrefix.trans ?_ hu'
      rw [@receivedOf_run srv u u' [e] (Transition.run_cons.mpr ⟨u', hstep, rfl⟩)]
      exact List.prefix_append _ _
    exact hQ u e u' hinv hre hu' hu (hq hu) hg hstep
  have hreceived : receivedOf s.world.trace <+: stream := by
    rw [receivedOf_run srv hrun, start_trace]
    exact hstream
  exact ⟨hall.1, hall.2.1, hreceived, hall.2.2 hreceived⟩

end AsyncConnection

end SmartMet
