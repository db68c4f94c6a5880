/-
# Announced and actual persistence

If the server reads on behind a response, the response was one behind which a
client expects the connection to persist; and behind such a response the server
ends the connection for the causes of `EndCause` only, or because a streamer has
thrown (`Thrown`).
-/
import SmartMetServer.ClientRule
import SmartMetServer.Reassembly

namespace SmartMet

open Response

namespace Exchange

/-- A stream has ended, and its chunks do not add up to the length its header section
names. -/
def WrongLength (x : Exchange) : Prop :=
  x.path = some .stream ∧ x.ended ≠ none ∧ ∀ p ∈ x.heads.head?,
    ∃ n, p.2.1.getHeader "Content-Length".toList = some (toDecimal n) ∧ n ≠ x.chunks.flatten.length

/-- The status of a chunked stream is an error. -/
def StreamFailed (x : Exchange) : Prop := x.path = some .chunked ∧ x.ended = some .exitError

end Exchange

/-- A handler leaves a response of version 1.1 if it is chunked. -/
def Answers.Versioned (a : Answers) : Prop :=
  ∀ success r disconnected, a.handler = .returned success r disconnected → r.Versioned

/-- The activity is the write of the last chunk. -/
def Activity.Finalizes : Activity → Prop
  | .write .finalizeChunkedReply _ => True
  | _ => False

/-- Whether a write is the last depends on its handler. -/
theorem finalizes_write {handler : WriteHandler} {b : Bytes}
    (h : (Activity.write handler b).Finalizes) (b' : Bytes) :
    (Activity.write handler b').Finalizes := by
  cases handler with
  | finalizeChunkedReply => trivial
  | _ => exact absurd h id

namespace AsyncConnection

variable (srv : Server)

/-- The causes for which a connection ends that a client expects to persist: a
wrong stream length, a failed stream, a getter that the executor has not taken, a write
error, a timeout or a shutdown. -/
inductive EndCause (s : AsyncConnection) : Prop where
  | wrongLength (h : s.exchange.WrongLength)
  | streamFailed (h : s.exchange.StreamFailed)
  | refused (h : s.exchange.refused = true)
  | writeFailed (h : s.exchange.failed = true)
  | timedOut (h : s.hasTimedOut = true)
  | shutdown (h : s.world.shutdownRequested = true)

/-- A cause depends on the exchange under way and on two flags. -/
theorem EndCause.same {s t : AsyncConnection} (h : s.EndCause) (hx : t.exchange = s.exchange)
    (ht : t.hasTimedOut = s.hasTimedOut)
    (hs : t.world.shutdownRequested = s.world.shutdownRequested) : t.EndCause := by
  cases h with
  | wrongLength h => exact .wrongLength (by rwa [hx])
  | streamFailed h => exact .streamFailed (by rwa [hx])
  | refused h => exact .refused (by rwa [hx])
  | writeFailed h => exact .writeFailed (by rwa [hx])
  | timedOut h => exact .timedOut (by rwa [ht])
  | shutdown h => exact .shutdown (by rwa [hs])

/-! ## Streamers that throw -/

/-- `getContent` of the response `r` throws in a getter. -/
def GetterThrows (a : Answers) (r : Response) : Prop :=
  getStreamingStatus a r = .ok ∧ nextContent a r = none

/-- Whether a getter throws depends on the content alone. -/
theorem getterThrows_congr {a : Answers} {r r' : Response} (h : r'.content = r.content) :
    GetterThrows a r' ↔ GetterThrows a r := by
  unfold GetterThrows
  rw [(getters_congr a h).1, (getters_congr a h).2]

/-- It throws in the first getter of the handler's response `r`, which is asked behind the
header section, or at once for a gateway. -/
def StartThrows (a : Answers) (path : ReplyPath) (r : Response) : Prop :=
  path = .gateway ∧ GetterThrows a r ∨
    (path = .stream ∨ path = .chunked) ∧ GetterThrows a (renderHeaders srv r).1

/-- The step runs a getter in which `getContent` throws. -/
def Throws (s : AsyncConnection) : Event → Prop
  | .runTask i a =>
    (∃ pool view r, s.world.outstanding[i]? = some (.task pool (.handleCompletedRead view)) ∧
      a.handler = .returned true r false ∧ StartThrows srv a (replyPath s.itsHeadRequest r) r) ∨
    (∃ pool task, s.world.outstanding[i]? = some (.task pool task) ∧
      (task = .getNextChunk ∨ task = .getNextChunkedChunk) ∧ GetterThrows a s.itsResponse)
  | _ => False

/-- Such a step runs a task in which the streamer throws. -/
theorem Throws.content {s : AsyncConnection} {e : Event} (h : Throws srv s e) :
    ∃ i a, e = .runTask i a ∧ a.content = none := by
  have hgetter : ∀ {a : Answers} {r : Response}, GetterThrows a r → a.content = none := by
    intro a r hg
    obtain ⟨-, hc⟩ := hg
    unfold nextContent at hc
    split at hc
    · exact hc
    · cases hc
  cases e with
  | runTask i a =>
    refine ⟨i, a, rfl, ?_⟩
    rcases h with ⟨-, -, r, -, -, ⟨-, hg⟩ | ⟨-, hg⟩⟩ | ⟨-, -, -, -, hg⟩
    · exact hgetter hg
    · exact hgetter hg
    · exact hgetter hg
  | _ => exact absurd h id

/-- In a step of the run a getter has thrown. -/
def Thrown (es : List Event) : Prop :=
  ¬ Transition.Along (step srv) (fun s e => ¬ Throws srv s e) (start srv) es

/-! ## Events that do not turn an exchange -/

/-- The events that begin or end a reply path or an exchange. -/
def Turning : Obs → Prop
  | .rearmed => True
  | .started _ => True
  | .streamEnded _ _ => True
  | _ => False

/-- Events that turn nothing leave the path and the end of the stream. -/
theorem current_of_not_turning {new t : List Obs} (h : ∀ o ∈ new, ¬ Turning o) :
    past (new ++ t) = past t ∧ (current (new ++ t)).path = (current t).path ∧
      (current (new ++ t)).ended = (current t).ended ∧
      ((current t).failed = true → (current (new ++ t)).failed = true) := by
  induction new with
  | nil => exact ⟨rfl, rfl, rfl, id⟩
  | cons o new ih =>
    obtain ⟨ho, hnew⟩ := List.forall_mem_cons.mp h
    obtain ⟨h1, h2, h3, h4⟩ := ih hnew
    have hre : o ≠ .rearmed := by
      rintro rfl
      exact ho trivial
    rw [List.cons_append, past_cons hre, current_cons hre]
    cases o with
    | rearmed => exact absurd rfl hre
    | started p => exact absurd trivial ho
    | streamEnded st own => exact absurd trivial ho
    | writeError m => exact ⟨h1, h2, h3, fun _ => rfl⟩
    | _ => exact ⟨h1, h2, h3, h4⟩

/-- Events that build no header section. -/
theorem heads_of_not_rendered {new t : List Obs}
    (h : ∀ o ∈ new, o ≠ .rearmed ∧ ∀ m r head, o ≠ .rendered m r head) :
    (current (new ++ t)).heads = (current t).heads := by
  induction new with
  | nil => rfl
  | cons o new ih =>
    obtain ⟨⟨hre, hren⟩, hnew⟩ := List.forall_mem_cons.mp h
    rw [List.cons_append, current_cons hre, ← ih hnew]
    cases o with
    | rendered m r head => exact absurd rfl (hren m r head)
    | _ => rfl

/-! ## What holds of every state -/

/-- The connection persists exactly if the responses so far say so. -/
def Kept (s : AsyncConnection) : Prop :=
  ∀ p ∈ s.exchange.heads, (p.2.1.ClientPersists ↔ s.itsKeepAlive = true)

/-- What holds of every state, if `C` is one more cause for the end. -/
structure Agreed (C : Prop) (s : AsyncConnection) : Prop where
  past : ∀ x ∈ past s.world.trace, ∀ p ∈ x.heads, p.2.1.ClientPersists
  socket : s.hasTimedOut = false → s.world.outstanding ≠ [] → s.world.socket ≠ .closed
  reply : ∀ y, s.world.outstanding = [y] → s.exchange.path ≠ none →
    s.hasTimedOut = false ∧ s.Kept ∧ (y.Finalizes ∨ s.exchange.ended = none)
  ended : s.world.outstanding = [] → s.exchange.path ≠ some .gateway →
    ∀ p ∈ s.exchange.heads.head?, p.2.1.ClientPersists → s.EndCause ∨ C

/-! ## The functions that end an exchange -/

variable {C : Prop}

/-- A function of a reply is called. -/
structure Replying (s : AsyncConnection) : Prop where
  past : ∀ x ∈ SmartMet.past s.world.trace, ∀ p ∈ x.heads, p.2.1.ClientPersists
  idle : s.world.outstanding = []
  timedOut : s.hasTimedOut = false
  socket : s.world.socket ≠ .closed

/-- The responses so far say what was settled. -/
structure Promised (s : AsyncConnection) : Prop extends Replying s where
  kept : s.Kept

/-- A function returns and the connection is over. -/
theorem Replying.leaves {s t : AsyncConnection} (h : Replying s)
    (hp : SmartMet.past t.world.trace = SmartMet.past s.world.trace)
    (ho : t.world.outstanding = [])
    (hc : t.exchange.path ≠ some .gateway →
      ∀ p ∈ t.exchange.heads.head?, p.2.1.ClientPersists → t.EndCause ∨ C) : Agreed C t := by
  refine ⟨?_, fun _ hne => absurd ho hne, fun y hy => ?_, fun _ => hc⟩
  · rw [hp]
    exact h.past
  · rw [ho] at hy
    cases hy

/-- What was promised is kept at the end of a response. -/
theorem Promised.finishResponse {s : AsyncConnection} (h : Promised s) :
    Agreed C (finishResponse srv s) := by
  unfold AsyncConnection.finishResponse
  split
  · rename_i hreuse
    have hkeep : s.itsKeepAlive = true := by
      unfold mayReuse at hreuse
      simp only [Bool.and_eq_true] at hreuse
      exact hreuse.1.1
    have hpast : ∀ x ∈ SmartMet.past (armForNextRequest srv (resetRequestState s)).world.trace,
        ∀ p ∈ x.heads, p.2.1.ClientPersists := by
      intro x hx
      rcases List.mem_cons.mp hx with rfl | hx
      · exact fun p hp => (h.kept p hp).mpr hkeep
      · exact h.past x hx
    unfold resumeReading
    split
    · refine ⟨hpast, fun _ _ => h.socket, fun y _ hne => absurd rfl hne, fun ho => ?_⟩
      exact absurd ho (List.append_ne_nil_of_right_ne_nil _ (by simp))
    · refine ⟨hpast, fun _ _ => h.socket, fun y _ hne => absurd rfl hne, fun ho => ?_⟩
      exact absurd ho (List.append_ne_nil_of_right_ne_nil _ (by simp))
  · rename_i hreuse
    refine h.leaves rfl h.idle fun _ p hp hpersists => ?_
    have hkeep := (h.kept p (List.mem_of_mem_head? hp)).mp hpersists
    refine Or.inl (.shutdown ?_)
    unfold mayReuse at hreuse
    rw [hkeep, h.timedOut] at hreuse
    simpa using hreuse

/-- A reply of the server's own that announces what was settled. -/
theorem Promised.ownReply {s : AsyncConnection} (h : Promised s) (hheads : s.exchange.heads = [])
    (hk : s.itsResponse.ClientPersists ↔ s.itsKeepAlive = true) (a : Answers) (m : Message) :
    Agreed C (sendSimpleReply srv a m s) := by
  cases hst : s.itsResponse.status with
  | none =>
    have heq : sendSimpleReply srv a m s = s := by
      unfold sendSimpleReply headersToString
      rw [hst]
      rfl
    rw [heq]
    refine h.leaves rfl h.idle fun _ p hp => ?_
    rw [hheads] at hp
    cases hp
  | some st =>
    obtain ⟨w, e, k, hin, hkk, hfail, heq⟩ :=
      sendSimpleReply_cases srv a (m := m) (s := s) (by rw [hst]; rfl)
    obtain ⟨extra, f, hx, -⟩ := hin.current
    have hheads' : (current w.trace).heads
        = [(m, s.itsResponse, srv.spine.headerSection s.itsResponse)] := by
      rw [hx]
      show s.exchange.heads ++ _ = _
      rw [hheads]
      rfl
    have hsocket : w.socket ≠ .closed := by
      rcases hin.socket with hs | ⟨-, hs⟩
      · rw [hs]
        exact h.socket
      · rw [hs]
        simp
    have hpast : ∀ x ∈ SmartMet.past w.trace, ∀ p ∈ x.heads, p.2.1.ClientPersists := by
      rw [hin.past]
      exact h.past
    rw [heq]
    split
    · rename_i hk'
      refine Promised.finishResponse srv ⟨⟨hpast, hin.outstanding.trans h.idle, h.timedOut,
        hsocket⟩, ?_⟩
      intro p hp
      have hp' : p ∈ (current w.trace).heads := hp
      rw [hheads'] at hp'
      obtain rfl := List.mem_singleton.mp hp'
      exact ⟨fun _ => hk', fun _ => hk.mpr (hkk hk')⟩
    · rename_i hk'
      refine h.leaves hin.past (hin.outstanding.trans h.idle) fun _ p hp hpersists => ?_
      have hp' : p ∈ (current w.trace).heads.head? := hp
      rw [hheads'] at hp'
      obtain rfl := Option.some.inj hp'
      exact Or.inl (.writeFailed ((hfail (hk.mp hpersists)).resolve_left hk'))

/-- A stock reply announces what was settled. -/
theorem Replying.sendStockReply (hsp : srv.spine.Versions) {s : AsyncConnection} (h : Replying s)
    (hheads : s.exchange.heads = []) (hv : s.itsKeepAlive = true → s.itsResponse.Versioned)
    (a : Answers) (st : Status) : Agreed C (sendStockReply srv a st s) := by
  have hstock : Promised (stockResponse srv a st s) := by
    refine ⟨⟨h.past, h.idle, h.timedOut, h.socket⟩, ?_⟩
    intro p hp
    have hp' : p ∈ s.exchange.heads := hp
    rw [hheads] at hp'
    cases hp'
  exact hstock.ownReply srv hheads (clientPersists_stockResponse srv a hsp hv) a _

/-- A failed delivery ends with a stock reply and the end of the connection. -/
theorem Replying.refuse {s : AsyncConnection} (h : Replying s) (hk : s.itsKeepAlive = false)
    (hc : s.exchange.refused = true ∨ s.exchange.failed = true) (a : Answers) (st : Status)
    (books : Books) : Agreed C (books.keep (AsyncConnection.sendStockReply srv a st s)) := by
  obtain ⟨r, e, w, heq, -, -, hin⟩ := sendStockReply_closing srv a st hk
  obtain ⟨extra, f, hx, hs⟩ := hin.current
  have hl := logOnly_keep books (AsyncConnection.sendStockReply srv a st s)
  have hexchange : (books.keep (AsyncConnection.sendStockReply srv a st s)).exchange
      = s.exchange.reply (.stock st) r (srv.spine.headerSection r) extra f := by
    rw [hl.exchange, heq]
    exact hx
  refine h.leaves ?_ ?_ fun _ _ _ _ => ?_
  · rw [hl.past, heq]
    exact hin.past
  · rw [hl.outstanding, heq]
    exact hin.outstanding.trans h.idle
  · rcases hc with hrefused | hfailed
    · refine Or.inl (.refused ?_)
      rw [hexchange]
      exact hrefused
    · refine Or.inl (.writeFailed ?_)
      rw [hexchange]
      show f = true
      by_contra hf
      have hnot := (hs.exact (by simpa using hf)).2
      have hcurrent : (current s.world.trace).failed = true := hfailed
      rw [hcurrent] at hnot
      cases hnot

/-! ## The reply paths -/

/-- What the flush of the pending header section leaves alone. -/
structure Flushed (s t : AsyncConnection) (fails : Bool) : Prop where
  past : SmartMet.past t.world.trace = SmartMet.past s.world.trace
  outstanding : t.world.outstanding = s.world.outstanding
  timedOut : t.hasTimedOut = s.hasTimedOut
  keepAlive : t.itsKeepAlive = s.itsKeepAlive
  lengths : t.itsTotalStreamedBytes = s.itsTotalStreamedBytes ∧
    t.itsDeclaredContentLength = s.itsDeclaredContentLength
  socket : s.world.socket ≠ .closed → t.world.socket ≠ .closed
  exchange : ∃ wire f, t.exchange = { s.exchange with wire := wire, failed := f } ∧
    (fails = true → f = true)

/-- The pending header section is flushed, or its write fails. -/
theorem flushed_flushPendingHeaders (a : Answers) (s : AsyncConnection) :
    Flushed s (flushPendingHeaders a s) (flushFails a s) := by
  unfold flushPendingHeaders
  split
  · rename_i hempty
    refine ⟨rfl, rfl, rfl, rfl, ⟨rfl, rfl⟩, id, s.exchange.wire, s.exchange.failed, rfl, ?_⟩
    intro hf
    unfold flushFails World.writeFails at hf
    rw [hempty] at hf
    cases hf
  · have hd := s.world.write_delivers .handler s.itsPendingHeaders a.flushWrite
    obtain ⟨extra, f, hx, -⟩ := hd.current
    refine ⟨hd.past, hd.outstanding, rfl, rfl, ⟨rfl, rfl⟩, ?_, _, f, hx, ?_⟩
    · intro hs
      show (s.world.write .handler s.itsPendingHeaders a.flushWrite).socket ≠ .closed
      rcases hd.socket with h | ⟨-, h⟩
      · rw [h]
        exact hs
      · rw [h]
        simp
    · intro hf
      have hfailed := World.failed_of_writeFails (m := .handler) hf
      rw [hx] at hfailed
      exact hfailed

/-- The calls of the books. -/
theorem Replying.logOnly {s t : AsyncConnection} (h : Replying s) (hl : LogOnly s t) :
    Replying t := by
  have htime : t.hasTimedOut = s.hasTimedOut := by
    obtain ⟨r, b, w, rfl⟩ := hl.members
    rfl
  refine ⟨?_, hl.outstanding.trans h.idle, htime.trans h.timedOut, ?_⟩
  · rw [hl.past]
    exact h.past
  · rw [hl.socket]
    exact h.socket

/-- The promise survives the books -/
theorem Promised.logOnly {s t : AsyncConnection} (h : Promised s) (hl : LogOnly s t) :
    Promised t := by
  have hkeep : t.itsKeepAlive = s.itsKeepAlive := by
    obtain ⟨r, b, w, rfl⟩ := hl.members
    rfl
  refine ⟨h.toReplying.logOnly hl, ?_⟩
  unfold Kept
  rw [hl.exchange, hkeep]
  exact h.kept

/-- and a flush. -/
theorem Promised.flush {s t : AsyncConnection} {fails : Bool} (h : Promised s)
    (hf : Flushed s t fails) : Promised t := by
  obtain ⟨wire, f, hx, -⟩ := hf.exchange
  refine ⟨⟨?_, hf.outstanding.trans h.idle, hf.timedOut.trans h.timedOut, hf.socket h.socket⟩, ?_⟩
  · rw [hf.past]
    exact h.past
  · unfold Kept
    rw [hx, hf.keepAlive]
    exact h.kept

/-- A function returns and leaves a task or a write. -/
theorem Replying.awaits {s t : AsyncConnection} (h : Replying s) {y : Activity}
    (ho : t.world.outstanding = s.world.outstanding ++ [y])
    (hp : SmartMet.past t.world.trace = SmartMet.past s.world.trace)
    (ht : t.hasTimedOut = s.hasTimedOut) (hs : t.world.socket = s.world.socket)
    (hk : t.Kept) (he : y.Finalizes ∨ t.exchange.ended = none) : Agreed C t := by
  have ho' : t.world.outstanding = [y] := by
    rw [ho, h.idle]
    rfl
  refine ⟨?_, fun _ _ => ?_, fun z hz _ => ?_, fun hnone => ?_⟩
  · rw [hp]
    exact h.past
  · rw [hs]
    exact h.socket
  · obtain rfl := List.singleton_inj.mp (ho'.symm.trans hz)
    exact ⟨ht.trans h.timedOut, hk, he⟩
  · rw [ho'] at hnone
    cases hnone

/-- The response of a streamer is sent. -/
structure Streamed (s : AsyncConnection) : Prop extends Promised s where
  ended : s.exchange.ended = none

namespace Streamed

variable {s : AsyncConnection}

/-- A chunk is counted, -/
theorem takeChunk (h : Streamed s) (c : Bytes) : Streamed (takeChunk c s) :=
  ⟨⟨⟨h.past, h.idle, h.timedOut, h.socket⟩, h.kept⟩, h.ended⟩

/-- behind its header section. -/
theorem flushPendingHeaders (h : Streamed s) (a : Answers) :
    Streamed (flushPendingHeaders a s) := by
  have hf := flushed_flushPendingHeaders a s
  obtain ⟨wire, f, hx, -⟩ := hf.exchange
  refine ⟨h.toPromised.flush hf, ?_⟩
  rw [hx]
  exact h.ended

/-- The pending header section cannot be written. -/
theorem unflushed (h : Streamed s) {a : Answers} (hfails : flushFails a s = true) :
    Agreed C (AsyncConnection.flushPendingHeaders a s) := by
  have hf := flushed_flushPendingHeaders a s
  obtain ⟨wire, f, hx, hfail⟩ := hf.exchange
  refine (h.flushPendingHeaders a).toReplying.leaves rfl (hf.outstanding.trans h.idle) ?_
  refine fun _ _ _ _ => Or.inl (.writeFailed ?_)
  rw [hx]
  exact hfail hfails

/-- The next getter is scheduled. -/
theorem scheduleGetter (h : Streamed s) {task : Task} {a : Answers} :
    Agreed C ((Tail.scheduleGetter srv a task s).run srv a) := by
  unfold Tail.scheduleGetter
  split
  · exact h.toReplying.awaits (y := .task (chunkPool s) task) rfl rfl rfl rfl h.kept
      (Or.inr h.ended)
  · let u : AsyncConnection := { s.emit .refused with itsKeepAlive := false }
    have hu : Replying u := ⟨h.past, h.idle, h.timedOut, h.socket⟩
    exact hu.refuse srv rfl (Or.inl rfl) a _ .none

/-- A chunk is sent. -/
theorem sendChunk (h : Streamed s) {handler : WriteHandler} (wire : Bytes) :
    Agreed C (sendChunk handler wire s) :=
  h.toReplying.awaits (y := .write handler (s.itsPendingHeaders ++ wire)) rfl rfl rfl rfl h.kept
    (Or.inr h.ended)

/-- The streamer is asked for a chunk. -/
theorem chunkAsked (h : Streamed s) {a : Answers} {handler : WriteHandler} {task : Task}
    (wire : Bytes → Bytes) (hthrow : nextContent a s.itsResponse = none → C) :
    Agreed C (Outcome.run srv a (match nextContent a s.itsResponse with
      | none => .stop s
      | some content =>
        if !content.isEmpty then
          .stop (AsyncConnection.sendChunk handler (wire content)
            (AsyncConnection.takeChunk content s))
        else if flushFails a (AsyncConnection.takeChunk content s) then
          .stop (AsyncConnection.flushPendingHeaders a (AsyncConnection.takeChunk content s))
        else Tail.scheduleGetter srv a task
          (AsyncConnection.flushPendingHeaders a (AsyncConnection.takeChunk content s)))) := by
  cases hc : nextContent a s.itsResponse with
  | none => exact h.toReplying.leaves rfl h.idle fun _ _ _ _ => Or.inr (hthrow hc)
  | some content =>
    dsimp only
    split
    · exact (h.takeChunk content).sendChunk _
    split
    · rename_i hfails
      exact (h.takeChunk content).unflushed hfails
    · exact ((h.takeChunk content).flushPendingHeaders a).scheduleGetter srv

end Streamed

/-- The announced length and the length of the chunks so far. -/
def Measured (s : AsyncConnection) : Prop :=
  s.itsTotalStreamedBytes = s.exchange.chunks.flatten.length ∧
    ∀ p ∈ s.exchange.heads.head?, p.2.1.getHeader "Content-Length".toList
      = some (toDecimal s.itsDeclaredContentLength)

/-- A stream that has ended: a wrong length ends the connection. -/
theorem Promised.finishStream {s : AsyncConnection} (h : Promised s) {a : Answers}
    {st : StreamerStatus}
    (hended : s.exchange.ended ≠ none)
    (hlength : s.exchange.path ≠ some .gateway → s.exchange.path = some .stream ∧ s.Measured) :
    Agreed C ((Tail.finishStream st s).run srv a) := by
  have hl : LogOnly s (notifyBackendFinished st (finalizeStreamLogging s)) :=
    (logOnly_finalizeStreamLogging s).trans (logOnly_notifyBackendFinished st _)
  have ht := h.logOnly hl
  have htotal : (notifyBackendFinished st (finalizeStreamLogging s)).itsTotalStreamedBytes
      = s.itsTotalStreamedBytes := by
    obtain ⟨r, b, w, hm⟩ := hl.members
    rw [hm]
  have hdeclared : (notifyBackendFinished st (finalizeStreamLogging s)).itsDeclaredContentLength
      = s.itsDeclaredContentLength := by
    obtain ⟨r, b, w, hm⟩ := hl.members
    rw [hm]
  have hx := hl.exchange
  unfold Tail.finishStream
  generalize notifyBackendFinished st (finalizeStreamLogging s) = t at ht htotal hdeclared hx
  let u : AsyncConnection := { t with
    itsKeepAlive := t.itsKeepAlive && t.itsTotalStreamedBytes == t.itsDeclaredContentLength }
  show Agreed C (AsyncConnection.finishResponse srv u)
  have hu : Replying u := ⟨ht.past, ht.idle, ht.timedOut, ht.socket⟩
  by_cases heq : t.itsTotalStreamedBytes = t.itsDeclaredContentLength
  · refine Promised.finishResponse srv ⟨hu, ?_⟩
    intro p hp
    show _ ↔ (t.itsKeepAlive && t.itsTotalStreamedBytes == t.itsDeclaredContentLength) = true
    rw [heq, beq_self_eq_true, Bool.and_true]
    exact ht.kept p hp
  · have hk : u.itsKeepAlive = false := by
      show (t.itsKeepAlive && t.itsTotalStreamedBytes == t.itsDeclaredContentLength) = false
      rw [beq_false_of_ne heq, Bool.and_false]
    have hquit : AsyncConnection.finishResponse srv u = u := by
      unfold AsyncConnection.finishResponse mayReuse
      rw [hk]
      rfl
    rw [hquit]
    refine hu.leaves rfl hu.idle fun hg p hp _ => Or.inl (.wrongLength ?_)
    have hux : u.exchange = s.exchange := hx
    rw [hux] at hg ⊢
    obtain ⟨hpath, htot, hcl⟩ := hlength hg
    refine ⟨hpath, hended, fun q hq => ⟨s.itsDeclaredContentLength, hcl q hq, ?_⟩⟩
    rw [← htot, ← htotal, ← hdeclared]
    exact fun he => heq he.symm

/-- A stream of announced length, or one of a gateway. -/
theorem Streamed.getNextChunk {s : AsyncConnection} (h : Streamed s) {a : Answers}
    (hthrow : GetterThrows a s.itsResponse → C)
    (hlength : s.exchange.path ≠ some .gateway → s.exchange.path = some .stream ∧ s.Measured) :
    Agreed C ((Tail.getNextChunk srv a s).run srv a) := by
  have hend : ∀ (st : StreamerStatus) (own : Bool), Agreed C (Outcome.run srv a
      (if flushFails a (s.emit (.streamEnded st own)) then
        .stop (AsyncConnection.flushPendingHeaders a (s.emit (.streamEnded st own)))
      else Tail.finishStream st
        (AsyncConnection.flushPendingHeaders a (s.emit (.streamEnded st own))))) := by
    intro st own
    have hpromised : Promised (s.emit (.streamEnded st own)) :=
      ⟨⟨h.past, h.idle, h.timedOut, h.socket⟩, h.kept⟩
    have hf := flushed_flushPendingHeaders a (s.emit (.streamEnded st own))
    have hflushed := hpromised.flush hf
    generalize AsyncConnection.flushPendingHeaders a (s.emit (.streamEnded st own)) = u
      at hf hflushed
    obtain ⟨wire, f, hx, hfails⟩ := hf.exchange
    split
    · rename_i hfail
      show Agreed C u
      refine hflushed.toReplying.leaves rfl hflushed.idle fun _ _ _ _ => ?_
      refine Or.inl (.writeFailed ?_)
      rw [hx]
      exact hfails hfail
    · refine hflushed.finishStream srv (by rw [hx]; exact Option.some_ne_none st) ?_
      unfold Measured
      rw [hx, hf.lengths.1, hf.lengths.2]
      exact hlength
  unfold Tail.getNextChunk
  cases hst : getStreamingStatus a s.itsResponse with
  | ok => exact h.chunkAsked srv (fun content => content) fun hc => hthrow ⟨hst, hc⟩
  | exitOk => exact hend .exitOk _
  | exitError => exact hend .exitError _

/-- A chunked stream. -/
theorem Streamed.getNextChunkedChunk {s : AsyncConnection} (h : Streamed s) {a : Answers}
    (hthrow : GetterThrows a s.itsResponse → C) (hpath : s.exchange.path = some .chunked) :
    Agreed C ((Tail.getNextChunkedChunk srv a s).run srv a) := by
  let own := s.itsResponse.hasStreamContent
  have hnotified : ∀ st : StreamerStatus,
      Promised (notifyBackendFinished st (s.emit (.streamEnded st own))) ∧
        (notifyBackendFinished st (s.emit (.streamEnded st own))).exchange.path = some .chunked ∧
        (notifyBackendFinished st (s.emit (.streamEnded st own))).exchange.ended = some st := by
    intro st
    have hl := logOnly_notifyBackendFinished st (s.emit (.streamEnded st own))
    have hpromised : Promised (s.emit (.streamEnded st own)) :=
      ⟨⟨h.past, h.idle, h.timedOut, h.socket⟩, h.kept⟩
    refine ⟨hpromised.logOnly hl, ?_, ?_⟩
    · rw [hl.exchange]
      exact hpath
    · rw [hl.exchange]
      rfl
  unfold Tail.getNextChunkedChunk
  cases hst : getStreamingStatus a s.itsResponse with
  | ok =>
    exact h.chunkAsked srv (fun content => convertToHex content.length ++ crlf ++ content ++ crlf)
      fun hc => hthrow ⟨hst, hc⟩
  | exitOk =>
    obtain ⟨hp, -, -⟩ := hnotified .exitOk
    exact hp.toReplying.awaits (y := .write .finalizeChunkedReply _) rfl rfl rfl rfl hp.kept
      (Or.inl trivial)
  | exitError =>
    obtain ⟨hp, hchunked, hended⟩ := hnotified .exitError
    show Agreed C (abandonChunked a (notifyBackendFinished .exitError
      (s.emit (.streamEnded .exitError own))))
    generalize notifyBackendFinished .exitError (s.emit (.streamEnded .exitError own)) = u
      at hp hchunked hended
    have hf := flushed_flushPendingHeaders a u
    obtain ⟨wire, f, hx, -⟩ := hf.exchange
    have hl := logOnly_finalizeStreamLogging (AsyncConnection.flushPendingHeaders a u)
    have habandon : (abandonChunked a u).exchange = { u.exchange with wire := wire, failed := f } :=
      hl.exchange.trans hx
    refine hp.toReplying.leaves (t := abandonChunked a u) (hl.past.trans hf.past)
      (hl.outstanding.trans (hf.outstanding.trans hp.idle)) fun _ _ _ _ => ?_
    refine Or.inl (.streamFailed ⟨?_, ?_⟩)
    · rw [habandon]
      exact hchunked
    · rw [habandon]
      exact hended

/-! ## The call of the handler -/

/-- The state in which a header section is built. -/
structure Heading (s : AsyncConnection) : Prop extends Replying s where
  heads : s.exchange.heads = []
  ended : s.exchange.ended = none
  announced : s.itsResponse.ClientPersists ↔ s.itsKeepAlive = true

/-- The header section of a buffered reply announces what will be, -/
theorem Heading.startRegularReply {s : AsyncConnection} (h : Heading s) :
    Agreed C (startRegularReply srv s) := by
  let r := frameResponse srv s.itsHeadRequest
    (echoETag srv s.itsRequest (encodeResponse srv s.itsRequest s.itsResponse))
  have hr : (renderHeaders srv r).1.announcement = s.itsResponse.announcement :=
    (announcement_renderHeaders srv r).trans ((announcement_frameResponse srv _ _).trans
      ((announcement_echoETag srv _ _).trans (announcement_encodeResponse srv _ _)))
  refine h.toReplying.awaits (t := AsyncConnection.startRegularReply srv s)
    (y := .write .writeRegularReply _) rfl rfl rfl rfl ?_ (Or.inr h.ended)
  intro p hp
  have hp' : p ∈ s.exchange.heads ++ [(.handler, (renderHeaders srv r).1, (renderHeaders srv r).2)] :=
    hp
  rw [h.heads] at hp'
  obtain rfl := List.mem_singleton.mp hp'
  exact (clientPersists_congr hr).trans h.announced

/-- The pending header section. -/
theorem Heading.preparePendingHeaders {s : AsyncConnection} (h : Heading s) :
    Promised (preparePendingHeaders srv s) ∧
      (preparePendingHeaders srv s).exchange.heads
        = [(.handler, (renderHeaders srv s.itsResponse).1, (renderHeaders srv s.itsResponse).2)] := by
  have hheads : (AsyncConnection.preparePendingHeaders srv s).exchange.heads
      = [(.handler, (renderHeaders srv s.itsResponse).1, (renderHeaders srv s.itsResponse).2)] := by
    show s.exchange.heads ++ _ = _
    rw [h.heads]
    rfl
  refine ⟨⟨⟨h.past, h.idle, h.timedOut, h.socket⟩, ?_⟩, hheads⟩
  intro p hp
  rw [hheads] at hp
  obtain rfl := List.mem_singleton.mp hp
  exact (clientPersists_congr (announcement_renderHeaders srv s.itsResponse)).trans h.announced

/-- so does that of a stream of announced length -/
theorem Heading.startStreamReply {s : AsyncConnection} (h : Heading s) {a : Answers}
    (hthrow : GetterThrows a (renderHeaders srv s.itsResponse).1 → C)
    (hpath : s.exchange.path = some .stream) (hchunks : s.exchange.chunks = [])
    (htotal : s.itsTotalStreamedBytes = 0) :
    Agreed C ((Tail.startStreamReply srv a s).run srv a) := by
  let r := s.itsResponse.setHeader "Content-Length".toList
    (toDecimal s.itsResponse.getContentLength)
  let u : AsyncConnection := { s with
    itsDeclaredContentLength := s.itsResponse.getContentLength, itsResponse := r }
  have hr : r.announcement = s.itsResponse.announcement := announcement_setHeader _ _ (by decide)
  have hu : Heading u := ⟨⟨h.past, h.idle, h.timedOut, h.socket⟩, h.heads, h.ended,
    (clientPersists_congr hr).trans h.announced⟩
  obtain ⟨hp, hheads⟩ := hu.preparePendingHeaders srv
  have hsame : (renderHeaders srv r).1.content = (renderHeaders srv s.itsResponse).1.content :=
    content_renderHeaders srv rfl rfl
  refine Streamed.getNextChunk srv (s := AsyncConnection.preparePendingHeaders srv u)
    ⟨hp, h.ended⟩ (hthrow ∘ (getterThrows_congr hsame).mp) fun _ => ⟨hpath, ?_, ?_⟩
  · show s.itsTotalStreamedBytes = s.exchange.chunks.flatten.length
    rw [htotal, hchunks]
    rfl
  · intro p hp
    rw [hheads] at hp
    obtain rfl := Option.some.inj hp
    exact (renderHeaders_getHeader srv r _).trans (HeaderMap.get_set_self _ _ _)

/-- and that of a chunked one. -/
theorem Heading.startChunkedReply {s : AsyncConnection} (h : Heading s) {a : Answers}
    (hthrow : GetterThrows a (renderHeaders srv s.itsResponse).1 → C)
    (hpath : s.exchange.path = some .chunked) :
    Agreed C ((Tail.startChunkedReply srv a s).run srv a) := by
  let r := (s.itsResponse.setHeader "Transfer-Encoding".toList "chunked".toList).removeHeader
    "Content-Length".toList
  let u : AsyncConnection := { s with itsResponse := r }
  have hr : r.announcement = s.itsResponse.announcement :=
    (announcement_removeHeader _ (by decide)).trans (announcement_setHeader _ _ (by decide))
  have hu : Heading u := ⟨⟨h.past, h.idle, h.timedOut, h.socket⟩, h.heads, h.ended,
    (clientPersists_congr hr).trans h.announced⟩
  obtain ⟨hp, -⟩ := hu.preparePendingHeaders srv
  have hsame : (renderHeaders srv r).1.content = (renderHeaders srv s.itsResponse).1.content :=
    content_renderHeaders srv rfl rfl
  exact Streamed.getNextChunkedChunk srv (s := AsyncConnection.preparePendingHeaders srv u)
    ⟨hp, h.ended⟩ (hthrow ∘ (getterThrows_congr hsame).mp) hpath

/-- The response of the handler is sent. -/
theorem agreed_startReply {a : Answers} {s : AsyncConnection} (h : Replying s)
    (hheads : s.exchange.heads = []) (hended : s.exchange.ended = none)
    (hchunks : s.exchange.chunks = []) (htotal : s.itsTotalStreamedBytes = 0)
    (hv : s.itsResponse.Versioned)
    (hthrow : StartThrows srv a (replyPath s.itsHeadRequest s.itsResponse) s.itsResponse → C) :
    Agreed C ((Tail.startReply srv a s).run srv a) := by
  have hstart : ∀ p, Heading (setServerHeaders srv a (s.emit (.started p))) := fun p =>
    ⟨⟨h.past, h.idle, h.timedOut, h.socket⟩, hheads, hended,
      clientPersists_setServerHeaders srv a fun _ => hv⟩
  have hregular : Agreed C (startRegularReply srv (setServerHeaders srv a
      (s.emit (.started .regular)))) := (hstart .regular).startRegularReply srv
  -- the section of a stream is asked behind the fields of the server
  have hrendered : ∀ p, (p = .stream ∨ p = .chunked) →
      replyPath s.itsHeadRequest s.itsResponse = p → GetterThrows a
        (renderHeaders srv (setServerHeaders srv a (s.emit (.started p))).itsResponse).1 → C := by
    intro p hp hpath hg
    have hbody := sameBody_setServerHeaders srv a (s.emit (.started p))
    refine hthrow (Or.inr ⟨by rw [hpath]; exact hp, ?_⟩)
    exact (getterThrows_congr (content_renderHeaders srv hbody.status hbody.content)).mp hg
  unfold Tail.startReply
  by_cases hhead : s.itsHeadRequest = true
  · rw [if_pos hhead]
    exact hregular
  rw [if_neg hhead]
  by_cases hcontent : s.itsResponse.hasStreamContent = true
  swap
  · rw [if_neg hcontent]
    exact hregular
  rw [if_pos hcontent]
  by_cases hgateway : s.itsResponse.isGatewayResponse = true
  · rw [if_pos hgateway]
    refine Streamed.getNextChunk srv (s := { s.emit (.started .gateway) with itsKeepAlive := false })
      ⟨⟨⟨h.past, h.idle, h.timedOut, h.socket⟩, ?_⟩, hended⟩ ?_ fun hg => absurd rfl hg
    · intro p hp
      have hp' : p ∈ s.exchange.heads := hp
      rw [hheads] at hp'
      cases hp'
    · exact fun hg => hthrow (Or.inl ⟨by simp [replyPath, hhead, hcontent, hgateway], hg⟩)
  rw [if_neg hgateway]
  by_cases hchunked : s.itsResponse.chunked = true
  · rw [if_pos hchunked]
    exact (hstart .chunked).startChunkedReply srv
      (hrendered .chunked (Or.inr rfl) (by simp [replyPath, hhead, hcontent, hgateway, hchunked]))
      rfl
  · rw [if_neg hchunked]
    exact (hstart .stream).startStreamReply srv
      (hrendered .stream (Or.inl rfl) (by simp [replyPath, hhead, hcontent, hgateway, hchunked]))
      rfl hchunks htotal

/-- The call of the handler, and the start of its reply. -/
theorem agreed_callHandler (hsp : srv.spine.Versions) {a : Answers} (ha : a.Versioned)
    {s : AsyncConnection} (h : Replying s) (hheads : s.exchange.heads = [])
    (hended : s.exchange.ended = none) (hchunks : s.exchange.chunks = [])
    (htotal : s.itsTotalStreamedBytes = 0)
    (hthrow : ∀ r, a.handler = .returned true r false →
      StartThrows srv a (replyPath s.itsHeadRequest r) r → C) :
    Agreed C ((Tail.callHandler srv a s).run srv a) := by
  have hleaves : ∀ u : AsyncConnection, Replying u → u.exchange.heads = [] → Agreed C u := by
    intro u hu hnone
    refine hu.leaves rfl hu.idle fun _ p hp => ?_
    rw [hnone] at hp
    cases hp
  have hcalled : Replying (Tail.called s) := ⟨h.past, h.idle, h.timedOut, h.socket⟩
  have hu : ∀ response, Replying (Tail.handled response (Tail.called s)) :=
    fun _ => ⟨hcalled.past, hcalled.idle, hcalled.timedOut, hcalled.socket⟩
  have hheads' : ∀ response, (Tail.handled response (Tail.called s)).exchange.heads = [] := by
    intro response
    rw [Tail.exchange_handled]
    exact hheads
  rw [Tail.callHandler_eq]
  rcases Tail.returnFromHandler_cases srv a (Tail.called s) with
    ⟨-, heq⟩ | ⟨response, ⟨-, heq⟩ | ⟨hr, heq⟩ | ⟨hr, heq⟩⟩
  · rw [heq]
    exact hleaves _ hcalled hheads
  · rw [heq]
    exact hleaves _ (hu response) (hheads' response)
  · rw [heq]
    exact (hu response).sendStockReply srv hsp (hheads' response) (fun _ => ha _ _ _ hr) a _
  · rw [heq]
    refine agreed_startReply srv (hu response) (hheads' response) ?_ ?_ htotal (ha _ _ _ hr)
      (hthrow response hr)
    · rw [Tail.exchange_handled]
      exact hended
    · rw [Tail.exchange_handled]
      exact hchunks

/-! ## A completed write -/

/-- A completed write, when what follows keeps the promise. -/
theorem Promised.continueWrite {s : AsyncConnection} (h : Promised s) {a : Answers}
    {handler : WriteHandler} {e : ErrorCode} {n : ℕ} {next : AsyncConnection → Outcome}
    {books : Books}
    (hended : (∀ b, (Activity.write handler b).Finalizes) ∨ s.exchange.ended = none)
    (hnext : ∀ t, Promised t → t.exchange = s.exchange → Agreed C ((next t).run srv a))
    (hfail : e ≠ .success → s.exchange.failed = true) :
    Agreed C ((Tail.continueWrite srv a handler e n next books s).run srv a) := by
  unfold Tail.continueWrite
  dsimp only
  split
  · split
    · exact h.toReplying.awaits (t := asyncWriteSome handler _ _) (y := .write handler _) rfl rfl rfl
        rfl h.kept (hended.imp_left fun hf => hf _)
    · exact hnext _ ⟨⟨h.past, h.idle, h.timedOut, h.socket⟩, h.kept⟩ rfl
  · rename_i he
    let u : AsyncConnection := { s with itsFinalStatus := e, itsKeepAlive := false }
    have hu : Replying u := ⟨h.past, h.idle, h.timedOut, h.socket⟩
    exact hu.refuse srv rfl (Or.inr (hfail he)) a .serviceUnavailable books

/-- The handlers of the completed writes. -/
theorem Promised.runWriteHandler {s : AsyncConnection} (h : Promised s) {a : Answers}
    {handler : WriteHandler} {e : ErrorCode} {n : ℕ}
    (hended : (∀ b, (Activity.write handler b).Finalizes) ∨ s.exchange.ended = none)
    (hfail : e ≠ .success → s.exchange.failed = true) :
    Agreed C ((Tail.runWriteHandler srv a handler e n s).run srv a) := by
  have hscheduled : ∀ task, handler = .writeStreamReply ∨ handler = .writeChunkedReply →
      ∀ t, Promised t → t.exchange = s.exchange →
        Agreed C ((Tail.scheduleGetter srv a task t).run srv a) := by
    intro task hh t ht hx
    refine Streamed.scheduleGetter srv ⟨ht, ?_⟩
    rw [hx]
    refine hended.resolve_left fun hf => ?_
    rcases hh with rfl | rfl
    · exact hf []
    · exact hf []
  cases handler with
  | writeRegularReply =>
    show Agreed C ((Tail.continueWrite srv a .writeRegularReply e n
      (fun s => .finish (notifyBackendFinished .exitOk s)) .none s).run srv a)
    exact h.continueWrite srv hended (fun t ht _ =>
      (ht.logOnly (logOnly_notifyBackendFinished .exitOk t)).finishResponse srv) hfail
  | writeStreamReply => exact h.continueWrite srv hended (hscheduled _ (Or.inl rfl)) hfail
  | writeChunkedReply => exact h.continueWrite srv hended (hscheduled _ (Or.inr rfl)) hfail
  | finalizeChunkedReply =>
    show Agreed C ((Tail.continueWrite srv a .finalizeChunkedReply e n
      (fun s => .finish (finalizeStreamLogging s)) .log s).run srv a)
    exact h.continueWrite srv hended (fun t ht _ =>
      (ht.logOnly (logOnly_finalizeStreamLogging t)).finishResponse srv) hfail

/-! ## Reading a request -/

/-- Behind a timeout nothing is promised. -/
theorem Agreed.timedOut {s t : AsyncConnection} (h : Agreed C s)
    (hp : SmartMet.past t.world.trace = SmartMet.past s.world.trace) (ht : t.hasTimedOut = true)
    (hpath : t.exchange.path = none) : Agreed C t := by
  refine ⟨?_, fun hf => absurd (ht.symm.trans hf) (by simp), fun _ _ hne => absurd hpath hne,
    fun _ _ _ _ _ => Or.inl (.timedOut ht)⟩
  rw [hp]
  exact h.past

/-- How a function called in the state `s` ends that begins no delivery: a reply
announces what was settled. -/
def OwnEnd (s : AsyncConnection) : Outcome → Prop
  | .stop t => (s.world.socket ≠ .closed → t.world.outstanding ≠ [] → t.world.socket ≠ .closed) ∧
      t.hasTimedOut = s.hasTimedOut
  | .reply _ t books => books = .none ∧ t.world.outstanding = s.world.outstanding ∧
      t.world.socket = s.world.socket ∧ t.hasTimedOut = s.hasTimedOut ∧
      (t.itsResponse.ClientPersists ↔ t.itsKeepAlive = true)
  | .finish _ => False

/-- What was done before takes no promise back. -/
theorem OwnEnd.behind {s t : AsyncConnection} {x : Outcome} (h : OwnEnd t x)
    (ho : t.world.outstanding = s.world.outstanding) (hs : t.world.socket = s.world.socket)
    (ht : t.hasTimedOut = s.hasTimedOut) : OwnEnd s x := by
  cases x with
  | stop u => exact ⟨fun hc => h.1 (by rwa [hs]), h.2.trans ht⟩
  | reply m u books =>
    obtain ⟨h1, h2, h3, h4, h5⟩ := h
    exact ⟨h1, h2.trans ho, h3.trans hs, h4.trans ht, h5⟩
  | finish u => exact h

/-- A complete request, -/
theorem ownEnd_handleParsedRequest (hsp : srv.spine.Versions) (a : Answers) {s : AsyncConnection}
    (hv : s.world.socket ≠ .closed → s.itsResponse.Versioned) :
    OwnEnd s (Tail.handleParsedRequest srv a s) := by
  unfold Tail.handleParsedRequest
  dsimp only
  cases hip : resolveClientIP srv a (s.emit (.parsed s.itsRequest)) with
  | none => exact ⟨fun hs _ => hs, rfl⟩
  | some u =>
    obtain ⟨hsocket, ip, rfl⟩ := resolveClientIP_eq srv a hip
    have hv' := hv hsocket
    have hstock : ∀ st (t : AsyncConnection), t.itsResponse = s.itsResponse →
        t.world.outstanding = s.world.outstanding → t.world.socket = s.world.socket →
        t.hasTimedOut = s.hasTimedOut → OwnEnd s (Tail.sendStockReply srv a st t) := by
      intro st t hr ho hs ht
      refine ⟨rfl, ho, hs, ht, clientPersists_stockResponse srv a hsp fun _ => ?_⟩
      rw [hr]
      exact hv'
    dsimp only
    split
    · exact hstock _ _ rfl rfl rfl rfl
    unfold Tail.routeRequest
    split
    · exact ⟨rfl, rfl, rfl, rfl, clientPersists_setServerHeaders srv a fun _ => hsp.options⟩
    split
    · exact hstock _ _ rfl rfl rfl rfl
    dsimp only
    split
    · exact hstock _ _ rfl rfl rfl rfl
    unfold Tail.scheduleRequest
    split
    · split
      · exact ⟨fun hs _ => hs, rfl⟩
      · exact hstock _ _ rfl rfl rfl rfl
    · dsimp only
      split
      · exact ⟨fun hs _ => hs, rfl⟩
      · exact hstock _ _ rfl rfl rfl rfl

/-- The replies of a server that has settled on the end of the connection. -/
theorem ownEnd_sendStockReply (hsp : srv.spine.Versions) (a : Answers) (st : Status)
    {s : AsyncConnection} (hk : s.itsKeepAlive = false) :
    OwnEnd s (Tail.sendStockReply srv a st s) :=
  ⟨rfl, rfl, rfl, rfl, clientPersists_stockResponse srv a hsp fun h => absurd (hk.symm.trans h)
    (by simp)⟩

/-- and an incomplete one. -/
theorem ownEnd_handleIncompleteRequest (hsp : srv.spine.Versions) (a : Answers)
    (s : AsyncConnection) : OwnEnd s (Tail.handleIncompleteRequest srv a s) := by
  have hclosing : ∀ st (t : AsyncConnection), t.world = s.world →
      t.hasTimedOut = s.hasTimedOut →
      OwnEnd s (Tail.sendStockReply srv a st { t with itsKeepAlive := false }) := by
    intro st t hw ht
    refine (ownEnd_sendStockReply srv hsp a st (s := { t with itsKeepAlive := false }) rfl).behind
      ?_ ?_ ht
    · exact congrArg World.outstanding hw
    · exact congrArg World.socket hw
  unfold Tail.handleIncompleteRequest
  split
  · exact hclosing _ s rfl rfl
  unfold Tail.handleExpectContinue
  split
  · exact ⟨fun hs _ => hs, rfl⟩
  dsimp only
  split
  · exact ⟨fun hs _ => hs, rfl⟩
  split
  · exact ⟨fun hs _ => hs, rfl⟩
  split
  · exact ⟨fun hs _ => hs, rfl⟩
  have hwrite : s.world.socket ≠ .closed →
      (s.world.write .interim "HTTP/1.1 100 Continue\r\n\r\n".toList a.interimWrite).socket
        ≠ .closed := by
    intro hs
    rcases (s.world.write_delivers .interim _ a.interimWrite).socket with h | ⟨-, h⟩
    · rw [h]
      exact hs
    · rw [h]
      simp
  split
  · split
    · exact ⟨fun hs _ => hwrite hs, rfl⟩
    · exact ⟨fun hs _ => hwrite hs, rfl⟩
  · exact hclosing _ { s with itsExpectHandled := true } rfl rfl

/-! ## A step -/

/-- A step that begins no delivery. -/
theorem Agreed.own {A : Obs → Prop} {s : AsyncConnection} {x : Outcome} {a : Answers}
    (h : Agreed C s) (hp : s.exchange.path = none)
    (hlive : s.hasTimedOut = false → s.world.socket ≠ .closed ∧ s.exchange.heads = [])
    (ht : Trail A s x.state) (hA : ∀ o, A o → ¬ Turning o ∧ ∀ m r head, o ≠ .rendered m r head)
    (hx : OwnEnd s.bare x) : Agreed C (x.run srv a) := by
  obtain ⟨new, hnew, hev⟩ := ht.events
  obtain ⟨hpast, hpath, -, -⟩ :=
    current_of_not_turning (t := s.world.trace) fun o ho => (hA o (hev o ho).1).1
  have hheads : (current (new ++ s.world.trace)).heads = (current s.world.trace).heads := by
    refine heads_of_not_rendered fun o ho => ⟨?_, (hA o (hev o ho).1).2⟩
    rintro rfl
    exact (hA _ (hev _ ho).1).1 trivial
  rw [← hnew] at hpast hpath hheads
  cases x with
  | stop t =>
    have hpath' : t.exchange.path = none := hpath.trans hp
    by_cases htime : s.hasTimedOut = true
    · exact h.timedOut hpast (hx.2.trans htime) hpath'
    · obtain ⟨hs, hnone⟩ := hlive (by simpa using htime)
      refine ⟨?_, fun _ hne => hx.1 hs hne, fun _ _ hne => absurd hpath' hne, fun _ _ p hp' => ?_⟩
      · show ∀ x ∈ SmartMet.past t.world.trace, _
        rw [show SmartMet.past t.world.trace = _ from hpast]
        exact h.past
      · have hnone' : t.exchange.heads = [] := hheads.trans hnone
        have hp'' : p ∈ t.exchange.heads.head? := hp'
        rw [hnone'] at hp''
        cases hp''
  | reply m t books =>
    obtain ⟨rfl, ho, hs, htimed, hk⟩ := hx
    have hpast' : SmartMet.past t.world.trace = SmartMet.past s.world.trace := hpast
    have hpath' : t.exchange.path = none := hpath.trans hp
    have hheads' : t.exchange.heads = s.exchange.heads := hheads
    show Agreed C (sendSimpleReply srv a m t)
    by_cases htime : s.hasTimedOut = true
    · -- what is still called says nothing to the client
      have htime' : t.hasTimedOut = true := htimed.trans htime
      cases hst : t.itsResponse.status with
      | none =>
        have heq : sendSimpleReply srv a m t = t := by
          unfold sendSimpleReply headersToString
          rw [hst]
          rfl
        rw [heq]
        exact h.timedOut hpast' htime' hpath'
      | some st =>
        obtain ⟨w, e, k, hin, -, -, heq⟩ :=
          sendSimpleReply_cases srv a (m := m) (s := t) (by rw [hst]; rfl)
        obtain ⟨extra, f, hcur, -⟩ := hin.current
        have hpathw : (current w.trace).path = none := by
          rw [hcur]
          exact hpath'
        rw [heq]
        split
        · have hquit : finishResponse srv (t.replied w e k) = t.replied w e k := by
            unfold finishResponse mayReuse
            rw [show (t.replied w e k).hasTimedOut = true from htime']
            simp
          rw [hquit]
          exact h.timedOut (hin.past.trans hpast') htime' hpathw
        · exact h.timedOut (hin.past.trans hpast') htime' hpathw
    · obtain ⟨hsocket, hnone⟩ := hlive (by simpa using htime)
      have hpromised : Promised t := by
        refine ⟨⟨?_, ho, htimed.trans (Bool.not_eq_true _ ▸ htime), ?_⟩, ?_⟩
        · rw [hpast']
          exact h.past
        · rw [hs]
          exact hsocket
        · intro p hp'
          rw [hheads', hnone] at hp'
          cases hp'
      exact hpromised.ownReply srv (hheads'.trans hnone) hk a m
  | finish t => exact absurd hx id

/-- Early events turn nothing, and render no header section. -/
theorem not_turning_of_earlyEvent {o : Obs} (h : EarlyEvent o) :
    ¬ Turning o ∧ ∀ m r head, o ≠ .rendered m r head := by
  rcases h with rfl | rfl | ⟨b, rfl⟩ | ⟨g, n, rfl⟩ | ⟨r, rfl⟩ | rfl | ⟨b, rfl⟩ | rfl
  all_goals exact ⟨id, by simp⟩

variable {srv}

/-- A connection that reads has answered nothing, unless it has timed out. -/
theorem Agreed.unanswered {s : AsyncConnection} (h : Agreed C s) {y : Activity}
    (ho : s.world.outstanding = [y]) (hw : Waiting srv s.bare) :
    s.hasTimedOut = false → s.world.socket ≠ .closed ∧ s.exchange.heads = [] := by
  intro ht
  have hs := h.socket ht (by rw [ho]; simp)
  exact ⟨hs, (hw.live hs).1⟩

/-- A reply path goes on where the outstanding activity left it. -/
theorem Agreed.released {s : AsyncConnection} (h : Agreed C s) (hinv : Inv srv s) {i : ℕ}
    {y : Activity} (hi : s.world.outstanding[i]? = some y) (hp : s.exchange.path ≠ none) :
    Promised (s.release i) ∧ (y.Finalizes ∨ s.exchange.ended = none) := by
  obtain ⟨ho, -, -, hnone⟩ := hinv.held_release hi
  obtain ⟨ht, hk, he⟩ := h.reply y ho hp
  exact ⟨⟨⟨h.past, hnone, ht, h.socket ht (by rw [ho]; simp)⟩, hk⟩, he⟩

/-- **One step.** -/
theorem Agreed.step (hsp : srv.spine.Versions) {s s' : AsyncConnection} {e : Event}
    (ha : e.answers.Versioned) (hthrow : Throws srv s e → C) (hinv : Inv srv s) (h : Agreed C s)
    (hstep : step srv s e = some s') : Agreed C s' := by
  obtain ⟨x, hx, rfl⟩ := exists_outcome srv hstep
  have htrail := trail_step srv hx
  -- in front of the last call only tasks and completed writes turn anything
  have hearly : (∀ i a, e ≠ .runTask i a) → (∀ i n a, e ≠ .writeSome i n a) →
      (∀ i a, e ≠ .writeFails i a) → ∀ o, StepEvent srv e o →
        ¬ Turning o ∧ ∀ m r head, o ≠ .rendered m r head := fun h1 h2 h3 o ho =>
    not_turning_of_earlyEvent (earlyEvent_of_stepEvent srv h1 h2 h3 ho)
  cases e with
  | handshake i ok =>
    simp only [Tail.step, AsyncConnection.step] at hx
    split at hx
    · rename_i hi
      obtain rfl := Option.some.inj hx
      obtain ⟨hrel, -, hph⟩ := hinv.released srv hi
      have hr : Reading srv s.bare := hph
      obtain ⟨ho, -, -, -⟩ := hinv.held_release hi
      refine h.own srv (x := .stop (handleHandshake ok (s.release i))) hr.direct.path
        (h.unanswered ho hr.toWaiting) htrail (hearly (by simp) (by simp) (by simp)) ?_
      rw [hrel]
      unfold handleHandshake
      split
      · exact ⟨fun hs _ => hs, rfl⟩
      · exact ⟨fun _ hne => absurd rfl hne, rfl⟩
    · cases hx
  | receive i bytes =>
    simp only [Tail.step, AsyncConnection.step] at hx
    split at hx
    · rename_i hi
      split at hx
      · obtain rfl := Option.some.inj hx
        obtain ⟨-, -, hph⟩ := hinv.released srv hi
        have hr : Reading srv s.bare := hph
        obtain ⟨ho, -, -, -⟩ := hinv.held_release hi
        exact h.own srv hr.direct.path (h.unanswered ho hr.toWaiting) htrail
          (hearly (by simp) (by simp) (by simp)) ⟨fun hs _ => hs, rfl⟩
      · cases hx
    · cases hx
  | readFails i err a =>
    simp only [Tail.step] at hx
    split at hx
    · rename_i hi
      split at hx
      · rename_i herr
        obtain rfl := Option.some.inj hx
        obtain ⟨hrel, -, hph⟩ := hinv.released srv hi
        have hr : Reading srv s.bare := hph
        obtain ⟨ho, -, -, -⟩ := hinv.held_release hi
        refine h.own srv hr.direct.path (h.unanswered ho hr.toWaiting) htrail
          (hearly (by simp) (by simp) (by simp)) ?_
        rw [hrel]
        unfold Tail.handleRead
        split
        · exact ownEnd_sendStockReply srv hsp a _ hr.keepAlive
        · exact ⟨fun hs _ => hs, rfl⟩
      · cases hx
    · cases hx
  | runRead i a =>
    simp only [Tail.step] at hx
    split at hx
    · rename_i bytes hi
      obtain rfl := Option.some.inj hx
      obtain ⟨-, -, hph⟩ := hinv.released srv hi
      have hr : Reading srv s.bare := hph
      obtain ⟨ho, -, -, -⟩ := hinv.held_release hi
      refine h.own srv hr.direct.path (h.unanswered ho hr.toWaiting) htrail
        (hearly (by simp) (by simp) (by simp)) ?_
      obtain ⟨t, hf, hcase⟩ := hinv.runRead_cases hi a
      have hbehind : ∀ {y : Outcome}, OwnEnd t y → OwnEnd s.bare y := fun hy =>
        hy.behind hf.common.outstanding hf.socket hf.timedOut
      -- a shutdown, too many bytes, or bytes that are looked at
      rcases hcase with ⟨-, hx⟩ | ⟨-, -, hx⟩ | ⟨-, -, hread, -, hx⟩
      · rw [hx]
        exact hbehind (ownEnd_sendStockReply srv hsp a _ hf.keepAlive)
      · rw [hx]
        exact hbehind (ownEnd_sendStockReply srv hsp a _ hf.keepAlive)
      · rw [hx]
        refine hbehind ?_
        unfold Tail.parseBuffer
        split
        · refine (ownEnd_handleParsedRequest srv hsp a ?_).behind rfl rfl rfl
          intro hs
          have hblank : t.itsResponse = {} := (hread.blank hs).response
          rw [show Response.Versioned _ = t.itsResponse.Versioned from rfl, hblank]
          exact versioned_empty
        · exact ownEnd_sendStockReply srv hsp a _ hread.keepAlive
        · exact ownEnd_handleIncompleteRequest srv hsp a t
    · cases hx
  | runTask i a =>
    simp only [Tail.step] at hx
    split at hx
    · rename_i pool task hi
      obtain rfl := Option.some.inj hx
      obtain ⟨hrel, hc, hph⟩ := hinv.released srv hi
      obtain ⟨ho, -, -, -⟩ := hinv.held_release hi
      cases task with
      -- the handler is called on an exchange in which nothing was announced yet
      | handleCompletedRead view =>
        have hq : Queued srv s.bare := hph
        have hlive := h.unanswered ho hq.toWaiting
        have hquiet : Agreed C (cancelTimer (s.release i)) := by
          rw [hrel]
          refine ⟨h.past, fun _ hne => absurd rfl hne, fun _ hy => ?_, fun _ _ p hp _ => ?_⟩
          · exact absurd hy.symm (List.cons_ne_nil _ _)
          by_cases ht : s.hasTimedOut = true
          · exact Or.inl (.timedOut ht)
          · have hp' : p ∈ s.exchange.heads.head? := hp
            rw [(hlive (by simpa using ht)).2] at hp'
            cases hp'
        show Agreed C ((Tail.handleCompletedRead srv a (cancelTimer (s.release i))).run srv a)
        unfold Tail.handleCompletedRead
        split
        · exact hquiet
        split
        · exact hquiet
        rename_i hopen
        have ht : s.hasTimedOut = false := by
          cases ht : s.hasTimedOut with
          | false => rfl
          | true => exact absurd (hc.timedOut ht) hopen
        refine agreed_callHandler srv hsp ha ⟨h.past, ?_, ht, hopen⟩ (hlive ht).2 hq.direct.ended
          hq.direct.chunks (hq.blank hopen).streamedBytes ?_
        · rw [hrel]
          rfl
        · exact fun r hr hg => hthrow (Or.inl ⟨pool, view, r, hi, hr, hg⟩)
      | getNextChunk =>
        obtain ⟨-, -, hstream⟩ := (hph : Answering s.bare ∧ _ ∧ Streaming srv s.bare [])
        obtain ⟨hpromised, hended⟩ := h.released hinv hi (Streaming.path_ne (t := s.bare) hstream)
        refine Streamed.getNextChunk srv ⟨hpromised, hended.resolve_left id⟩
          (fun hg => hthrow (Or.inr ⟨pool, _, hi, Or.inl rfl, hg⟩)) fun hg => ?_
        -- a stream that is no gateway's has announced its length
        have hpath := hstream.path.resolve_right hg
        obtain ⟨r, head, hheads, hcl, -⟩ := hstream.stream hpath
        refine ⟨hpath, hstream.streamedBytes, fun p hp => ?_⟩
        have hp' : p ∈ s.bare.exchange.heads.head? := hp
        rw [hheads] at hp'
        obtain rfl := Option.some.inj hp'
        exact hcl
      | getNextChunkedChunk =>
        obtain ⟨-, -, hchunk⟩ := (hph : Answering s.bare ∧ _ ∧ Chunking srv s.bare [])
        obtain ⟨hpromised, hended⟩ := h.released hinv hi (Chunking.path_ne (t := s.bare) hchunk)
        exact Streamed.getNextChunkedChunk srv ⟨hpromised, hended.resolve_left id⟩
          (fun hg => hthrow (Or.inr ⟨pool, _, hi, Or.inr rfl, hg⟩)) hchunk.path
    · cases hx
  | writeSome i n a =>
    simp only [Tail.step] at hx
    split at hx
    · rename_i handler buffer hi
      split at hx
      · obtain rfl := Option.some.inj hx
        obtain ⟨hpromised, hended⟩ := h.released hinv hi (hinv.path_of_writing hi)
        -- the bytes that were sent keep what was promised
        have hwrote : Promised ((s.release i).emit (.wrote .handler (buffer.take n))) :=
          ⟨⟨hpromised.past, hpromised.idle, hpromised.timedOut, hpromised.socket⟩, hpromised.kept⟩
        exact hwrote.runWriteHandler srv (hended.imp_left finalizes_write) fun he => absurd rfl he
      · cases hx
    · cases hx
  | writeFails i a =>
    simp only [Tail.step] at hx
    split at hx
    · rename_i handler buffer hi
      obtain rfl := Option.some.inj hx
      obtain ⟨hpromised, hended⟩ := h.released hinv hi (hinv.path_of_writing hi)
      have hfailed : Promised (s.release i).failWrite := by
        refine ⟨⟨hpromised.past, hpromised.idle, hpromised.timedOut, ?_⟩, hpromised.kept⟩
        show (if (s.release i).world.socket = .open then SocketState.broken
          else (s.release i).world.socket) ≠ .closed
        split
        · simp
        · exact hpromised.socket
      exact hfailed.runWriteHandler srv (hended.imp_left finalizes_write) fun _ => rfl
    · cases hx
  | timerExpires =>
    simp only [Tail.step, AsyncConnection.step] at hx
    split at hx
    · obtain rfl := Option.some.inj hx
      exact ⟨h.past, h.socket, h.reply, fun ho hg p hp hpersists =>
        (h.ended ho hg p hp hpersists).imp_left fun hc => hc.same rfl rfl rfl⟩
    · cases hx
  | runTimer generation a =>
    simp only [Tail.step] at hx
    split at hx
    · rename_i w hw
      obtain rfl := Option.some.inj hx
      obtain ⟨hmem, hgen, -⟩ := readyWait_spec hw
      have hquiet : Agreed C { s with world.waits := s.world.waits.erase w } :=
        ⟨h.past, h.socket, h.reply, fun ho hg p hp hpersists =>
          (h.ended ho hg p hp hpersists).imp_left fun hc => hc.same rfl rfl rfl⟩
      -- a wait that was cancelled or is stale does nothing
      by_cases hab : w.status = .aborted
      · rw [if_pos hab]
        exact hquiet
      by_cases hg : generation = s.itsTimerGeneration
      · have ht := @timedOut_handleTimer srv a s (s.world.waits.erase w)
          fun y hy => List.mem_of_mem_erase hy
        -- a wait with the last stamp says that no handler is called yet
        have hwaiting : Waiting srv s := by
          have hbare : Waiting srv s.bare := hinv.waiting srv fun hu => by
            have hlt : w.generation < s.itsTimerGeneration := hu w hmem
            omega
          exact ⟨hbare.direct, hbare.live⟩
        obtain ⟨r, e, k, v, heq⟩ := ht.state
        rw [if_neg hab, hg]
        show Agreed C ((Tail.handleTimer srv a .success s.itsTimerGeneration _).run srv a)
        rw [← handleTimer_eq]
        refine h.timedOut ht.past ?_ (ht.direct hwaiting).path
        rw [heq]
      · rw [handleTimer_inert srv (s := { s with world.waits := s.world.waits.erase w }) hg]
        exact hquiet
    · cases hx
  | requestShutdown =>
    obtain rfl := Option.some.inj hx
    exact ⟨h.past, h.socket, h.reply, fun _ _ _ _ _ =>
      Or.inl (.shutdown rfl)⟩

/-! ## Runs -/

variable (srv)

/-- Nothing was announced on a connection that has just been started. -/
theorem agreed_start : Agreed C (start srv) := by
  have htrace := start_trace srv
  have hx : (start srv).exchange = {} := by
    unfold exchange
    rw [htrace]
    rfl
  have hopen : (start srv).world.socket = .open ∧ (start srv).world.outstanding ≠ [] := by
    unfold start
    dsimp only
    split
    · exact ⟨rfl, List.cons_ne_nil _ _⟩
    · exact ⟨rfl, List.cons_ne_nil _ _⟩
  refine ⟨?_, fun _ _ => ?_, fun y _ hne => ?_, fun ho => absurd ho hopen.2⟩
  · rw [htrace]
    intro x hx
    cases hx
  · rw [hopen.1]
    simp
  · rw [hx] at hne
    exact absurd rfl hne

variable {srv}

/-- **Announced and actual persistence agree.**  Behind every response after which
the server read on, its client expects the connection to persist; and where a
client expects that of the response under way, the server ends the connection
only for one of the causes of `EndCause`, or because a streamer has thrown. -/
theorem announcement_agrees (hsp : srv.spine.Versions) {s : AsyncConnection} {es : List Event}
    (hes : ∀ e ∈ es, e.answers.Versioned) (hrun : runFrom srv (start srv) es = some s) :
    (∀ x ∈ past s.world.trace, ∃ m r head, x.heads = [(m, r, head)] ∧ r.ClientPersists) ∧
      (s.world.outstanding = [] ∨ s.world.socket = .closed →
        s.exchange.path ≠ some .gateway → ∀ m r head rest, s.exchange.heads = (m, r, head) :: rest →
        r.ClientPersists → s.EndCause ∨ Thrown srv es) := by
  -- a run throws nowhere, or a throw may be the reason of its end
  have hthrows : Transition.Along (step srv) (fun s e => Throws srv s e → Thrown srv es)
      (start srv) es := by
    by_cases hall : Transition.Along (step srv) (fun s e => ¬ Throws srv s e) (start srv) es
    · exact hall.mono fun _ _ hnot hthrow => absurd hthrow hnot
    · exact Transition.along_of_forall (fun _ _ _ => fun _ => hall) _
  have hG : Transition.Along (step srv)
      (fun s e => e.answers.Versioned ∧ (Throws srv s e → Thrown srv es)) (start srv) es :=
    (Transition.along_of_forall (fun e he _ => hes e he) _).and hthrows
  obtain ⟨hinv, hagreed⟩ := Transition.run_preserves_of
    (P := fun s => Inv srv s ∧ Agreed (Thrown srv es) s)
    (fun _ _ _ hs hg hstep =>
      ⟨inv_step srv hs.1 hstep, hs.2.step hsp hg.1 hg.2 hs.1 hstep⟩) hG
    ⟨inv_start srv, agreed_start srv⟩ hrun
  refine ⟨fun x hx => ?_, fun hend hg m r head rest hheads hpersists => ?_⟩
  · obtain ⟨m, r, head, hheads, -⟩ := (hinv.1.past x hx).framed
    refine ⟨m, r, head, hheads, hagreed.past x hx (m, r, head) ?_⟩
    rw [hheads]
    exact List.mem_singleton.mpr rfl
  · by_cases ht : s.hasTimedOut = true
    · exact Or.inl (.timedOut ht)
    · have ho : s.world.outstanding = [] := by
        by_contra hne
        exact hagreed.socket (by simpa using ht) hne (hend.resolve_left hne)
      refine hagreed.ended ho hg (m, r, head) ?_ hpersists
      rw [hheads]
      rfl

/-- An HTTP/1.0 client that asks for `keep-alive`, and gets its page. -/
def keepAliveRun : List Event :=
  [.receive 0 "GET /x HTTP/1.0\r\nConnection: keep-alive\r\n\r\n".toList,
    .runRead 0 MinimalSpine.answers,
    .runTask 0 { MinimalSpine.answers with
      handler := .returned true { status := some 200, content := .buffer "hello".toList } false },
    .writeSome 0 149 MinimalSpine.answers]

/-- Two requests on one connection. -/
theorem announcement_agrees_keepAlive :
    ∃ s, runFrom MinimalSpine.server (start MinimalSpine.server) keepAliveRun = some s ∧
      ∃ x ∈ past s.world.trace, ∃ m r head, x.heads = [(m, r, head)] ∧ r.ClientPersists := by
  obtain ⟨s, hs, hp⟩ := MinimalSpine.reached keepAliveRun
    (fun s => (past s.world.trace).any fun x => x.path == some .regular) (by decide +kernel)
  obtain ⟨x, hx, -⟩ := List.any_eq_true.mp hp
  refine ⟨s, hs, x, hx, (announcement_agrees ⟨rfl, versioned_empty⟩ ?_ hs).1 x hx⟩
  intro e he success r disconnected hr hc
  simp only [keepAliveRun, List.mem_cons, List.not_mem_nil, or_false] at he
  rcases he with rfl | rfl | rfl | rfl
  · cases hr
  · cases hr
  · obtain ⟨-, rfl, -⟩ := HandlerResult.returned.inj hr
    cases hc
  · cases hr

/-- A stream of five bytes is delivered whole, and the executor does not take the getter
that would be told of its end. -/
def turnedAwayRun : List Event :=
  [.receive 0 "GET /x HTTP/1.1\r\nHost: h\r\n\r\n".toList, .runRead 0 MinimalSpine.answers,
    .runTask 0 { MinimalSpine.answers with
      handler := .returned true { status := some 200, content := .stream 5 } false
      content := some "hello".toList },
    .writeSome 0 92 { MinimalSpine.answers with accepts := false }]

/-- **The server closes behind a whole stream** that the client expects to be followed by
another: no length was wrong, no stream or write has failed and no streamer has thrown,
nothing has timed out and no shutdown was requested. -/
theorem closed_behind_stream :
    ∃ s, runFrom MinimalSpine.server (start MinimalSpine.server) turnedAwayRun = some s ∧
      s.world.outstanding = [] ∧ s.exchange.path = some .stream ∧
      (∃ r head rest, s.exchange.heads = (.handler, r, head) :: rest ∧ r.ClientPersists ∧
        r.getHeader "Content-Length".toList = some "5".toList) ∧
      s.exchange.streamed.flatten = "hello".toList ∧ ¬ s.exchange.WrongLength ∧
      ¬ s.exchange.StreamFailed ∧ s.exchange.failed = false ∧ s.hasTimedOut = false ∧
      s.world.shutdownRequested = false ∧ ¬ Thrown MinimalSpine.server turnedAwayRun := by
  obtain ⟨s, hs, hp⟩ := MinimalSpine.reached turnedAwayRun
    (fun s => (s.world.outstanding.isEmpty && s.exchange.path == some .stream &&
      s.exchange.streamed.flatten == "hello".toList && s.exchange.ended.isNone &&
      !s.exchange.failed && !s.hasTimedOut && !s.world.shutdownRequested) &&
      s.exchange.heads.head?.any fun p => p.1 == .handler &&
        p.2.1.getHeader "Content-Length".toList == some "5".toList &&
        p.2.1.statusVersion == some .v1_1 && p.2.1.getHeader "Connection".toList == none)
    (by decide +kernel)
  simp only [Bool.and_eq_true, beq_iff_eq, Bool.not_eq_true', List.isEmpty_iff,
    Option.isNone_iff_eq_none, Option.any_eq_true] at hp
  obtain ⟨⟨⟨⟨⟨⟨⟨ho, hpath⟩, hstreamed⟩, hended⟩, hfailed⟩, htime⟩, hshut⟩, hhead⟩ := hp
  obtain ⟨⟨m, r, head⟩, hmem, ⟨⟨hm, hlength⟩, hversion⟩, hconnection⟩ := hhead
  obtain ⟨rest, hheads⟩ := List.head?_eq_some_iff.mp hmem
  obtain rfl : m = .handler := hm
  refine ⟨s, hs, ho, hpath, ⟨r, head, rest, hheads, ?_, hlength⟩, hstreamed,
    fun hw => hw.2.1 hended, fun hf => ?_, hfailed, htime, hshut, fun hthrown => hthrown ?_⟩
  · refine ⟨.v1_1, hversion, ?_, Or.inl rfl⟩
    unfold connectionOptions
    rw [hconnection]
    exact List.not_mem_nil
  · cases hended.symm.trans hf.2
  · refine Transition.along_of_forall (fun e he u hthrows => ?_) _
    obtain ⟨i, a, rfl, ha⟩ := hthrows.content
    simp only [turnedAwayRun, List.mem_cons, reduceCtorEq, false_or, or_false, List.not_mem_nil,
      Event.runTask.injEq] at he
    rw [he.2] at ha
    cases ha

end AsyncConnection

end SmartMet
