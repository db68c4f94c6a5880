/-
# No handler is called for nothing

Whatever a connection has outstanding was paid for: by bytes that arrived, by bytes
that went out, or by a chunk a getter was given.  So the handlers it calls are bounded by
what passed through it, and a connection nothing passes through comes to rest.

* `Costs` : what a function leaves to be done, and what it is paid;
* `costs_handleRead` .. `costs_runWriteHandler` : the costs of the handlers;
* `pays_step` : every activity covers the handler it calls;
* `handlers_bounded` : the bound on the handlers of a run.
-/
import SmartMetServer.ChunkedReply
import SmartMetServer.Draining

namespace SmartMet

/-! ## What is paid -/

/-- The chunks the getters were given, in order. -/
def chunksOf (t : List Obs) : List Bytes :=
  t.reverse.flatMap fun
    | .chunk c _ => [c]
    | _ => []

/-- What has passed through a connection: the bytes that arrived, eight times, the
bytes that went out, and the chunks, twice. -/
def credit (t : List Obs) : ℕ :=
  8 * (receivedOf t).length + ((wireOf t).flatMap Prod.snd).length + 2 * (chunksOf t).length

/-- What one event brings in. -/
def Obs.credit : Obs → ℕ
  | .received b => 8 * b.length
  | .wrote _ b => b.length
  | .chunk _ _ => 2
  | _ => 0

/-- The credit of a trace, event by event. -/
theorem credit_cons (o : Obs) (t : List Obs) : credit (o :: t) = o.credit + credit t := by
  unfold credit receivedOf wireOf chunksOf
  simp only [List.reverse_cons, List.flatMap_append, List.flatMap_cons, List.flatMap_nil,
    List.length_append, List.append_nil]
  cases o with
  | received b => simp only [Obs.credit, List.flatMap_nil, List.length_nil]; omega
  | wrote m b => simp [Obs.credit]; omega
  | chunk c own => simp [Obs.credit]; omega
  | _ => simp [Obs.credit]

/-! ## What is left to be done -/

/-- The handlers an activity may call in the end, if nothing more is paid. -/
def Activity.price : Activity → ℕ
  | .handshake => 2
  | .read => 1
  | .handleRead bytes => 2 + 6 * bytes.length
  | .task _ _ => 7
  | .write .writeRegularReply _ => 6
  | .write .finalizeChunkedReply _ => 6
  | .write _ _ => 8

/-- The price of a write does not depend on what is to be written. -/
theorem price_write (handler : WriteHandler) (b c : Bytes) :
    (Activity.write handler b).price = (Activity.write handler c).price := by
  cases handler <;> rfl

/-- Each activity has its price. -/
theorem price_pos (y : Activity) : 0 < y.price := by
  cases y with
  | handshake => decide
  | read => decide
  | handleRead bytes => exact Nat.lt_of_lt_of_le Nat.two_pos (Nat.le_add_right 2 _)
  | task pool task => exact Nat.succ_pos 6
  | write handler buffer => cases handler <;> exact Nat.succ_pos _

/-- The price of all that is outstanding. -/
def load : List Activity → ℕ
  | [] => 0
  | y :: ys => y.price + load ys

/-- An activity adds its price to the load, -/
theorem load_await (ys : List Activity) (y : Activity) : load (ys ++ [y]) = load ys + y.price := by
  induction ys with
  | nil => exact Nat.add_comm _ _
  | cons z ys ih =>
    show z.price + load (ys ++ [y]) = z.price + load ys + y.price
    omega

/-- and takes it away when it completes. -/
theorem load_release {ys : List Activity} {i : ℕ} {y : Activity} (h : ys[i]? = some y) :
    load (ys.eraseIdx i) + y.price = load ys := by
  induction ys generalizing i with
  | nil => simp at h
  | cons z ys ih =>
    cases i with
    | zero =>
      obtain rfl : z = y := by simpa using h
      exact Nat.add_comm _ _
    | succ i =>
      have hrest := ih (i := i) (by simpa using h)
      show z.price + load (ys.eraseIdx i) + y.price = z.price + load ys
      omega

namespace AsyncConnection

/-- The handlers a connection may call if nothing more is paid: those of what is
outstanding, of the requests it holds, of an idle connection that is woken up, and of
the timer. -/
def work (s : AsyncConnection) : ℕ :=
  load s.world.outstanding + 6 * s.itsBuffer.length + (if s.itsIdle then 2 else 0) + s.remaining

/-- From `s` to `t` no more than `k` handlers were added to what is left to be done,
those apart that were paid for on the way. -/
def Costs (k : ℕ) (s t : AsyncConnection) : Prop :=
  t.work + credit s.world.trace ≤ s.work + k + credit t.world.trace

variable {s t u : AsyncConnection} {k l : ℕ}

/-- Nothing costs nothing. -/
theorem Costs.refl (s : AsyncConnection) : Costs 0 s s := Nat.le_refl _

/-- Two parts in a row cost their sum. -/
theorem Costs.trans (h : Costs k s t) (h' : Costs l t u) : Costs (k + l) s u := by
  unfold Costs at *
  omega

/-- Behind what costs nothing. -/
theorem Costs.behind (h : Costs 0 s t) (h' : Costs k t u) : Costs k s u := by
  unfold Costs at *
  omega

/-- The bound may be weakened. -/
theorem Costs.mono (h : Costs k s t) (hkl : k ≤ l) : Costs l s t := by
  unfold Costs at *
  omega

/-- A change of members the work does not depend on. -/
theorem Costs.silent (hw : t.world = s.world) (hb : t.itsBuffer = s.itsBuffer)
    (hi : t.itsIdle = s.itsIdle) : Costs 0 s t := by
  have hrem : t.remaining ≤ s.remaining := remaining_winds (.of_eq (congrArg World.waits hw))
  unfold Costs work
  rw [hw, hb, hi]
  omega

/-! ## The world -/

/-- An event costs nothing; -/
theorem costs_emit (s : AsyncConnection) (o : Obs) : Costs 0 s (s.emit o) := by
  have hcredit : credit (s.emit o).world.trace = o.credit + credit s.world.trace :=
    credit_cons o s.world.trace
  have hwork : (s.emit o).work = s.work := rfl
  unfold Costs
  omega

/-- A chunk pays for two handlers. -/
theorem emit_chunk (s : AsyncConnection) (c : Bytes) (own : Bool) :
    (s.emit (.chunk c own)).work + credit s.world.trace + 2 ≤
      s.work + credit (s.emit (.chunk c own)).world.trace := by
  have hcredit : credit (s.emit (.chunk c own)).world.trace = 2 + credit s.world.trace :=
    credit_cons (.chunk c own) s.world.trace
  have hwork : (s.emit (.chunk c own)).work = s.work := rfl
  omega

/-- an activity costs its price; -/
theorem costs_await (s : AsyncConnection) (y : Activity) : Costs y.price s (s.await y) := by
  have hload : load (s.world.outstanding ++ [y]) = load s.world.outstanding + y.price :=
    load_await _ y
  show load (s.world.outstanding ++ [y]) + 6 * s.itsBuffer.length + (if s.itsIdle then 2 else 0) +
    s.remaining + credit s.world.trace ≤ s.work + y.price + credit s.world.trace
  unfold work
  omega

/-- a blocking write costs nothing, -/
theorem costs_write (m : Message) (b : Bytes) (o : WriteOutcome) (s : AsyncConnection) :
    Costs 0 s (write m b o s) := by
  unfold write
  rcases s.world.write_cases m b o with ⟨-, -, h⟩ | ⟨-, -, h⟩ | ⟨-, -, n, h⟩ | ⟨-, -, h⟩
  · rw [h]
    exact Costs.refl s
  · rw [h]
    exact costs_emit s _
  · rw [h]
    exact ((costs_emit s _).trans (costs_emit _ _)).trans (Costs.refl _)
  · rw [h]
    exact costs_emit s _

/-- nor does closing -/
theorem costs_closeSocket (s : AsyncConnection) : Costs 0 s (closeSocket s) := costs_emit s .closed

/-- A wait, and the expiry of the timer. -/
theorem costs_armTimer (n : ℕ) (s : AsyncConnection) : Costs 2 s (armTimer n s) := by
  have hcredit := credit_cons (.armed (s.itsTimerGeneration + 1) n) s.world.trace
  have hlen : (armTimer n s).remaining ≤ s.world.waits.length + 2 := by
    show (s.world.waits.map TimerWait.cancel).length + 1 +
      (if Disarmed (armTimer n s) then 0 else 1) ≤ _
    rw [List.length_map]
    split
    · omega
    · omega
  have hle : s.world.waits.length ≤ s.remaining := Nat.le_add_right _ _
  show load s.world.outstanding + 6 * s.itsBuffer.length + (if s.itsIdle then 2 else 0) +
    (armTimer n s).remaining + credit s.world.trace ≤
      load s.world.outstanding + 6 * s.itsBuffer.length + (if s.itsIdle then 2 else 0) +
        s.remaining + 2 + credit (.armed (s.itsTimerGeneration + 1) n :: s.world.trace)
  omega

/-- or cancelling the timer. -/
theorem costs_cancelTimer (s : AsyncConnection) : Costs 0 s (cancelTimer s) := by
  have hrem : (cancelTimer s).remaining ≤ s.remaining := remaining_winds (winds_cancel _)
  show load s.world.outstanding + 6 * s.itsBuffer.length + (if s.itsIdle then 2 else 0) +
    (cancelTimer s).remaining + credit s.world.trace ≤ s.work + 0 + credit s.world.trace
  unfold work
  omega

/-! ## The ends of a response -/

variable (srv : Server)

/-- A re-armed connection reads or waits, and may be idle. -/
theorem costs_finishResponse (s : AsyncConnection) : Costs 5 s (finishResponse srv s) := by
  unfold finishResponse
  split
  · have harm := costs_armTimer (if s.itsBuffer.isEmpty then srv.itsKeepAliveTimeout
      else srv.itsTimeout) (resetRequestState s)
    let t := armForNextRequest srv (resetRequestState s)
    have hcredit := credit_cons .rearmed s.world.trace
    show Costs 5 s (if s.itsBuffer.isEmpty then startRead t else t.await (.handleRead []))
    cases hb : s.itsBuffer.isEmpty with
    | true =>
      have hreset : Costs 2 s (resetRequestState s) := by
        show load s.world.outstanding + 6 * s.itsBuffer.length +
          (if s.itsBuffer.isEmpty then 2 else 0) + s.remaining + credit s.world.trace ≤
            s.work + 2 + credit (.rearmed :: s.world.trace)
        rw [if_pos hb]
        unfold work
        omega
      exact (hreset.trans harm).trans (costs_await t .read)
    | false =>
      have hreset : Costs 0 s (resetRequestState s) := by
        show load s.world.outstanding + 6 * s.itsBuffer.length +
          (if s.itsBuffer.isEmpty then 2 else 0) + s.remaining + credit s.world.trace ≤
            s.work + 0 + credit (.rearmed :: s.world.trace)
        rw [if_neg (by rw [hb]; exact Bool.false_ne_true)]
        unfold work
        omega
      exact ((hreset.trans harm).trans (costs_await t (.handleRead []))).mono (by decide)
  · exact (Costs.refl s).mono (Nat.zero_le 5)

variable (a : Answers)

/-- A reply of the server's own, unless it re-arms the connection. -/
theorem costs_sendSimpleReply (m : Message) (s : AsyncConnection) :
    Costs (if s.itsKeepAlive then 5 else 0) s (sendSimpleReply srv a m s) := by
  unfold sendSimpleReply
  cases headersToString srv.spine s.itsResponse with
  | none => exact (Costs.refl s).mono (Nat.zero_le _)
  | some head =>
    let t := writeContent a m (writeHead a m head s)
    have ht : Costs 0 s t :=
      ((costs_emit s _).trans (costs_write m head a.headerWrite _)).trans
        ((costs_write m _ a.contentWrite _).trans (Costs.silent rfl rfl rfl))
    show Costs _ s (if t.itsKeepAlive then finishResponse srv t else closeSocket t)
    cases hk : t.itsKeepAlive with
    | true =>
      have hs : s.itsKeepAlive = true := (Bool.and_eq_true_iff.mp hk).1
      rw [if_pos hs]
      exact ht.trans (costs_finishResponse srv t)
    | false => exact (ht.trans (costs_closeSocket t)).mono (Nat.zero_le _)

/-- A page costs the next read, where the connection persists. -/
theorem costs_sendStockReply (status : Status) (s : AsyncConnection) :
    Costs (if s.itsKeepAlive then 5 else 0) s (sendStockReply srv a status s) := by
  have hprep : Costs 0 s (stockResponse srv a status s) := Costs.silent rfl rfl rfl
  refine (hprep.trans (costs_sendSimpleReply srv a _ (stockResponse srv a status s))).mono ?_
  by_cases hs : s.itsKeepAlive = true
  · rw [if_pos hs]
    split
    · exact Nat.le_refl 5
    · exact Nat.zero_le 5
  · have hk : (stockResponse srv a status s).itsKeepAlive = false := by
      show (s.itsKeepAlive && _ && _) = false
      rw [Bool.not_eq_true] at hs
      rw [hs]
      rfl
    rw [if_neg (by rw [hk]; exact Bool.false_ne_true)]
    exact Nat.zero_le _

/-- On a connection that does not persist a reply costs nothing. -/
theorem costs_sendStockReply_closing (status : Status) {s : AsyncConnection}
    (hk : s.itsKeepAlive = false) : Costs 0 s (sendStockReply srv a status s) := by
  have h := costs_sendStockReply srv a status s
  rwa [if_neg (by rw [hk]; exact Bool.false_ne_true)] at h

/-- It never costs more than that read. -/
theorem costs_sendStockReply_any (status : Status) (s : AsyncConnection) :
    Costs 5 s (sendStockReply srv a status s) := by
  refine (costs_sendStockReply srv a status s).mono ?_
  split
  · exact Nat.le_refl 5
  · exact Nat.zero_le 5

/-! ## Reading a request -/

/-- A scheduled request costs its task, -/
theorem costs_scheduleRequest (view : HandlerView) (s : AsyncConnection) :
    Costs 7 s (scheduleRequest srv a view s) := by
  have hput : ∀ {u : AsyncConnection} (pool : Pool) (status : Status), Costs 0 s u →
      Costs 7 s (if a.accepts then u.await (.task pool (.handleCompletedRead view))
        else sendStockReply srv a status u) := by
    intro u pool status hu
    split
    · exact hu.trans (costs_await u (.task pool (.handleCompletedRead view)))
    · exact (hu.trans (costs_sendStockReply_any srv a status u)).mono (by decide)
  unfold scheduleRequest
  split
  · exact hput .fast .serviceUnavailable (Costs.silent rfl rfl rfl)
  · exact hput _ srv.spine.highLoad (Costs.silent rfl rfl rfl)

/-- and so does its way there. -/
theorem costs_routeRequest (s : AsyncConnection) : Costs 7 s (routeRequest srv a s) := by
  unfold routeRequest
  split
  · let u := setServerHeaders srv a { s with itsResponse := srv.spine.stockOptionsResponse }
    have hu : Costs 0 s u := Costs.silent rfl rfl rfl
    refine (hu.trans (costs_sendSimpleReply srv a .options u)).mono ?_
    split
    · decide
    · decide
  cases srv.spine.getHandlerView s.itsRequest with
  | none => exact (costs_sendStockReply_any srv a .notFound s).mono (by decide)
  | some view =>
    let u : AsyncConnection :=
      { s with itsAdminQuery := !view.isCatchNoMatch && view.isAdminQuery && srv.adminPoolSize > 0 }
    have hu : Costs 0 s u := Costs.silent rfl rfl rfl
    show Costs 7 s (if !u.itsAdminQuery && a.loadHigh then
      sendStockReply srv a srv.spine.highLoad u else scheduleRequest srv a view u)
    split
    · exact hu.behind ((costs_sendStockReply_any srv a srv.spine.highLoad u).mono (by decide))
    · exact hu.behind (costs_scheduleRequest srv a view u)

/-- A complete request, -/
theorem costs_handleParsedRequest (s : AsyncConnection) :
    Costs 7 s (handleParsedRequest srv a s) := by
  let t := s.emit (.parsed s.itsRequest)
  have ht : Costs 0 s t := costs_emit s _
  unfold handleParsedRequest
  dsimp only
  cases hclient : resolveClientIP srv a t with
  | none => exact (ht.behind (costs_emit t .peerUnknown)).mono (Nat.zero_le 7)
  | some u =>
    have hu : Costs 0 t u := by
      unfold resolveClientIP at hclient
      split at hclient
      · cases hclient
      · obtain ⟨ip, -, rfl⟩ := Option.map_eq_some_iff.mp hclient
        exact Costs.silent rfl rfl rfl
    let v := negotiate srv u
    have hv : Costs 0 s v := ht.behind (hu.behind (Costs.silent rfl rfl rfl))
    show Costs 7 s (if v.itsResponseVersion = .v1_1 &&
        (v.itsRequest.headers.get "Host".toList).isNone then
      sendStockReply srv a .badRequest { v with itsKeepAlive := false }
      else routeRequest srv a (prepareRequest v))
    split
    · have hclose : Costs 0 v { v with itsKeepAlive := false } := Costs.silent rfl rfl rfl
      exact (hv.behind (hclose.behind
        (costs_sendStockReply_closing srv a .badRequest rfl))).mono (Nat.zero_le 7)
    · have hprep : Costs 0 v (prepareRequest v) := Costs.silent rfl rfl rfl
      exact hv.behind (hprep.behind (costs_routeRequest srv a (prepareRequest v)))

/-- its expectation, -/
theorem costs_handleExpectContinue (s : AsyncConnection) :
    Costs 0 s (handleExpectContinue srv a s).1 := by
  unfold handleExpectContinue
  split
  · exact Costs.refl s
  dsimp only
  split
  · exact Costs.refl s
  let t : AsyncConnection := { s with itsExpectHandled := true }
  have ht : Costs 0 s t := Costs.silent rfl rfl rfl
  split
  · exact ht
  split
  · exact ht
  split
  · have hw := ht.behind (costs_write .interim continueReply a.interimWrite t)
    split
    · exact hw.behind (Costs.silent rfl rfl rfl)
    · exact hw
  · have hclose : Costs 0 t { t with itsKeepAlive := false } := Costs.silent rfl rfl rfl
    exact ht.behind (hclose.behind (costs_sendStockReply_closing srv a .expectationFailed rfl))

/-- an incomplete request -/
theorem costs_handleIncompleteRequest (s : AsyncConnection) :
    Costs 1 s (handleIncompleteRequest srv a s) := by
  unfold handleIncompleteRequest
  split
  · have hclose : Costs 0 s { s with itsKeepAlive := false } := Costs.silent rfl rfl rfl
    exact (hclose.behind (costs_sendStockReply_closing srv a .requestHeaderFieldsTooLarge
      rfl)).mono (Nat.zero_le 1)
  · have hexpect := costs_handleExpectContinue srv a s
    dsimp only
    split
    · exact hexpect.behind (costs_await _ .read)
    · exact hexpect.mono (Nat.zero_le 1)

/-- What an idle connection holds pays for the swap of the timer. -/
theorem costs_leaveIdle (s : AsyncConnection) : Costs 0 s (leaveIdle srv s) := by
  let t : AsyncConnection := { s with itsIdle := false }
  have hidle : t.work + (if s.itsIdle then 2 else 0) = s.work := by
    show load s.world.outstanding + 6 * s.itsBuffer.length + (if false = true then 2 else 0) +
      s.remaining + (if s.itsIdle then 2 else 0) = s.work
    rw [if_neg Bool.false_ne_true]
    unfold work
    omega
  unfold leaveIdle
  split
  · rename_i hi
    have harm : (armTimer srv.itsTimeout t).work + credit s.world.trace ≤
        t.work + 2 + credit (armTimer srv.itsTimeout t).world.trace :=
      costs_armTimer srv.itsTimeout t
    rw [if_pos (Bool.and_eq_true_iff.mp hi).1] at hidle
    show (armTimer srv.itsTimeout t).work + credit s.world.trace ≤
      s.work + 0 + credit (armTimer srv.itsTimeout t).world.trace
    omega
  · show t.work + credit s.world.trace ≤ s.work + 0 + credit s.world.trace
    omega

/-- A request that was parsed is paid for by its bytes. -/
theorem costs_parseBuffer
    (hparse : ∀ b r n, srv.spine.parseOneRequest b = .complete r n → 0 < n ∧ n ≤ b.length)
    {s : AsyncConnection} (hk : s.itsKeepAlive = false) : Costs 1 s (parseBuffer srv a s) := by
  unfold parseBuffer
  cases hp : srv.spine.parseOneRequest s.itsBuffer with
  | complete request consumed =>
    let rest := s.itsBuffer.drop consumed
    let t : AsyncConnection :=
      { s with itsRequest := request, itsBuffer := rest, itsReceivedBytes := rest.length }
    have ht : t.work + 6 ≤ s.work := by
      obtain ⟨hpos, hle⟩ := hparse _ _ _ hp
      have hrest : rest.length = s.itsBuffer.length - consumed := List.length_drop
      show load s.world.outstanding + 6 * rest.length + (if s.itsIdle then 2 else 0) +
        s.remaining + 6 ≤ s.work
      unfold work
      omega
    have htrace : t.world.trace = s.world.trace := rfl
    have hhandle := costs_handleParsedRequest srv a t
    show Costs 1 s (handleParsedRequest srv a t)
    unfold Costs at *
    rw [htrace] at hhandle
    omega
  | failed => exact (costs_sendStockReply_closing srv a .badRequest hk).mono (Nat.zero_le 1)
  | incomplete => exact costs_handleIncompleteRequest srv a s

/-- and a read, which is paid for by its bytes. -/
theorem costs_handleRead
    (hparse : ∀ b r n, srv.spine.parseOneRequest b = .complete r n → 0 < n ∧ n ≤ b.length)
    (bytes : Bytes) {s : AsyncConnection} (hk : s.itsKeepAlive = false) :
    Costs (1 + 6 * bytes.length) s (handleRead srv a .success bytes s) := by
  unfold handleRead
  split
  · exact (costs_sendStockReply_closing srv a srv.spine.shutdown hk).mono (Nat.zero_le _)
  dsimp only
  rw [if_pos rfl]
  unfold handleReadBytes
  let t := leaveIdle srv { s with itsFinalStatus := .success }
  have ht : Costs 0 s t :=
    (Costs.silent rfl rfl rfl : Costs 0 s { s with itsFinalStatus := .success }).behind
      (costs_leaveIdle srv _)
  have hkt : t.itsKeepAlive = false := by
    show (leaveIdle srv { s with itsFinalStatus := .success }).itsKeepAlive = false
    unfold leaveIdle
    split
    · exact hk
    · exact hk
  let u : AsyncConnection := { t with itsReceivedBytes := t.itsReceivedBytes + bytes.length }
  have hu : Costs 0 s u := ht.behind (Costs.silent rfl rfl rfl)
  show Costs _ s (if srv.itsMaxRequestSize > 0 && u.itsReceivedBytes > srv.itsMaxRequestSize then
    sendStockReply srv a .requestEntityTooLarge u
    else parseBuffer srv a { u with itsBuffer := u.itsBuffer ++ bytes })
  split
  · exact (hu.behind (costs_sendStockReply_closing srv a .requestEntityTooLarge hkt)).mono
      (Nat.zero_le _)
  · have hread : Costs (6 * bytes.length) u { u with itsBuffer := u.itsBuffer ++ bytes } := by
      show load u.world.outstanding + 6 * (u.itsBuffer ++ bytes).length +
        (if u.itsIdle then 2 else 0) + u.remaining + credit u.world.trace ≤
          u.work + 6 * bytes.length + credit u.world.trace
      rw [List.length_append]
      unfold work
      omega
    have hpb := costs_parseBuffer srv a hparse
      (s := { u with itsBuffer := u.itsBuffer ++ bytes }) hkt
    exact ((hu.behind hread).trans hpb).mono (by omega)

/-! ## Writing a response -/

/-- The notification of the backend costs nothing, -/
theorem costs_notifyBackendFinished (status : StreamerStatus) (s : AsyncConnection) :
    Costs 0 s (notifyBackendFinished status s) := by
  unfold notifyBackendFinished
  split
  · exact Costs.refl s
  · exact (costs_emit s _).behind (Costs.silent rfl rfl rfl)

/-- nor does the log -/
theorem costs_finalizeStreamLogging (s : AsyncConnection) :
    Costs 0 s (finalizeStreamLogging s) := by
  unfold finalizeStreamLogging
  split
  · exact (costs_emit s _).behind (Costs.silent rfl rfl rfl)
  · exact Costs.refl s

/-- or the write of a header section. -/
theorem costs_flushPendingHeaders (s : AsyncConnection) : Costs 0 s (flushPendingHeaders a s) := by
  unfold flushPendingHeaders
  split
  · exact Costs.refl s
  · exact (costs_write .handler s.itsPendingHeaders a.flushWrite s).behind
      (Costs.silent rfl rfl rfl)

/-- A getter costs its task. -/
theorem costs_scheduleGetter (task : Task) (s : AsyncConnection) :
    Costs 7 s (scheduleGetter srv a task s) := by
  unfold scheduleGetter
  split
  · exact costs_await s (.task (chunkPool s) task)
  · have hrefuse : Costs 0 s { s.emit .refused with itsKeepAlive := false } :=
      (costs_emit s .refused).behind (Costs.silent rfl rfl rfl)
    exact (hrefuse.behind (costs_sendStockReply_closing srv a .serviceUnavailable rfl)).mono
      (Nat.zero_le 7)

/-- A chunk costs its write. -/
theorem costs_sendChunk (handler : WriteHandler) (wire : Bytes) (s : AsyncConnection) :
    Costs (Activity.write handler wire).price s (sendChunk handler wire s) := by
  let t : AsyncConnection :=
    { s with
      itsResponseString := s.itsPendingHeaders ++ wire
      itsPendingHeaders := []
      itsSentBytes := 0 }
  have ht : Costs 0 s t := Costs.silent rfl rfl rfl
  rw [price_write handler wire (s.itsPendingHeaders ++ wire)]
  exact ht.behind (costs_await t (.write handler (s.itsPendingHeaders ++ wire)))

/-- A chunk pays two of the handlers behind it. -/
theorem costs_takeChunk {c : Bytes} (h : Costs (k + 2) (takeChunk c s) t) : Costs k s t := by
  let own := s.itsResponse.hasStreamContent
  have hcount : (takeChunk c s).work = (s.emit (.chunk c own)).work := rfl
  have htrace : (takeChunk c s).world.trace = (s.emit (.chunk c own)).world.trace := rfl
  have hpay := emit_chunk s c own
  unfold Costs at *
  rw [hcount, htrace] at h
  omega

/-- An empty chunk is followed by a call for the next one. -/
theorem costs_emptyChunk (task : Task) (c : Bytes) (s : AsyncConnection) :
    Costs 6 s (if flushFails a (takeChunk c s) then flushPendingHeaders a (takeChunk c s)
      else scheduleGetter srv a task (flushPendingHeaders a (takeChunk c s))) := by
  refine costs_takeChunk (c := c) ?_
  have hflush := costs_flushPendingHeaders a (takeChunk c s)
  split
  · exact hflush.mono (Nat.zero_le 8)
  · exact (hflush.behind (costs_scheduleGetter srv a task _)).mono (by decide)

/-- The end of a stream costs the next read. -/
theorem costs_finishStream (status : StreamerStatus) (s : AsyncConnection) :
    Costs 5 s (finishStream srv status s) := by
  have hbooks := (costs_finalizeStreamLogging s).behind
    (costs_notifyBackendFinished status (finalizeStreamLogging s))
  exact hbooks.behind ((Costs.silent rfl rfl rfl).behind (costs_finishResponse srv _))

/-- A getter is paid for by the chunk it is given, -/
theorem costs_getNextChunk (s : AsyncConnection) : Costs 6 s (getNextChunk srv a s) := by
  let own := s.itsResponse.hasStreamContent
  have hend : ∀ status, Costs 6 s
      (if flushFails a (s.emit (.streamEnded status own)) then
        flushPendingHeaders a (s.emit (.streamEnded status own))
      else finishStream srv status (flushPendingHeaders a (s.emit (.streamEnded status own)))) := by
    intro status
    have hflush := (costs_emit s (.streamEnded status own)).behind (costs_flushPendingHeaders a _)
    split
    · exact hflush.mono (Nat.zero_le 6)
    · exact (hflush.behind (costs_finishStream srv status _)).mono (by decide)
  unfold getNextChunk
  cases getStreamingStatus a s.itsResponse with
  | ok =>
    cases nextContent a s.itsResponse with
    | none => exact (Costs.refl s).mono (Nat.zero_le 6)
    | some c =>
      dsimp only
      split
      · exact costs_takeChunk (c := c) (costs_sendChunk .writeStreamReply c (takeChunk c s))
      · exact costs_emptyChunk srv a .getNextChunk c s
  | _ => exact hend _

/-- also in the chunked coding. -/
theorem costs_getNextChunkedChunk (s : AsyncConnection) :
    Costs 6 s (getNextChunkedChunk srv a s) := by
  let own := s.itsResponse.hasStreamContent
  have hend : ∀ status, Costs 6 s
      (if status ≠ .exitOk then
        abandonChunked a (notifyBackendFinished status (s.emit (.streamEnded status own)))
      else sendChunk .finalizeChunkedReply "0\r\n\r\n".toList
        (notifyBackendFinished status (s.emit (.streamEnded status own)))) := by
    intro status
    have hbooks := (costs_emit s (.streamEnded status own)).behind
      (costs_notifyBackendFinished status _)
    split
    · have hflush := (hbooks.behind (costs_flushPendingHeaders a _)).behind
        (costs_finalizeStreamLogging _)
      exact (hflush.behind ((Costs.silent rfl rfl rfl).behind (costs_closeSocket _))).mono
        (Nat.zero_le 6)
    · exact hbooks.behind (costs_sendChunk .finalizeChunkedReply _ _)
  unfold getNextChunkedChunk
  cases getStreamingStatus a s.itsResponse with
  | ok =>
    cases nextContent a s.itsResponse with
    | none => exact (Costs.refl s).mono (Nat.zero_le 6)
    | some c =>
      dsimp only
      split
      · exact costs_takeChunk (c := c) (costs_sendChunk .writeChunkedReply _ (takeChunk c s))
      · exact costs_emptyChunk srv a .getNextChunkedChunk c s
  | _ => exact hend _

/-- A response whose status is settled, and its content. -/
theorem costs_startRegularReply (s : AsyncConnection) : Costs 6 s (startRegularReply srv s) := by
  let r := frameResponse srv s.itsHeadRequest
    (echoETag srv s.itsRequest (encodeResponse srv s.itsRequest s.itsResponse))
  let p := renderHeaders srv r
  let wire := if s.itsHeadRequest then p.2 else p.2 ++ p.1.getContent
  let t : AsyncConnection := { s with itsResponse := p.1 }.emit (.rendered .handler p.1 p.2)
  have ht : Costs 0 s t :=
    (Costs.silent rfl rfl rfl : Costs 0 s { s with itsResponse := p.1 }).behind (costs_emit _ _)
  have hwire : Costs 0 t { t with itsResponseString := wire } := Costs.silent rfl rfl rfl
  exact ht.behind (hwire.behind (costs_await _ (.write .writeRegularReply wire)))

/-- A header section costs nothing. -/
theorem costs_preparePendingHeaders (s : AsyncConnection) :
    Costs 0 s (preparePendingHeaders srv s) := by
  let p := renderHeaders srv s.itsResponse
  exact (Costs.silent rfl rfl rfl :
    Costs 0 s { s with itsResponse := p.1, itsPendingHeaders := p.2 }).behind (costs_emit _ _)

/-- The start of a stream of announced length, -/
theorem costs_startStreamReply (s : AsyncConnection) : Costs 6 s (startStreamReply srv a s) := by
  let declared := s.itsResponse.getContentLength
  let t : AsyncConnection :=
    { s with
      itsDeclaredContentLength := declared
      itsResponse := s.itsResponse.setHeader "Content-Length".toList (toDecimal declared) }
  have ht : Costs 0 s t := Costs.silent rfl rfl rfl
  exact ht.behind ((costs_preparePendingHeaders srv t).behind (costs_getNextChunk srv a _))

/-- of a chunked one -/
theorem costs_startChunkedReply (s : AsyncConnection) : Costs 6 s (startChunkedReply srv a s) := by
  let r := s.itsResponse.setHeader "Transfer-Encoding".toList "chunked".toList
  let t : AsyncConnection := { s with itsResponse := r.removeHeader "Content-Length".toList }
  have ht : Costs 0 s t := Costs.silent rfl rfl rfl
  exact ht.behind ((costs_preparePendingHeaders srv t).behind (costs_getNextChunkedChunk srv a _))

/-- and of any reply. -/
theorem costs_startReply (s : AsyncConnection) : Costs 6 s (startReply srv a s) := by
  have hhead : ∀ path, Costs 0 s (setServerHeaders srv a (s.emit (.started path))) := fun path =>
    (costs_emit s _).behind (Costs.silent rfl rfl rfl)
  unfold startReply
  split
  · exact (hhead .regular).behind (costs_startRegularReply srv _)
  split
  · split
    · have hlast : Costs 0 (s.emit (.started .gateway))
          { s.emit (.started .gateway) with itsKeepAlive := false } := Costs.silent rfl rfl rfl
      exact (costs_emit s _).behind (hlast.behind (costs_getNextChunk srv a _))
    split
    · exact (hhead .chunked).behind (costs_startChunkedReply srv a _)
    · exact (hhead .stream).behind (costs_startStreamReply srv a _)
  · exact (hhead .regular).behind (costs_startRegularReply srv _)

/-- The task that calls the handler, -/
theorem costs_handleCompletedRead (s : AsyncConnection) :
    Costs 6 s (handleCompletedRead srv a s) := by
  have hcancel := costs_cancelTimer s
  unfold handleCompletedRead
  dsimp only
  split
  · exact hcancel.mono (Nat.zero_le 6)
  split
  · exact hcancel.mono (Nat.zero_le 6)
  refine hcancel.behind ?_
  generalize cancelTimer s = t
  let u := (t.emit (.clientStarted t.itsRequest.clientIP)).emit (.dispatched t.itsRequest)
  have hu : Costs 0 t u := (costs_emit t _).behind (costs_emit _ _)
  unfold callHandler
  dsimp only
  cases a.handler with
  | threw => exact hu.mono (Nat.zero_le 6)
  | returned success response disconnected =>
    let v : AsyncConnection := { u.emit (.handled response) with itsResponse := response }
    have hv : Costs 0 t v :=
      hu.behind ((costs_emit u (.handled response)).behind (Costs.silent rfl rfl rfl))
    show Costs 6 t (if disconnected then v else if !success then
      sendStockReply srv a .badRequest v else startReply srv a v)
    split
    · exact hv.mono (Nat.zero_le 6)
    split
    · exact (hv.behind (costs_sendStockReply_any srv a .badRequest v)).mono (by decide)
    · exact hv.behind (costs_startReply srv a v)

/-- and each task. -/
theorem costs_runTask (task : Task) (s : AsyncConnection) : Costs 6 s (runTask srv a task s) := by
  cases task with
  | handleCompletedRead view => exact costs_handleCompletedRead srv a s
  | getNextChunk => exact costs_getNextChunk srv a s
  | getNextChunkedChunk => exact costs_getNextChunkedChunk srv a s

/-- What is left of a buffer is written by the same handler. -/
theorem costs_continueWrite (handler : WriteHandler) (n : ℕ)
    {next : AsyncConnection → AsyncConnection} (failed : AsyncConnection → AsyncConnection)
    (hnext : ∀ u, Costs k u (next u)) (s : AsyncConnection) :
    Costs (if s.itsSentBytes + n < s.itsResponseString.length then
      (Activity.write handler []).price else k) s
      (continueWrite srv a handler .success n next failed s) := by
  let t : AsyncConnection :=
    { s with itsFinalStatus := .success, itsSentBytes := s.itsSentBytes + n }
  have ht : Costs 0 s t := Costs.silent rfl rfl rfl
  unfold continueWrite
  dsimp only
  rw [if_pos rfl]
  split
  · rw [price_write handler [] (s.itsResponseString.drop (s.itsSentBytes + n))]
    exact ht.behind (costs_await t (.write handler _))
  · exact ht.behind (hnext t)

/-- A reply to a failed write ends the connection. -/
theorem costs_continueWrite_failed (handler : WriteHandler)
    (next : AsyncConnection → AsyncConnection) {failed : AsyncConnection → AsyncConnection}
    (hfailed : ∀ u, Costs 0 u (failed u)) (s : AsyncConnection) :
    Costs 0 s (continueWrite srv a handler .other 0 next failed s) := by
  let t : AsyncConnection := { s with itsFinalStatus := .other, itsKeepAlive := false }
  have ht : Costs 0 s t := Costs.silent rfl rfl rfl
  exact (ht.behind (costs_sendStockReply_closing srv a .serviceUnavailable rfl)).behind
    (hfailed _)

/-- The books behind a failed write cost nothing. -/
theorem costs_logAndNotify (s : AsyncConnection) : Costs 0 s (logAndNotify a s) :=
  (costs_finalizeStreamLogging s).behind (costs_notifyBackendFinished _ _)

/-- A completed write pays for what it goes on with by what it had cost itself. -/
theorem costs_runWriteHandler (handler : WriteHandler) (n : ℕ) (s : AsyncConnection) :
    Costs (if s.itsSentBytes + n < s.itsResponseString.length then
      (Activity.write handler []).price else (Activity.write handler []).price - 1) s
      (runWriteHandler srv a handler .success n s) := by
  cases handler with
  | writeRegularReply =>
    exact costs_continueWrite srv a .writeRegularReply n id (fun u =>
      (costs_notifyBackendFinished .exitOk u).behind (costs_finishResponse srv _)) s
  | writeStreamReply =>
    exact costs_continueWrite srv a .writeStreamReply n (logAndNotify a)
      (costs_scheduleGetter srv a .getNextChunk) s
  | writeChunkedReply =>
    exact costs_continueWrite srv a .writeChunkedReply n (logAndNotify a)
      (costs_scheduleGetter srv a .getNextChunkedChunk) s
  | finalizeChunkedReply =>
    exact costs_continueWrite srv a .finalizeChunkedReply n finalizeStreamLogging (fun u =>
      (costs_finalizeStreamLogging u).behind (costs_finishResponse srv _)) s

/-- A failed write goes on with nothing. -/
theorem costs_runWriteHandler_failed (handler : WriteHandler) (s : AsyncConnection) :
    Costs 0 s (runWriteHandler srv a handler .other 0 s) := by
  cases handler with
  | writeRegularReply =>
    exact costs_continueWrite_failed srv a .writeRegularReply
      (fun s => finishResponse srv (notifyBackendFinished .exitOk s)) Costs.refl s
  | writeStreamReply =>
    exact costs_continueWrite_failed srv a .writeStreamReply (scheduleChunkGetter srv a)
      (costs_logAndNotify a) s
  | writeChunkedReply =>
    exact costs_continueWrite_failed srv a .writeChunkedReply (scheduleChunkedChunkGetter srv a)
      (costs_logAndNotify a) s
  | finalizeChunkedReply =>
    exact costs_continueWrite_failed srv a .finalizeChunkedReply
      (fun s => finishResponse srv (finalizeStreamLogging s)) costs_finalizeStreamLogging s

/-- The timer costs nothing. -/
theorem costs_handleTimer (err : ErrorCode) (generation : ℕ) (s : AsyncConnection) :
    Costs 0 s (handleTimer srv a err generation s) := by
  unfold handleTimer
  split
  · exact Costs.refl s
  split
  · exact Costs.refl s
  let t : AsyncConnection := { s with hasTimedOut := true }
  have ht : Costs 0 s t := Costs.silent rfl rfl rfl
  dsimp only
  split
  · exact ht.behind (costs_closeSocket t)
  · have hclose : Costs 0 t { t with itsKeepAlive := false } := Costs.silent rfl rfl rfl
    exact ht.behind (hclose.behind (costs_sendStockReply_closing srv a .requestTimeout rfl))

/-! ## A step -/

/-- A write that succeeds sends something, if there is anything to send: so
`async_write_some`. -/
def moves (s : AsyncConnection) : Event → Bool
  | .writeSome i n _ =>
    match s.world.outstanding[i]? with
    | some (.write _ buffer) => buffer.isEmpty || 0 < n
    | _ => true
  | _ => true

/-- The activity that completes frees its price. -/
theorem work_release {i : ℕ} {y : Activity} (hi : s.world.outstanding[i]? = some y) :
    (s.release i).work + y.price = s.work := by
  have hload := load_release hi
  show load (s.world.outstanding.eraseIdx i) + 6 * s.itsBuffer.length +
    (if s.itsIdle then 2 else 0) + s.remaining + y.price = s.work
  unfold work
  omega

/-- The activity that is taken up pays for its handler. -/
theorem pays_of_costs {i : ℕ} {y : Activity} (hi : s.world.outstanding[i]? = some y)
    (h : Costs k (s.release i) t) (hk : k + 1 ≤ y.price) :
    t.work + credit s.world.trace + 1 ≤ s.work + credit t.world.trace := by
  have hrelease := work_release hi
  have h' : t.work + credit s.world.trace ≤ (s.release i).work + k + credit t.world.trace := h
  omega

/-- A part of a response pays for what is left of it. -/
theorem pays_writeSome {i n : ℕ} {handler : WriteHandler} {buffer : Bytes} (hinv : Inv srv s)
    (hi : s.world.outstanding[i]? = some (.write handler buffer)) (hn : n ≤ buffer.length)
    (hmoves : (buffer.isEmpty || decide (0 < n)) = true) :
    (runWriteHandler srv a handler .success n
        ((s.release i).emit (.wrote .handler (buffer.take n)))).work + credit s.world.trace + 1 ≤
      s.work + credit (runWriteHandler srv a handler .success n
        ((s.release i).emit (.wrote .handler (buffer.take n)))).world.trace := by
  let t := (s.release i).emit (.wrote .handler (buffer.take n))
  have hprice := price_write handler buffer []
  have hpos := price_pos (.write handler [])
  have hcredit : credit t.world.trace = n + credit s.world.trace := by
    have hcons := credit_cons (.wrote .handler (buffer.take n)) s.world.trace
    have hlen : (buffer.take n).length = n := List.length_take_of_le hn
    rw [← hlen]
    exact hcons
  have hrelease := work_release hi
  have hwork : t.work = (s.release i).work := rfl
  have hcost := costs_runWriteHandler srv a handler n t
  show (runWriteHandler srv a handler .success n t).work + credit s.world.trace + 1 ≤
    s.work + credit (runWriteHandler srv a handler .success n t).world.trace
  unfold Costs at hcost
  split at hcost
  · rename_i hlt
    -- the buffer of the write is what is left of the response
    obtain ⟨hrel, -, hph⟩ := hinv.released srv hi
    have hbuf : s.itsResponseString.drop s.itsSentBytes = buffer := by
      cases handler with
      | writeRegularReply => exact hph.1.buffer
      | writeStreamReply => exact hph.1.buffer
      | writeChunkedReply => exact hph.1.buffer
      | finalizeChunkedReply => exact hph.1.buffer
    have hpos : 0 < n := by
      rcases Bool.or_eq_true_iff.mp hmoves with hnil | hpos
      · have hlt' : s.itsSentBytes + n < s.itsResponseString.length := hlt
        rw [List.isEmpty_iff] at hnil
        rw [hnil, List.drop_eq_nil_iff] at hbuf
        omega
      · exact of_decide_eq_true hpos
    omega
  · omega

/-- **A handler is paid for**, by the activity it ends, the bytes that have arrived or the
bytes that were sent. -/
theorem pays_step
    (hparse : ∀ b r n, srv.spine.parseOneRequest b = .complete r n → 0 < n ∧ n ≤ b.length)
    {s s' : AsyncConnection} {e : Event} (hinv : Inv srv s) (hmoves : s.moves e = true)
    (h : step srv s e = some s') :
    s'.work + credit s.world.trace + (if e.isHandler then 1 else 0) ≤
      s.work + credit s'.world.trace := by
  cases e with
  | handshake i ok =>
    simp only [step] at h
    split at h
    · rename_i hi
      obtain rfl := Option.some.inj h
      refine pays_of_costs (k := 1) hi ?_ (Nat.le_refl 2)
      unfold handleHandshake
      split
      · exact costs_await _ .read
      · exact (costs_closeSocket _).mono (Nat.zero_le 1)
    · cases h
  | receive i bytes =>
    simp only [step] at h
    split at h
    · rename_i hi
      split at h
      · rename_i hok
        obtain rfl := Option.some.inj h
        have hlen : 0 < bytes.length := List.length_pos_of_ne_nil hok.1
        have hread : (s.release i).work + 1 = s.work := work_release hi
        let t := (s.release i).emit (.received bytes)
        -- each byte brings in eight: two for the call of `handleRead`, six for what it starts
        have hcredit : credit t.world.trace = 8 * bytes.length + credit s.world.trace :=
          credit_cons (.received bytes) s.world.trace
        have hpost : (t.await (.handleRead bytes)).work + credit t.world.trace ≤
            (s.release i).work + (2 + 6 * bytes.length) + credit t.world.trace :=
          costs_await t (.handleRead bytes)
        show (t.await (.handleRead bytes)).work + credit s.world.trace + 1 ≤
          s.work + credit t.world.trace
        omega
      · cases h
    · cases h
  | readFails i err a =>
    simp only [step] at h
    split at h
    · rename_i hi
      split at h
      · rename_i herr
        obtain rfl := Option.some.inj h
        obtain ⟨hrel, -, hph⟩ := hinv.released srv hi
        have hr : Reading srv s.bare := hph
        refine pays_of_costs (k := 0) hi ?_ (Nat.le_refl 1)
        rw [hrel]
        unfold handleRead
        split
        · exact costs_sendStockReply_closing srv a srv.spine.shutdown hr.keepAlive
        · have hset : Costs 0 s.bare { s.bare with itsFinalStatus := err } :=
            Costs.silent rfl rfl rfl
          exact hset.behind (costs_emit _ .readError)
      · cases h
    · cases h
  | runRead i a =>
    simp only [step] at h
    split at h
    · rename_i bytes hi
      obtain rfl := Option.some.inj h
      obtain ⟨hrel, -, hph⟩ := hinv.released srv hi
      have hr : Reading srv s.bare := hph
      have hk : (s.release i).itsKeepAlive = false := by
        rw [hrel]
        exact hr.keepAlive
      refine pays_of_costs hi (costs_handleRead srv a hparse bytes hk) ?_
      show 1 + 6 * bytes.length + 1 ≤ 2 + 6 * bytes.length
      omega
    · cases h
  | runTask i a =>
    simp only [step] at h
    split at h
    · rename_i pool task hi
      obtain rfl := Option.some.inj h
      exact pays_of_costs hi (costs_runTask srv a task _) (Nat.le_refl 7)
    · cases h
  | writeSome i n a =>
    simp only [step] at h
    split at h
    · rename_i handler buffer hi
      split at h
      · rename_i hn
        obtain rfl := Option.some.inj h
        simp only [moves, hi] at hmoves
        exact pays_writeSome srv a hinv hi hn.1 hmoves
      · cases h
    · cases h
  | writeFails i a =>
    simp only [step] at h
    split at h
    · rename_i handler buffer hi
      obtain rfl := Option.some.inj h
      have hfail : Costs 0 (s.release i) (s.release i).failWrite :=
        (costs_emit (s.release i) (.writeError .handler)).behind (Costs.refl _)
      exact pays_of_costs hi (hfail.behind (costs_runWriteHandler_failed srv a handler _))
        (price_pos _)
    · cases h
  | timerExpires =>
    simp only [step] at h
    split at h
    · rename_i hany
      obtain rfl := Option.some.inj h
      -- the waits that run out are counted in what is left of the timer
      have hrem := remaining_expire hany
      show load s.world.outstanding + 6 * s.itsBuffer.length + (if s.itsIdle then 2 else 0) +
        s.expire.remaining + credit s.world.trace + 1 ≤ s.work + credit s.world.trace
      unfold work
      omega
    · cases h
  | runTimer generation a =>
    simp only [step] at h
    split at h
    · rename_i w hw
      obtain ⟨hmem, -, -⟩ := readyWait_spec hw
      obtain rfl := Option.some.inj h
      let t : AsyncConnection := { s with world.waits := s.world.waits.erase w }
      have hrem : t.remaining + 1 ≤ s.remaining := remaining_erase hmem
      have ht : t.work + 1 ≤ s.work := by
        show load s.world.outstanding + 6 * s.itsBuffer.length + (if s.itsIdle then 2 else 0) +
          t.remaining + 1 ≤ s.work
        unfold work
        omega
      -- a wait is taken out, and its handler costs nothing
      let err : ErrorCode := if w.status = .aborted then .operationAborted else .success
      have hcost : (handleTimer srv a err generation t).work + credit s.world.trace ≤
          t.work + 0 + credit (handleTimer srv a err generation t).world.trace :=
        costs_handleTimer srv a err generation t
      show (handleTimer srv a err generation t).work + credit s.world.trace + 1 ≤
        s.work + credit (handleTimer srv a err generation t).world.trace
      omega
    · cases h
  | requestShutdown =>
    obtain rfl := Option.some.inj h
    exact Nat.le_refl _

/-! ## A run -/

/-- From a state the invariant holds of, the handlers of a run are covered by the work
there was and what has passed through the connection since. -/
theorem handlers_bounded_from
    (hparse : ∀ b r n, srv.spine.parseOneRequest b = .complete r n → 0 < n ∧ n ≤ b.length)
    {s s' : AsyncConnection} {es : List Event} (hinv : Inv srv s)
    (hmoves : Transition.Along (step srv) (fun s e => s.moves e = true) s es)
    (hrun : runFrom srv s es = some s') :
    es.countP Event.isHandler + s'.work + credit s.world.trace ≤
      s.work + credit s'.world.trace :=
  (Transition.count_add_potential_le (P := Inv srv) (G := Event.isHandler) work
    (fun s => credit s.world.trace)
    (fun _ _ _ hs hm h => ⟨inv_step srv hs h, pays_step srv hparse hs hm h⟩)
    hinv hmoves hrun).2

/-- A connection that has just been accepted. -/
theorem work_start : (start srv).work ≤ 4 := by
  unfold start
  dsimp only
  split
  · exact Nat.le_refl 4
  · exact Nat.le_succ 3

/-- **The handlers are bounded by what passes through the connection.**  However the
handlers are called, there are at most four of them, eight for each byte that has
arrived, one for each byte that was sent, and two for each chunk of a streamer. -/
theorem handlers_bounded
    (hparse : ∀ b r n, srv.spine.parseOneRequest b = .complete r n → 0 < n ∧ n ≤ b.length)
    {s : AsyncConnection} {es : List Event} (hrun : runFrom srv (start srv) es = some s)
    (hmoves : Transition.Along (step srv) (fun s e => s.moves e = true) (start srv) es) :
    es.countP Event.isHandler ≤ 4 + 8 * (receivedOf s.world.trace).length +
      ((wireOf s.world.trace).flatMap Prod.snd).length + 2 * (chunksOf s.world.trace).length := by
  have hbound := handlers_bounded_from srv hparse (inv_start srv) hmoves hrun
  have hstart := work_start srv
  have hcredit : credit s.world.trace = 8 * (receivedOf s.world.trace).length +
    ((wireOf s.world.trace).flatMap Prod.snd).length + 2 * (chunksOf s.world.trace).length := rfl
  omega

/-- The bound on a run with a chunked reply. -/
theorem handlers_bounded_chunked :
    ∃ s, runFrom MinimalSpine.server (start MinimalSpine.server) chunkedRun = some s ∧
      chunkedRun.countP Event.isHandler ≤ 4 + 8 * (receivedOf s.world.trace).length +
        ((wireOf s.world.trace).flatMap Prod.snd).length + 2 * (chunksOf s.world.trace).length := by
  obtain ⟨s, hs, -⟩ := MinimalSpine.reached chunkedRun (fun _ => true) (by decide +kernel)
  refine ⟨s, hs, handlers_bounded MinimalSpine.server (fun b r n h => ?_) hs (by decide +kernel)⟩
  exact ⟨MinimalSpine.stable_parseBodyless.consumed_pos b r n h,
    MinimalSpine.stable_parseBodyless.consumed_le b r n h⟩

end AsyncConnection

end SmartMet
