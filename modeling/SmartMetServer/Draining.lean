/-
# The last handlers of a connection

A connection with nothing outstanding is still owned by the waits of its timer.
They are called, the last one at the latest when the timer runs out, and the object
is destroyed; and no reachable connection is in a state from which this cannot
happen.

* `drains` : what is left to a connection with nothing outstanding;
* `can_be_destroyed` : the handlers of every reachable connection can bring it there.
-/
import SmartMetServer.ChunkedReply
import SmartMetServer.Progress
import SmartMetServer.ReadDeadline
import SmartMetServer.Slots

namespace SmartMet

/-- A shutdown is no handler of the connection. -/
def Event.isHandler : Event → Bool
  | .requestShutdown => false
  | _ => true

namespace AsyncConnection

variable (srv : Server)

/-- The handlers the timer still has to call, and its expiry. -/
def remaining (s : AsyncConnection) : ℕ :=
  s.world.waits.length + if Disarmed s then 0 else 1

theorem Winds.length_le {ws ws' : List TimerWait} (h : Winds ws ws') : ws'.length ≤ ws.length := by
  obtain ⟨f, -, hs⟩ := h
  have hle := hs.length_le
  rwa [List.length_map] at hle

theorem remaining_winds {s t : AsyncConnection} (h : Winds s.world.waits t.world.waits) :
    t.remaining ≤ s.remaining := by
  have hlen := h.length_le
  unfold remaining
  by_cases hd : Disarmed s
  · rw [if_pos hd, if_pos (hd.winds h)]
    omega
  · rw [if_neg hd]
    split
    · omega
    · omega

theorem disarmed_expire (s : AsyncConnection) : Disarmed s.expire := by
  intro w hw
  obtain ⟨w', -, rfl⟩ := List.mem_map.mp (show w ∈ s.world.waits.map TimerWait.expire from hw)
  unfold TimerWait.expire
  dsimp only
  split
  · simp
  · assumption

/-- Handlers of the timer and nothing else are left. -/
theorem winds_runTimer {s s' : AsyncConnection} {generation : ℕ} {a : Answers}
    (ho : s.world.outstanding = []) (h : step srv s (.runTimer generation a) = some s') :
    s'.world.outstanding = [] ∧
      ∃ w ∈ s.world.waits, Winds (s.world.waits.erase w) s'.world.waits := by
  obtain ⟨x, hx, rfl⟩ := exists_outcome srv h
  simp only [Tail.step] at hx
  split at hx
  · rename_i w hw
    obtain ⟨hmem, -, -⟩ := readyWait_spec hw
    obtain rfl := Option.some.inj hx
    let u : AsyncConnection := { s with world.waits := s.world.waits.erase w }
    let err : ErrorCode := if w.status = .aborted then .operationAborted else .success
    have hout := (handleTimer_frame srv a err generation u).1
    refine ⟨hout.trans ho, w, hmem, ?_⟩
    have hun := unlooked_handleTimer srv a err generation u
    rcases rests_or_rearms srv a (Tail.handleTimer srv a err generation u) with hrest | hre
    · exact hun.waits.trans (.of_eq hrest.waits)
    · -- a re-armed connection would wait for something
      have hnone : (Tail.handleTimer srv a err generation u).state.world.outstanding ++
          [nextActivity (Tail.handleTimer srv a err generation u).state.itsBuffer] = [] :=
        hre.outstanding.symm.trans (hout.trans ho)
      exact absurd hnone (by simp)
  · cases hx

/-- The expiry is the last of the timer's steps that is not a handler. -/
theorem remaining_expire {s : AsyncConnection}
    (hany : (s.world.waits.any fun w => w.status == .pending) = true) :
    s.expire.remaining + 1 ≤ s.remaining := by
  have harmed : ¬ Disarmed s := by
    obtain ⟨w, hw, hp⟩ := List.any_eq_true.mp hany
    exact fun hd => hd w hw (beq_iff_eq.mp hp)
  unfold remaining
  rw [if_pos (disarmed_expire s), if_neg harmed]
  show (s.world.waits.map TimerWait.expire).length + 0 + 1 ≤ _
  rw [List.length_map]

/-- A wait whose handler is called is gone. -/
theorem remaining_erase {s : AsyncConnection} {w : TimerWait} (hw : w ∈ s.world.waits) :
    ({ s with world.waits := s.world.waits.erase w } : AsyncConnection).remaining + 1 ≤
      s.remaining := by
  have hone := List.length_erase_of_mem hw
  have hpos := List.length_pos_of_mem hw
  let t : AsyncConnection := { s with world.waits := s.world.waits.erase w }
  have hwinds : Winds s.world.waits t.world.waits := winds_erase s.world.waits w
  show (s.world.waits.erase w).length + (if Disarmed t then 0 else 1) + 1 ≤
    s.world.waits.length + (if Disarmed s then 0 else 1)
  by_cases hd : Disarmed s
  · rw [if_pos hd, if_pos (hd.winds hwinds)]
    omega
  · rw [if_neg hd]
    split
    · omega
    · omega

/-- A step of a connection with nothing outstanding. -/
theorem remaining_step {s s' : AsyncConnection} {e : Event} (ho : s.world.outstanding = [])
    (h : step srv s e = some s') : s'.world.outstanding = [] ∧
      if e.isHandler then s'.remaining + 1 ≤ s.remaining else s'.remaining ≤ s.remaining := by
  cases e with
  | timerExpires =>
    simp only [step] at h
    split at h
    · rename_i hany
      obtain rfl := Option.some.inj h
      exact ⟨ho, remaining_expire hany⟩
    · cases h
  | runTimer generation a =>
    obtain ⟨hout, w, hw, hwinds⟩ := winds_runTimer srv ho h
    refine ⟨hout, ?_⟩
    have hleft : s'.remaining ≤
        ({ s with world.waits := s.world.waits.erase w } : AsyncConnection).remaining :=
      remaining_winds hwinds
    have hone := remaining_erase hw
    show s'.remaining + 1 ≤ s.remaining
    omega
  | requestShutdown =>
    obtain rfl := Option.some.inj h
    exact ⟨ho, Nat.le_refl _⟩
  | _ => simp [step, ho] at h

/-- While it is owned, the timer can run out or has a handler to call. -/
theorem exists_timer_step {s : AsyncConnection} (a : Answers) (hw : s.world.waits ≠ []) :
    ∃ e s', e.isHandler = true ∧ step srv s e = some s' := by
  by_cases hd : Disarmed s
  · obtain ⟨w, hmem⟩ := List.exists_mem_of_ne_nil _ hw
    have hready : ∃ v, s.readyWait w.generation = some v := by
      refine Option.isSome_iff_exists.mp (List.find?_isSome.mpr ⟨w, hmem, ?_⟩)
      simp only [beq_self_eq_true, Bool.true_and, bne_iff_ne]
      exact hd w hmem
    obtain ⟨v, hv⟩ := hready
    refine ⟨.runTimer w.generation a, ?_⟩
    simp only [step, hv]
    exact ⟨_, rfl, rfl⟩
  · refine ⟨.timerExpires, s.expire, rfl, ?_⟩
    have hany : (s.world.waits.any fun w => w.status == .pending) = true := by
      simpa [Disarmed, List.any_eq_true] using hd
    simp only [step]
    rw [if_pos hany]
    rfl

theorem owners_le_remaining {s : AsyncConnection} (ho : s.world.outstanding = []) :
    s.owners ≤ s.remaining ∧ s.remaining ≤ s.owners + 1 := by
  unfold owners remaining
  rw [ho]
  split
  · simp
  · simp

/-- **A connection with nothing outstanding is drained.**  Whatever is called in
whatever order, nothing becomes outstanding again and at most one handler more than
there are owners is called; and as long as it is owned, one can be called. -/
theorem drains (a : Answers) {s : AsyncConnection} (ho : s.world.outstanding = []) :
    (∀ es s', runFrom srv s es = some s' → s'.world.outstanding = [] ∧
      es.countP Event.isHandler + s'.owners ≤ s.owners + 1) ∧
    (0 < s.owners → ∃ e s', e.isHandler = true ∧ step srv s e = some s') := by
  constructor
  · intro es s' hrun
    obtain ⟨ho', hle⟩ := Transition.count_add_measure_le (P := fun s => s.world.outstanding = [])
      (G := Event.isHandler) remaining (fun _ _ _ hs h => remaining_step srv hs h) ho hrun
    refine ⟨ho', ?_⟩
    have h1 := (owners_le_remaining ho').1
    have h2 := (owners_le_remaining ho).2
    omega
  · intro hpos
    refine exists_timer_step srv a fun hnil => ?_
    unfold owners at hpos
    rw [ho, hnil] at hpos
    exact absurd hpos (by simp)

/-- A connection whose client has left without a request waits for its timer alone. -/
theorem drains_eof :
    ∃ s, runFrom MinimalSpine.server (start MinimalSpine.server)
        [.readFails 0 .eof MinimalSpine.answers] = some s ∧
      s.owners = 1 ∧ ∃ e s', e.isHandler = true ∧ step MinimalSpine.server s e = some s' := by
  obtain ⟨s, hs, hp⟩ := MinimalSpine.reached [.readFails 0 .eof MinimalSpine.answers]
    (fun s => s.world.outstanding.isEmpty && s.owners == 1) (by decide +kernel)
  simp only [Bool.and_eq_true, List.isEmpty_iff, beq_iff_eq] at hp
  exact ⟨s, hs, hp.2, (drains MinimalSpine.server MinimalSpine.answers hp.1).2 (by omega)⟩

/-! ## Every connection can come to its end -/

variable {srv}

/-- A request that is not complete waits for more bytes, or is refused. -/
theorem outstanding_incomplete (a : Answers) (s : AsyncConnection) :
    ((Tail.handleIncompleteRequest srv a s).run srv a).world.outstanding = s.world.outstanding ∨
      ((Tail.handleIncompleteRequest srv a s).run srv a).world.outstanding =
        s.world.outstanding ++ [.read] := by
  have hwrite : (continued a s).world.outstanding = s.world.outstanding :=
    (World.write_delivers _ .interim _ a.interimWrite).outstanding
  unfold Tail.handleIncompleteRequest
  split
  · exact Or.inl (outstanding_sendStockReply srv (s := { s with itsKeepAlive := false }) rfl a)
  dsimp only
  rcases handleExpectContinue_cases srv a s with ⟨-, h⟩ | ⟨-, -, h⟩ |
    ⟨-, -, -, ⟨-, h⟩ | ⟨-, ⟨-, h⟩ | ⟨-, h⟩⟩⟩
  · rw [h]
    exact Or.inr rfl
  · rw [h]
    exact Or.inl (outstanding_sendStockReply srv
      (s := { s with itsExpectHandled := true, itsKeepAlive := false }) rfl a)
  · rw [h]
    exact Or.inr rfl
  · rw [h]
    exact Or.inl hwrite
  · rw [h]
    exact Or.inr (congrArg (· ++ [Activity.read]) hwrite)

/-- A look at the bytes of a client whose address cannot be told: no handler is queued. -/
theorem outstanding_look {s : AsyncConnection} (hk : s.itsKeepAlive = false) {a : Answers}
    (ha : a.peer = none) (bytes : Bytes) :
    ((Tail.handleRead srv a .success bytes s).run srv a).world.outstanding =
        s.world.outstanding ∨
      ((Tail.handleRead srv a .success bytes s).run srv a).world.outstanding =
        s.world.outstanding ++ [.read] := by
  have hswap : ∀ u : AsyncConnection, (leaveIdle srv u).world.outstanding = u.world.outstanding ∧
      (leaveIdle srv u).itsKeepAlive = u.itsKeepAlive := by
    intro u
    unfold leaveIdle
    split
    · exact ⟨rfl, rfl⟩
    · exact ⟨rfl, rfl⟩
  -- without the peer's address no request is taken up
  have hnone : ∀ u : AsyncConnection, resolveClientIP srv a u = none := by
    intro u
    unfold resolveClientIP
    rw [ha]
    split
    · rfl
    · rfl
  obtain ⟨ho, hk'⟩ := hswap { s with itsFinalStatus := .success }
  unfold Tail.handleRead
  split
  · exact Or.inl (outstanding_sendStockReply srv hk a)
  dsimp only
  rw [if_pos rfl, ← show _ = s.world.outstanding from ho]
  replace hk' := hk'.trans hk
  generalize leaveIdle srv { s with itsFinalStatus := .success } = u at hk'
  unfold Tail.handleReadBytes
  dsimp only
  split
  · exact Or.inl (outstanding_sendStockReply srv
      (s := { u with itsReceivedBytes := u.itsReceivedBytes + bytes.length }) hk' a)
  unfold Tail.parseBuffer
  split
  · unfold Tail.handleParsedRequest
    dsimp only
    rw [hnone]
    exact Or.inl rfl
  · refine Or.inl (outstanding_sendStockReply srv ?_ a)
    exact hk'
  · exact outstanding_incomplete a _

/-- A read that is outstanding can fail. -/
theorem exists_failed_read {s : AsyncConnection} (hinv : Inv srv s)
    (ho : s.world.outstanding = [.read]) (a : Answers) :
    ∃ s', step srv s (.readFails 0 .eof a) = some s' ∧ s'.world.outstanding = [] := by
  have hi : s.world.outstanding[0]? = some .read := by
    rw [ho]
    rfl
  obtain ⟨hrel, -, hph⟩ := hinv.released srv hi
  have hr : Reading srv s.bare := hph
  refine ⟨(Tail.handleRead srv a .eof [] (s.release 0)).run srv a, ?_, ?_⟩
  · rw [step_eq]
    simp only [Tail.step, hi]
    rfl
  · rw [hrel]
    unfold Tail.handleRead
    split
    · exact outstanding_sendStockReply srv (s := s.bare) hr.keepAlive a
    · rfl

/-! ## Getters whose successor is not taken -/

/-- Nothing an executor would run is outstanding. -/
def Taskless (s : AsyncConnection) : Prop := ∀ pool task, .task pool task ∉ s.world.outstanding

section Taskless

variable {s t : AsyncConnection} {a : Answers}

theorem Taskless.of_outstanding (h : Taskless s)
    (ho : t.world.outstanding = s.world.outstanding) : Taskless t := by
  unfold Taskless
  rw [ho]
  exact h

theorem Taskless.await (h : Taskless s) {y : Activity} (hy : ∀ pool task, y ≠ .task pool task) :
    Taskless (s.await y) := by
  intro pool task hmem
  rcases List.mem_append.mp hmem with hmem | hmem
  · exact h pool task hmem
  · exact hy pool task (List.mem_singleton.mp hmem).symm

theorem Taskless.finishResponse (h : Taskless s) : Taskless (finishResponse srv s) := by
  unfold AsyncConnection.finishResponse
  split
  · have harmed : Taskless (armForNextRequest srv (resetRequestState s)) := h.of_outstanding rfl
    unfold resumeReading
    split
    · exact harmed.await (by simp)
    · exact harmed.await (by simp)
  · exact h

theorem Taskless.flushPendingHeaders (h : Taskless s) : Taskless (flushPendingHeaders a s) :=
  h.of_outstanding (outstanding_flushPendingHeaders a s)

/-- The executor does not take the getter: the connection is closed behind a 503. -/
theorem Taskless.scheduleGetter (h : Taskless s) (ha : a.accepts = false) (task : Task) :
    Taskless ((Tail.scheduleGetter srv a task s).run srv a) := by
  unfold Tail.scheduleGetter
  rw [if_neg (by simp [ha])]
  exact h.of_outstanding (outstanding_sendStockReply srv
    (s := { s.emit .refused with itsKeepAlive := false }) rfl a)

theorem Taskless.finishStream (h : Taskless s) (st : StreamerStatus) :
    Taskless ((Tail.finishStream st s).run srv a) := by
  have hbooks : Taskless (notifyBackendFinished st (finalizeStreamLogging s)) :=
    h.of_outstanding ((outstanding_notifyBackendFinished st _).trans
      (outstanding_finalizeStreamLogging s))
  exact Taskless.finishResponse (hbooks.of_outstanding rfl)

theorem Taskless.getNextChunk (h : Taskless s) (ha : a.accepts = false) :
    Taskless ((Tail.getNextChunk srv a s).run srv a) := by
  have hend : ∀ st own, Taskless (Outcome.run srv a
      (if flushFails a (s.emit (.streamEnded st own)) then
        .stop (AsyncConnection.flushPendingHeaders a (s.emit (.streamEnded st own)))
      else Tail.finishStream st
        (AsyncConnection.flushPendingHeaders a (s.emit (.streamEnded st own))))) := by
    intro st own
    have hflush : Taskless
        (AsyncConnection.flushPendingHeaders a (s.emit (.streamEnded st own))) :=
      Taskless.flushPendingHeaders (h.of_outstanding rfl)
    split
    · exact hflush
    · exact hflush.finishStream st
  unfold Tail.getNextChunk
  cases getStreamingStatus a s.itsResponse with
  | ok =>
    cases nextContent a s.itsResponse with
    | none => exact h
    | some content =>
      have htake : Taskless (takeChunk content s) := h.of_outstanding rfl
      dsimp only
      split
      · exact htake.await (by simp)
      split
      · exact htake.flushPendingHeaders
      · exact htake.flushPendingHeaders.scheduleGetter ha _
  | exitOk => exact hend .exitOk _
  | exitError => exact hend .exitError _

theorem Taskless.getNextChunkedChunk (h : Taskless s) (ha : a.accepts = false) :
    Taskless ((Tail.getNextChunkedChunk srv a s).run srv a) := by
  have hended : ∀ st own, Taskless (notifyBackendFinished st (s.emit (.streamEnded st own))) :=
    fun st own => h.of_outstanding (outstanding_notifyBackendFinished st _)
  unfold Tail.getNextChunkedChunk
  cases getStreamingStatus a s.itsResponse with
  | ok =>
    cases nextContent a s.itsResponse with
    | none => exact h
    | some content =>
      have htake : Taskless (takeChunk content s) := h.of_outstanding rfl
      dsimp only
      split
      · exact htake.await (by simp)
      split
      · exact htake.flushPendingHeaders
      · exact htake.flushPendingHeaders.scheduleGetter ha _
  | exitOk => exact (hended .exitOk _).await (by simp)
  | exitError =>
    have hflush : Taskless (AsyncConnection.flushPendingHeaders a (notifyBackendFinished .exitError
        (s.emit (.streamEnded .exitError s.itsResponse.hasStreamContent)))) :=
      (hended .exitError _).flushPendingHeaders
    exact hflush.of_outstanding (outstanding_finalizeStreamLogging _)

end Taskless

/-! ## The end of what is outstanding -/

/-- The outside ends what awaits no executor: reads and writes fail, and the address of
the client cannot be told. -/
theorem exists_run_of_taskless {s : AsyncConnection} (hinv : Inv srv s) (htask : Taskless s)
    (a : Answers) :
    ∃ es s', (∀ e ∈ es, e.isHandler = true) ∧ runFrom srv s es = some s' ∧
      s'.world.outstanding = [] := by
  rcases hinv.2 with ⟨ho, -⟩ | ⟨y, ho, -⟩
  · exact ⟨[], s, fun _ he => absurd he List.not_mem_nil, rfl, ho⟩
  have hi : s.world.outstanding[0]? = some y := by
    rw [ho]
    rfl
  obtain ⟨hrel, -, hph⟩ := hinv.released srv hi
  have hone : ∀ {e : Event} {x : Outcome}, e.isHandler = true → Tail.step srv s e = some x →
      (x.run srv e.answers).world.outstanding = [] →
      ∃ es s', (∀ e ∈ es, e.isHandler = true) ∧ runFrom srv s es = some s' ∧
        s'.world.outstanding = [] := by
    intro e x he hx hnone
    refine ⟨[e], x.run srv e.answers, by simp [he], Transition.run_cons.mpr ⟨_, ?_, rfl⟩, hnone⟩
    rw [step_eq, hx]
    rfl
  cases y with
  | handshake =>
    refine hone (e := .handshake 0 false) (x := .stop (handleHandshake false (s.release 0)))
      rfl ?_ ?_
    · simp only [Tail.step, step, hi]
      rfl
    · rw [hrel]
      rfl
  | read =>
    obtain ⟨s', hstep, hnil⟩ := exists_failed_read hinv ho a
    exact ⟨[.readFails 0 .eof a], s', by simp [Event.isHandler],
      Transition.run_cons.mpr ⟨_, hstep, rfl⟩, hnil⟩
  | handleRead bytes =>
    have hr : Reading srv s.bare := hph
    let b : Answers := { a with peer := none }
    let x := Tail.handleRead srv b .success bytes (s.release 0)
    have hx : Tail.step srv s (.runRead 0 b) = some x := by
      simp only [Tail.step, hi]
      rfl
    have hlook : (x.run srv b).world.outstanding = [] ∨
        (x.run srv b).world.outstanding = [.read] := by
      have hkeep : (s.release 0).itsKeepAlive = false := hr.keepAlive
      have hnil : (s.release 0).world.outstanding = [] :=
        congrArg (fun t => t.world.outstanding) hrel
      have hlook : (x.run srv b).world.outstanding = (s.release 0).world.outstanding ∨
          (x.run srv b).world.outstanding = (s.release 0).world.outstanding ++ [.read] :=
        outstanding_look hkeep rfl bytes
      rwa [hnil] at hlook
    rcases hlook with hnil | hread
    · exact hone (e := .runRead 0 b) rfl hx hnil
    -- the read that was begun fails
    have hstep : step srv s (.runRead 0 b) = some (x.run srv b) := by
      rw [step_eq, hx]
      rfl
    obtain ⟨s', hfails, hnil⟩ := exists_failed_read (inv_step srv hinv hstep) hread a
    exact ⟨[.runRead 0 b, .readFails 0 .eof a], s', by simp [Event.isHandler],
      Transition.run_cons.mpr ⟨_, hstep, Transition.run_cons.mpr ⟨_, hfails, rfl⟩⟩, hnil⟩
  | task pool task => exact absurd (by rw [ho]; exact List.mem_singleton.mpr rfl) (htask pool task)
  | write handler buffer =>
    refine hone (e := .writeFails 0 a)
      (x := Tail.runWriteHandler srv a handler .other 0 (s.release 0).failWrite) rfl ?_ ?_
    · simp only [Tail.step, hi]
    · rw [hrel]
      have hfail : ∀ (next : AsyncConnection → Outcome) (failed : Books),
          ((Tail.continueWrite srv a handler .other 0 next failed s.bare.failWrite).run srv
            a).world.outstanding = [] := fun next failed =>
        outstanding_reply srv (s := stockResponse srv a .serviceUnavailable
          { s.bare.failWrite with itsFinalStatus := .other, itsKeepAlive := false }) rfl failed a
      cases handler with
      | writeRegularReply =>
        exact hfail (fun s => .finish (notifyBackendFinished .exitOk s)) .none
      | writeStreamReply =>
        exact hfail (Tail.scheduleGetter srv a .getNextChunk) (.logAndNotify (getStreamingStatus a))
      | writeChunkedReply =>
        exact hfail (Tail.scheduleGetter srv a .getNextChunkedChunk)
          (.logAndNotify (getStreamingStatus a))
      | finalizeChunkedReply => exact hfail (fun s => .finish (finalizeStreamLogging s)) .log

/-- The outside ends whatever is outstanding: the handler throws, the executor does not
take the next getter, and then reads and writes fail. -/
theorem exists_run_to_none {s : AsyncConnection} (hinv : Inv srv s) (a : Answers) :
    ∃ es s', (∀ e ∈ es, e.isHandler = true) ∧ runFrom srv s es = some s' ∧
      s'.world.outstanding = [] := by
  rcases hinv.2 with ⟨ho, -⟩ | ⟨y, ho, -⟩
  · exact ⟨[], s, fun _ he => absurd he List.not_mem_nil, rfl, ho⟩
  -- a task is got rid of by a handler that throws, or by a getter that is refused
  by_cases htask : ∃ pool task, y = .task pool task
  · obtain ⟨pool, task, rfl⟩ := htask
    have hi : s.world.outstanding[0]? = some (.task pool task) := by
      rw [ho]
      rfl
    obtain ⟨hrel, -, -⟩ := hinv.released srv hi
    have hbare : Taskless s.bare := fun _ _ hmem => absurd hmem List.not_mem_nil
    let b : Answers := { a with handler := .threw, accepts := false }
    have hstep : step srv s (.runTask 0 b) =
        some ((Tail.runTask srv b task (s.release 0)).run srv b) := by
      rw [step_eq]
      simp only [Tail.step, hi]
      rfl
    have hleft : Taskless ((Tail.runTask srv b task (s.release 0)).run srv b) := by
      rw [hrel]
      cases task with
      | handleCompletedRead view =>
        refine hbare.of_outstanding ?_
        show ((Tail.handleCompletedRead srv b (cancelTimer s.bare)).run srv
          b).world.outstanding = []
        unfold Tail.handleCompletedRead
        split
        · rfl
        split
        · rfl
        · rfl
      | getNextChunk => exact hbare.getNextChunk rfl
      | getNextChunkedChunk => exact hbare.getNextChunkedChunk rfl
    obtain ⟨es, s', hes, hrun, hnone⟩ :=
      exists_run_of_taskless (inv_step srv hinv hstep) hleft a
    exact ⟨.runTask 0 b :: es, s', List.forall_mem_cons.mpr ⟨rfl, hes⟩,
      Transition.run_cons.mpr ⟨_, hstep, hrun⟩, hnone⟩
  · refine exists_run_of_taskless hinv (fun pool task hmem => htask ⟨pool, task, ?_⟩) a
    rw [ho] at hmem
    exact (List.mem_singleton.mp hmem).symm

/-- The outstanding activity is ended first, and then the waits of the timer. -/
theorem exists_run_to_no_owner {s : AsyncConnection} (hinv : Inv srv s) (a : Answers) :
    ∃ es s', (∀ e ∈ es, e.isHandler = true) ∧ runFrom srv s es = some s' ∧ s'.owners = 0 := by
  obtain ⟨es, t, hes, hrun, ho⟩ := exists_run_to_none hinv a
  obtain ⟨fs, u, hfs, hrun', ho', hw⟩ := Transition.exists_run_of_measure
    (P := fun s => s.world.outstanding = []) (Q := fun s => s.world.waits = [])
    (G := fun e : Event => e.isHandler = true) remaining
    (fun v hv hne => by
      obtain ⟨e, v', he, hstep⟩ := exists_timer_step srv a hne
      obtain ⟨hv', hlt⟩ := remaining_step srv hv hstep
      rw [if_pos he] at hlt
      exact ⟨e, v', he, hstep, hv', hlt⟩) ho
  refine ⟨es ++ fs, u, List.forall_mem_append.mpr ⟨hes, hfs⟩, Transition.run_append hrun hrun', ?_⟩
  unfold owners
  rw [ho', hw]
  rfl

/-- **No connection is stuck**: from every reachable state its handlers can bring the
connection to the point where nothing owns it any more. -/
theorem can_be_destroyed {s : AsyncConnection} (h : Reachable srv s) (a : Answers) :
    ∃ es s', (∀ e ∈ es, e.isHandler = true) ∧ runFrom srv s es = some s' ∧ s'.owners = 0 :=
  exists_run_to_no_owner (inv_reachable srv h) a

/-- A chunked response is being written. -/
theorem can_be_destroyed_streaming :
    ∃ s, runFrom MinimalSpine.server (start MinimalSpine.server) (chunkedRun.take 4) = some s ∧
      s.exchange.path = some .chunked ∧ s.exchange.ended = none ∧ s.world.outstanding.length = 1 ∧
      ∃ es s', (∀ e ∈ es, e.isHandler = true) ∧ runFrom MinimalSpine.server s es = some s' ∧
        s'.owners = 0 := by
  obtain ⟨s, hs, hp⟩ := MinimalSpine.reached (chunkedRun.take 4)
    (fun s => s.exchange.path == some .chunked && s.exchange.ended == none &&
      s.world.outstanding.length == 1) (by decide +kernel)
  simp only [Bool.and_eq_true, beq_iff_eq] at hp
  exact ⟨s, hs, hp.1.1, hp.1.2, hp.2, can_be_destroyed ⟨_, hs⟩ MinimalSpine.answers⟩

end AsyncConnection

end SmartMet
