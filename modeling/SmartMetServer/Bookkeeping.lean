/-
# Every delivery is accounted for once

What the books of an exchange tell is kept by every step, but for the steps of
`Unbooked`: these end a delivery and keep no books.
-/
import SmartMetServer.Deliveries
import SmartMetServer.MinimalSpine

namespace SmartMet

/-- A task of a pool for which `P` holds. -/
def Activity.IsTask (P : Task → Prop) : Activity → Prop
  | .task _ t => P t
  | _ => False

/-- A write for whose handler `P` holds. -/
def Activity.IsWrite (P : WriteHandler → Prop) : Activity → Prop
  | .write handler _ => P handler
  | _ => False

instance (P : Task → Prop) [∀ t, Decidable (P t)] : ∀ y : Activity, Decidable (y.IsTask P)
  | .task _ t => inferInstanceAs (Decidable (P t))
  | .handshake => isFalse id
  | .read => isFalse id
  | .handleRead _ => isFalse id
  | .write _ _ => isFalse id

instance (P : WriteHandler → Prop) [∀ h, Decidable (P h)] :
    ∀ y : Activity, Decidable (y.IsWrite P)
  | .write handler _ => inferInstanceAs (Decidable (P handler))
  | .handshake => isFalse id
  | .read => isFalse id
  | .handleRead _ => isFalse id
  | .task _ _ => isFalse id

namespace AsyncConnection

variable (srv : Server)

/-- The handler of the request has given a response that is to be logged. -/
def DeliversLogged (s : AsyncConnection) : Prop := ∃ r ∈ s.exchange.handled, r.Logged

/-- A task ends a delivery and keeps no books. -/
def TaskLeaves (s : AsyncConnection) (a : Answers) : Task → Prop
  | .handleCompletedRead _ => s.HandlerLeaves srv a
  | .getNextChunk => s.DeliversLogged ∧ GetterLeaves false false a s.itsResponse
  | .getNextChunkedChunk => s.DeliversLogged ∧ GetterLeaves true false a s.itsResponse

/-- A completed write ends a delivery and keeps no books: it was that of a HEAD
reply, or the getter of the next chunk is not taken. -/
def WriteLeaves (s : AsyncConnection) (n : ℕ) (a : Answers) (handler : WriteHandler) : Prop :=
  s.DeliversLogged ∧ s.itsResponseString.length ≤ s.itsSentBytes + n ∧
    (handler = .writeRegularReply ∨
      (handler = .writeStreamReply ∨ handler = .writeChunkedReply) ∧ a.accepts = false)

/-- The steps that end a delivery and keep no books. -/
def Unbooked (s : AsyncConnection) : Event → Prop
  | .runTask i a => ∃ y ∈ s.world.outstanding[i]?, y.IsTask (s.TaskLeaves srv a)
  | .writeSome i n a => ∃ y ∈ s.world.outstanding[i]?, y.IsWrite (s.WriteLeaves n a)
  | .writeFails i _ => ∃ y ∈ s.world.outstanding[i]?,
      y.IsWrite fun handler => handler = .writeRegularReply ∧ s.DeliversLogged
  | _ => False

instance (s : AsyncConnection) : Decidable s.DeliversLogged :=
  inferInstanceAs (Decidable (∃ r ∈ s.exchange.handled, r.Logged))

instance (s : AsyncConnection) (a : Answers) : ∀ task, Decidable (s.TaskLeaves srv a task)
  | .handleCompletedRead _ => inferInstanceAs (Decidable (s.HandlerLeaves srv a))
  | .getNextChunk => inferInstanceAs (Decidable (_ ∧ _))
  | .getNextChunkedChunk => inferInstanceAs (Decidable (_ ∧ _))

instance (s : AsyncConnection) (n : ℕ) (a : Answers) (handler : WriteHandler) :
    Decidable (s.WriteLeaves n a handler) :=
  inferInstanceAs (Decidable (_ ∧ _))

instance (s : AsyncConnection) : ∀ e, Decidable (s.Unbooked srv e)
  | .runTask _ _ => inferInstanceAs (Decidable (∃ y ∈ _, _))
  | .writeSome _ _ _ => inferInstanceAs (Decidable (∃ y ∈ _, _))
  | .writeFails _ _ => inferInstanceAs (Decidable (∃ y ∈ _, _))
  | .handshake _ _ => isFalse id
  | .receive _ _ => isFalse id
  | .readFails _ _ _ => isFalse id
  | .runRead _ _ => isFalse id
  | .timerExpires => isFalse id
  | .runTimer _ _ => isFalse id
  | .requestShutdown => isFalse id

/-! ## Reading a request -/

/-- A function called in the state `s` notifies no backend, and keeps no books
behind its reply. -/
def EarlyEnd (s : AsyncConnection) : Outcome → Prop
  | .stop t => t.itsBackendNotified = s.itsBackendNotified
  | .reply _ t books => books = .none ∧ t.itsBackendNotified = s.itsBackendNotified
  | .finish t => t.itsBackendNotified = s.itsBackendNotified

theorem earlyEnd_handleParsedRequest (a : Answers) (s : AsyncConnection) :
    EarlyEnd s (Tail.handleParsedRequest srv a s) := by
  unfold Tail.handleParsedRequest
  dsimp only
  cases hip : resolveClientIP srv a (s.emit (.parsed s.itsRequest)) with
  | none => exact rfl
  | some u =>
    obtain ⟨-, ip, rfl⟩ := resolveClientIP_eq srv a hip
    dsimp only
    split
    · exact ⟨rfl, rfl⟩
    unfold Tail.routeRequest
    split
    · exact ⟨rfl, rfl⟩
    split
    · exact ⟨rfl, rfl⟩
    dsimp only
    split
    · exact ⟨rfl, rfl⟩
    unfold Tail.scheduleRequest
    split
    · split
      · exact rfl
      · exact ⟨rfl, rfl⟩
    · dsimp only
      split
      · exact rfl
      · exact ⟨rfl, rfl⟩

theorem earlyEnd_handleIncompleteRequest (a : Answers) (s : AsyncConnection) :
    EarlyEnd s (Tail.handleIncompleteRequest srv a s) := by
  unfold Tail.handleIncompleteRequest
  split
  · exact ⟨rfl, rfl⟩
  unfold Tail.handleExpectContinue
  split
  · exact rfl
  dsimp only
  split
  · exact rfl
  split
  · exact rfl
  split
  · exact rfl
  split
  · split
    · exact rfl
    · exact rfl
  · exact ⟨rfl, rfl⟩

theorem earlyEnd_handleRead (a : Answers) (e : ErrorCode) (bytes : Bytes) (s : AsyncConnection) :
    EarlyEnd s (Tail.handleRead srv a e bytes s) := by
  have hidle : ∀ t : AsyncConnection, (leaveIdle srv t).itsBackendNotified = t.itsBackendNotified := by
    intro t
    unfold leaveIdle
    split
    · rfl
    · rfl
  have hchange : ∀ {t u : AsyncConnection} {x : Outcome}, EarlyEnd t x →
      t.itsBackendNotified = u.itsBackendNotified → EarlyEnd u x := by
    intro t u x hx ht
    cases x with
    | stop v => exact hx.trans ht
    | reply m v books => exact ⟨hx.1, hx.2.trans ht⟩
    | finish v => exact hx.trans ht
  unfold Tail.handleRead
  split
  · exact ⟨rfl, rfl⟩
  dsimp only
  split
  · unfold Tail.handleReadBytes
    dsimp only
    split
    · exact ⟨rfl, hidle _⟩
    unfold Tail.parseBuffer
    split
    · exact hchange (earlyEnd_handleParsedRequest srv a _) (hidle _)
    · exact ⟨rfl, hidle _⟩
    · exact hchange (earlyEnd_handleIncompleteRequest srv a _) (hidle _)
  · exact rfl

theorem earlyEnd_handleTimer (a : Answers) (err : ErrorCode) (generation : ℕ)
    (s : AsyncConnection) : EarlyEnd s (Tail.handleTimer srv a err generation s) := by
  unfold Tail.handleTimer
  split
  · exact rfl
  split
  · exact rfl
  dsimp only
  split
  · exact rfl
  · exact ⟨rfl, rfl⟩

/-- A step that begins no delivery. -/
theorem Accounted.earlyEnd {A : Obs → Prop} {s t : AsyncConnection} {x : Outcome} {a : Answers}
    (h : Accounted s) (hp : s.exchange.path = none) (ht : Trail A s x.state)
    (hA : ∀ o, A o → ¬ Booked o) (hx : EarlyEnd t x)
    (hs : t.itsBackendNotified = s.itsBackendNotified) : Accounted (x.run srv a) := by
  cases x with
  | stop u => exact (h.early hp ht hA (Eq.trans hx hs)).1
  | reply m u books =>
    obtain ⟨rfl, hu⟩ := hx
    obtain ⟨hacc, hpath⟩ := h.early hp ht hA (hu.trans hs)
    exact hacc.sendSimpleReply srv (Or.inl hpath) a m
  | finish u =>
    obtain ⟨hacc, hpath⟩ := h.early hp ht hA (Eq.trans hx hs)
    exact hacc.finishResponse srv (Or.inl hpath)

/-! ## A step -/

theorem not_booked_of_earlyEvent {o : Obs} (h : EarlyEvent o) : ¬ Booked o := by
  rcases h with rfl | rfl | ⟨b, rfl⟩ | ⟨g, n, rfl⟩ | ⟨r, rfl⟩ | rfl | ⟨b, rfl⟩ | rfl
  all_goals exact id

variable {srv}

/-- A task of a reply path, or a completed write, comes upon the books as they
stand. -/
theorem Accounted.released {s : AsyncConnection} (h : Accounted s) (hinv : Inv srv s) {i : ℕ}
    {y : Activity} (hi : s.world.outstanding[i]? = some y) (hp : s.exchange.path ≠ none) :
    Begun (s.release i) ∧ (s.release i).ledger.Stands [y] := by
  obtain ⟨ho, -, -, hnone⟩ := hinv.held_release hi
  refine ⟨⟨h.past, hp, hnone⟩, ?_⟩
  have hs := h.stands hp
  rw [ho] at hs
  exact hs

/-- **One step** that keeps its books. -/
theorem Accounted.step {s s' : AsyncConnection} {e : Event} (hinv : Inv srv s) (h : Accounted s)
    (hG : ¬ s.Unbooked srv e) (hstep : step srv s e = some s') : Accounted s' := by
  obtain ⟨x, hx, rfl⟩ := exists_outcome srv hstep
  -- up to the handler's call no book is opened: those steps go to `earlyEnd`
  have htrail := trail_step srv hx
  cases e with
  | handshake i ok =>
    simp only [Tail.step, AsyncConnection.step] at hx
    split at hx
    · rename_i hi
      obtain rfl := Option.some.inj hx
      refine h.earlyEnd srv (t := s) (hinv.path_of_reading hi id)
          (htrail.mono fun _ => earlyEvent_of_stepEvent srv (by simp) (by simp) (by simp))
          (fun _ => not_booked_of_earlyEvent) ?_ rfl
      show (handleHandshake ok (s.release i)).itsBackendNotified = _
      unfold handleHandshake
      split
      · rfl
      · rfl
    · cases hx
  | receive i bytes =>
    simp only [Tail.step, AsyncConnection.step] at hx
    split at hx
    · rename_i hi
      split at hx
      · obtain rfl := Option.some.inj hx
        exact h.earlyEnd srv (t := s) (hinv.path_of_reading hi id)
          (htrail.mono fun _ => earlyEvent_of_stepEvent srv (by simp) (by simp) (by simp))
          (fun _ => not_booked_of_earlyEvent) rfl rfl
      · cases hx
    · cases hx
  | readFails i err a =>
    simp only [Tail.step] at hx
    split at hx
    · rename_i hi
      split at hx
      · obtain rfl := Option.some.inj hx
        exact h.earlyEnd srv (hinv.path_of_reading hi id)
          (htrail.mono fun _ => earlyEvent_of_stepEvent srv (by simp) (by simp) (by simp))
          (fun _ => not_booked_of_earlyEvent)
          (earlyEnd_handleRead srv a err [] (s.release i)) rfl
      · cases hx
    · cases hx
  | runRead i a =>
    simp only [Tail.step] at hx
    split at hx
    · rename_i bytes hi
      obtain rfl := Option.some.inj hx
      exact h.earlyEnd srv (hinv.path_of_reading hi id)
          (htrail.mono fun _ => earlyEvent_of_stepEvent srv (by simp) (by simp) (by simp))
          (fun _ => not_booked_of_earlyEvent)
        (earlyEnd_handleRead srv a .success bytes (s.release i)) rfl
    · cases hx
  | runTask i a =>
    simp only [Tail.step] at hx
    split at hx
    · rename_i pool task hi
      obtain rfl := Option.some.inj hx
      obtain ⟨hrel, hc, hph⟩ := hinv.released srv hi
      -- a task may leave the books open, and so may a write: that is what `hG` excludes
      replace hG : ¬ s.TaskLeaves srv a task := fun hl => hG ⟨_, hi, hl⟩
      cases task with
      | handleCompletedRead view =>
        have hq : Queued srv s.bare := hph
        refine accounted_handleCompletedRead srv (s := cancelTimer (s.release i)) ?_
          hq.direct.path ?_ hq.pendingHeaders hq.direct.chunks ?_ hG
        · exact ⟨h.past, h.blank, fun hne => absurd hq.direct.path hne⟩
        · rw [hrel]
          rfl
        · exact fun hs => (hq.blank hs).streamedBytes
      | getNextChunk =>
        obtain ⟨hbegun, hopen⟩ := h.released hinv hi (Streaming.path_ne (t := s.bare) hph.2.2)
        refine Delivering.getNextChunk srv ⟨hbegun, hopen⟩ (v := false) ?_
          fun hlog hleave => hG ⟨hlog, hleave⟩
        -- with nothing pending the flush writes nothing, and cannot fail
        intro hf
        have hpending : (s.release i).itsPendingHeaders = [] := hph.2.1
        unfold flushFails World.writeFails at hf
        rw [hpending] at hf
        cases hf
      | getNextChunkedChunk =>
        obtain ⟨hbegun, hopen⟩ := h.released hinv hi (Chunking.path_ne (t := s.bare) hph.2.2)
        refine Delivering.getNextChunkedChunk srv ⟨hbegun, hopen⟩ (v := false) ?_
          fun hlog hleave => hG ⟨hlog, hleave⟩
        intro hf
        have hpending : (s.release i).itsPendingHeaders = [] := hph.2.1
        unfold flushFails World.writeFails at hf
        rw [hpending] at hf
        cases hf
    · cases hx
  | writeSome i n a =>
    simp only [Tail.step] at hx
    split at hx
    · rename_i handler buffer hi
      split at hx
      · obtain rfl := Option.some.inj hx
        obtain ⟨hbegun, hstands⟩ := h.released hinv hi
          (hinv.path_of_writing hi)
        replace hG : ¬ s.WriteLeaves n a handler := fun hl => hG ⟨_, hi, hl⟩
        -- writing closes no book; what is called behind it may
        have hwrote : Begun ((s.release i).emit (.wrote .handler (buffer.take n))) :=
          hbegun.of_ledger rfl rfl rfl
        refine hwrote.runWriteHandler srv (fun b => ?_) ?_ ?_
        · exact Ledger.stands_write hstands
        · exact fun hh hlen hlog => hG ⟨hlog, hlen rfl, Or.inl hh⟩
        · exact fun hh _ hlen ha hlog => hG ⟨hlog, hlen, Or.inr ⟨hh, ha⟩⟩
      · cases hx
    · cases hx
  | writeFails i a =>
    simp only [Tail.step] at hx
    split at hx
    · rename_i handler buffer hi
      obtain rfl := Option.some.inj hx
      obtain ⟨hbegun, hstands⟩ := h.released hinv hi
        (hinv.path_of_writing hi)
      have hfailed : Begun (s.release i).failWrite := hbegun.of_ledger rfl rfl rfl
      refine hfailed.runWriteHandler srv (fun b => ?_) ?_ ?_
      · exact Ledger.stands_write hstands
      · rintro rfl - hlog
        exact hG ⟨_, hi, rfl, hlog⟩
      · exact fun _ he => absurd he (by simp)
    · cases hx
  | timerExpires =>
    simp only [Tail.step, AsyncConnection.step] at hx
    split at hx
    · obtain rfl := Option.some.inj hx
      exact h.of_ledger rfl rfl rfl
    · cases hx
  | runTimer generation a =>
    simp only [Tail.step] at hx
    split at hx
    · rename_i w hw
      obtain rfl := Option.some.inj hx
      obtain ⟨hmem, hgen, -⟩ := readyWait_spec hw
      -- only the wait with the present stamp acts
      by_cases hg : w.generation = s.itsTimerGeneration
      · exact h.earlyEnd srv (hinv.path_of_acts hmem hg)
          (htrail.mono fun _ => earlyEvent_of_stepEvent srv (by simp) (by simp) (by simp))
          (fun _ => not_booked_of_earlyEvent)
          (earlyEnd_handleTimer srv a _ generation _) rfl
      · have hg' : generation ≠ s.itsTimerGeneration := fun he => hg (hgen.trans he)
        rw [handleTimer_inert srv (s := { s with world.waits := s.world.waits.erase w }) hg']
        exact h.of_ledger rfl rfl rfl
    · cases hx
  | requestShutdown =>
    obtain rfl := Option.some.inj hx
    exact h.of_ledger rfl rfl rfl

/-! ## Runs -/

/-- A connection that was just accepted has no books to keep. -/
theorem accounted_start : Accounted (start srv) := by
  have htrace := start_trace srv
  refine ⟨?_, fun _ => ⟨?_, ?_, ?_⟩, fun hne => absurd ?_ hne⟩
  · rw [htrace]
    intro x hx
    cases hx
  · show (account (start srv).world.trace).logged = []
    rw [htrace]
    rfl
  · show (account (start srv).world.trace).notified = []
    rw [htrace]
    rfl
  · show (start srv).itsBackendNotified = false
    unfold start
    dsimp only
    split
    · rfl
    · rfl
  · show (current (start srv).world.trace).path = none
    rw [htrace]
    rfl

/-- **Every delivery is accounted for once**: in a run without an unbooked step,
the books of every exchange whose delivery has ended are closed. -/
theorem books_closed {s : AsyncConnection} {es : List Event}
    (hrun : runFrom srv (start srv) es = some s)
    (hG : Transition.Along (step srv) (fun s e => ¬ s.Unbooked srv e) (start srv) es) :
    (∀ x ∈ pastAccounts s.world.trace, x.Settled) ∧
      (s.world.outstanding = [] → (account s.world.trace).Settled) := by
  obtain ⟨-, hacc⟩ := Transition.run_preserves_of
    (P := fun s => Inv srv s ∧ Accounted s)
    (fun _ _ _ hs hg hstep => ⟨inv_step srv hs.1 hstep, hs.2.step hs.1 hg hstep⟩) hG
    ⟨inv_start srv, accounted_start⟩ hrun
  exact ⟨hacc.past, fun ho => (settled_iff s).mp (hacc.settled (Or.inr ho))⟩

/-- A stream of five announced bytes from a backend. -/
def backendResponse : Response where
  status := some 200
  content := .stream 5
  itsOriginatingBackend := "b1".toList
  streamCompletionHandler := true

/-- The stream is sent whole to a GET. -/
def backendRun : List Event :=
  [.receive 0 "GET /x HTTP/1.1\r\nHost: h\r\n\r\n".toList, .runRead 0 MinimalSpine.answers,
    .runTask 0 { MinimalSpine.answers with
      handler := .returned true backendResponse false
      content := some "hello".toList },
    .writeSome 0 92 MinimalSpine.answers,
    .runTask 0 { MinimalSpine.answers with streamingStatus := .exitOk }]

theorem books_closed_backend :
    ∃ s, runFrom MinimalSpine.server (start MinimalSpine.server) backendRun = some s ∧
      ∃ x ∈ pastAccounts s.world.trace, ∃ r, x.exchange.handled = some r ∧ r.Logged ∧
        x.logged = [5] ∧ ∃ st, x.notified = [st] := by
  obtain ⟨s, hs, hp⟩ := MinimalSpine.reached backendRun
    (fun s => (pastAccounts s.world.trace).any fun x =>
      x.exchange.path == some .stream && x.exchange.chunks.flatten.length == 5 &&
        x.exchange.handled.any fun (r : Response) =>
          decide r.Logged && !r.itsOriginatingBackend.isEmpty)
    (by decide +kernel)
  simp only [List.any_eq_true, Option.any_eq_true, Bool.and_eq_true, beq_iff_eq,
    decide_eq_true_eq, Bool.not_eq_true', List.isEmpty_eq_false_iff] at hp
  obtain ⟨x, hx, ⟨hpath, hlength⟩, r, hr, hlogged, hbackend⟩ := hp
  obtain ⟨hlog, hnotify⟩ := (books_closed hs (by decide +kernel)).1 x hx r hr
    (by rw [hpath]; simp) hlogged
  refine ⟨s, hs, x, hx, r, hr, hlogged, ?_, hnotify hbackend⟩
  rw [hlog, hlength]

/-- **A HEAD reply keeps no books**: the response is delivered and the connection
re-armed, and nothing was logged. -/
theorem head_not_logged :
    ∃ s, Reachable MinimalSpine.server s ∧ ∃ x ∈ pastAccounts s.world.trace,
      ∃ r, x.exchange.handled = some r ∧ r.Logged ∧ x.exchange.path = some .regular ∧
        x.logged = [] ∧ ¬ x.Settled := by
  obtain ⟨s, hs, hp⟩ := MinimalSpine.reached
    [.receive 0 "HEAD /x HTTP/1.1\r\nHost: h\r\n\r\n".toList, .runRead 0 MinimalSpine.answers,
      .runTask 0 { MinimalSpine.answers with handler := .returned true backendResponse false },
      .writeSome 0 87 MinimalSpine.answers]
    (fun s => (pastAccounts s.world.trace).any fun x =>
      x.exchange.path == some .regular && x.logged == [] &&
        x.exchange.handled.any fun (r : Response) => decide r.Logged)
    (by decide +kernel)
  simp only [List.any_eq_true, Option.any_eq_true, Bool.and_eq_true, beq_iff_eq,
    decide_eq_true_eq] at hp
  obtain ⟨x, hx, ⟨hpath, hlog⟩, r, hr, hlogged⟩ := hp
  refine ⟨s, ⟨_, hs⟩, x, hx, r, hr, hlogged, hpath, hlog, ?_⟩
  intro hsettled
  have hl := (hsettled r hr (by rw [hpath]; simp) hlogged).1
  rw [hlog] at hl
  cases hl

end AsyncConnection

end SmartMet
