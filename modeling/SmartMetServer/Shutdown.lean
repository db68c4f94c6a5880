/-
# A connection behind a shutdown

When the server is being shut down, what was taken up is brought to its end and
nothing else is begun: no request is taken from the buffer, no handler is called
but the one that was queued, and the connection is not re-armed.

* `Winding` : what the code does behind a shutdown;
* `winding_step`, `admitted_step` : one step;
* `shutdown_winds_up` : every run from there on.
-/
import SmartMetServer.Draining
import SmartMetServer.Terms

namespace SmartMet

open Exchange

/-- Events that neither take up a request nor end an exchange. -/
def Obs.Late (o : Obs) : Prop := o ≠ .rearmed ∧ ∀ r, o ≠ .parsed r

/-- The message of a reply, and that of the events behind it. -/
def Outcome.Speaks (m : Message) : Outcome → Prop
  | .reply m' _ books => m = m' ∨ m = .handler ∧ books ≠ .none
  | _ => False

/-- The handler of a request that waits in the queue of an executor. -/
def Activity.isQueued : Activity → Bool
  | .task _ (.handleCompletedRead _) => true
  | _ => false

/-- The events that neither run a task nor complete a write. -/
def Event.Reads : Event → Prop
  | .runTask _ _ => False
  | .writeSome _ _ _ => False
  | .writeFails _ _ => False
  | _ => True

namespace AsyncConnection

variable {srv : Server}

/-- The code between `s` and `t` takes nothing from the buffer; its events are in `A`. -/
structure Winding (A : Obs → Prop) (s t : AsyncConnection) : Prop where
  events : ∃ new, t.world.trace = new ++ s.world.trace ∧ ∀ o ∈ new, A o
  buffer : t.itsBuffer = s.itsBuffer
  shutdown : t.world.shutdownRequested = s.world.shutdownRequested

namespace Winding

variable {A B : Obs → Prop} {s t u : AsyncConnection}

theorem refl (s : AsyncConnection) : Winding A s s := by
  refine ⟨⟨[], rfl, ?_⟩, rfl, rfl⟩
  intro o ho
  cases ho

theorem trans (h : Winding A s t) (h' : Winding A t u) : Winding A s u := by
  obtain ⟨n, hn, ha⟩ := h.events
  obtain ⟨n', hn', ha'⟩ := h'.events
  refine ⟨⟨n' ++ n, ?_, ?_⟩, h'.buffer.trans h.buffer, h'.shutdown.trans h.shutdown⟩
  · rw [hn', hn, List.append_assoc]
  · intro o ho
    rcases List.mem_append.mp ho with ho | ho
    · exact ha' o ho
    · exact ha o ho

theorem mono (h : Winding A s t) (hab : ∀ o, A o → B o) : Winding B s t := by
  obtain ⟨n, hn, ha⟩ := h.events
  exact ⟨⟨n, hn, fun o ho => hab o (ha o ho)⟩, h.buffer, h.shutdown⟩

theorem of_stretch (h : Stretch A s t) : Winding A s t := by
  obtain ⟨n, hn, ha⟩ := h.events
  exact ⟨⟨n, hn, fun o ho => (ha o ho).1⟩, h.buffer, h.shutdown⟩

/-- No event takes up a request or ends an exchange. -/
theorem late (h : Winding A s t) (hA : ∀ o, A o → o.Late) :
    parsedOf t.world.trace = parsedOf s.world.trace ∧
      past t.world.trace = past s.world.trace ∧
      t.exchange.requests = s.exchange.requests ∧
      ∀ R : Exchange → Prop, (∀ o, A o → ∀ x, R x → R (x.observe o)) →
        R s.exchange → R t.exchange := by
  obtain ⟨new, hnew, ha⟩ := h.events
  have hkept : ∀ R : Exchange → Prop, (∀ o, A o → ∀ x, R x → R (x.observe o)) →
      R s.exchange → past t.world.trace = past s.world.trace ∧ R t.exchange := by
    intro R hR hs
    unfold exchange
    rw [hnew]
    exact current_kept hs fun o ho => ⟨(hA o (ha o ho)).1, hR o (ha o ho)⟩
  have hrequests := hkept (fun x => x.requests = s.exchange.requests) (fun o ho x hx => by
    cases o with
    | parsed r => exact absurd rfl ((hA _ ho).2 r)
    | _ => exact hx) rfl
  refine ⟨?_, hrequests.1, hrequests.2, fun R hR hs => (hkept R hR hs).2⟩
  rw [hnew]
  exact parsedOf_append fun o ho => (hA o (ha o ho)).2

end Winding

/-! ## One step -/

variable (srv)

theorem stretch_books (books : Books) (s : AsyncConnection) :
    Winding (fun o => o.Late ∧ ∀ m b, o = .wrote m b → m = .handler ∧ books ≠ .none) s
      (books.keep s) := by
  by_cases hb : books = .none
  · obtain rfl := hb
    exact Winding.refl s
  · refine (Winding.of_stretch (stretch_keep books s)).mono fun o ho => ?_
    cases o with
    | wrote m b =>
      cases m with
      | handler => exact ⟨by simp [Obs.Late], fun m b h => ⟨(Obs.wrote.inj h).1.symm, hb⟩⟩
      | _ => exact absurd ho id
    | rearmed => exact absurd ho id
    | parsed r => exact absurd ho id
    | _ => simp [Obs.Late]

/-- The last call behind a shutdown. -/
theorem winding_run (a : Answers) {x : Outcome}
    (hs : x.state.world.shutdownRequested = true) :
    Winding (fun o => o.Late ∧ ∀ m b, o = .wrote m b → x.Speaks m) x.state (x.run srv a) := by
  have hfinish : ∀ t : AsyncConnection, t.world.shutdownRequested = true →
      finishResponse srv t = t := by
    intro t ht
    unfold finishResponse mayReuse
    rw [ht, Bool.not_true, Bool.and_false, if_neg (by simp)]
  cases x with
  | stop s => exact Winding.refl s
  | finish s =>
    show Winding _ s (finishResponse srv s)
    rw [hfinish s hs]
    exact Winding.refl s
  | reply m s books =>
    have hsend : Winding (fun o => o.Late ∧ ∀ m' b, o = .wrote m' b → m' = m) s
        (sendSimpleReply srv a m s) := by
      unfold sendSimpleReply
      cases headersToString srv.spine s.itsResponse with
      | none => exact Winding.refl s
      | some head =>
        let t := writeContent a m (writeHead a m head s)
        have hst : Stretch (Threads.WriteEvent m) s t :=
          (Threads.stretch_writeHead a m head s).trans
            ((Threads.stretch_write m _ a.contentWrite _).trans (Stretch.silent rfl))
        have hw : Winding (fun o => o.Late ∧ ∀ m' b, o = .wrote m' b → m' = m) s t := by
          refine (Winding.of_stretch hst).mono fun o ho => ?_
          rcases ho with ⟨r, h, rfl⟩ | ⟨b, rfl⟩ | rfl
          · simp [Obs.Late]
          · exact ⟨by simp [Obs.Late], fun m' b' h => (Obs.wrote.inj h).1.symm⟩
          · simp [Obs.Late]
        show Winding _ s (if t.itsKeepAlive then finishResponse srv t else closeSocket t)
        split
        · rw [hfinish t (hw.shutdown.trans hs)]
          exact hw
        · refine hw.trans ⟨⟨[.closed], rfl, ?_⟩, rfl, rfl⟩
          simp [Obs.Late]
    refine (hsend.mono fun o ho => ⟨ho.1, fun m' b h => Or.inl (ho.2 m' b h)⟩).trans
      ((stretch_books books _).mono fun o ho => ⟨ho.1, fun m' b h => Or.inr (ho.2 m' b h)⟩)

theorem shutdown_handleTimer (a : Answers) (err : ErrorCode) (generation : ℕ)
    (s : AsyncConnection) :
    (Tail.handleTimer srv a err generation s).state.world.shutdownRequested =
      s.world.shutdownRequested := by
  unfold Tail.handleTimer
  split
  · rfl
  split
  · rfl
  dsimp only
  split
  · rfl
  · rfl

/-- The shutdown is not taken back. -/
theorem shutdown_tail {s : AsyncConnection} {e : Event} {x : Outcome}
    (hs : s.world.shutdownRequested = true) (h : Tail.step srv s e = some x) :
    x.state.world.shutdownRequested = true := by
  cases e with
  | handshake i ok =>
    simp only [Tail.step, step] at h
    split at h
    · obtain rfl := Option.some.inj h
      show (handleHandshake ok (s.release i)).world.shutdownRequested = true
      unfold handleHandshake
      split
      · exact hs
      · exact hs
    · cases h
  | receive i bytes =>
    simp only [Tail.step, step] at h
    split at h
    · split at h
      · obtain rfl := Option.some.inj h
        exact hs
      · cases h
    · cases h
  | readFails i err a =>
    simp only [Tail.step] at h
    split at h
    · split at h
      · obtain rfl := Option.some.inj h
        unfold Tail.handleRead
        split
        · exact hs
        · exact hs
      · cases h
    · cases h
  | runRead i a =>
    simp only [Tail.step] at h
    split at h
    · obtain rfl := Option.some.inj h
      unfold Tail.handleRead
      rw [if_pos (show (s.release i).world.shutdownRequested = true from hs)]
      exact hs
    · cases h
  | runTask i a =>
    simp only [Tail.step] at h
    split at h
    · rename_i pool task _
      obtain rfl := Option.some.inj h
      cases task with
      | handleCompletedRead view => exact (stretch_handleCompletedRead srv a _).shutdown.trans hs
      | getNextChunk => exact (stretch_getNextChunk srv a _).shutdown.trans hs
      | getNextChunkedChunk => exact (stretch_getNextChunkedChunk srv a _).shutdown.trans hs
    · cases h
  | writeSome i n a =>
    simp only [Tail.step] at h
    split at h
    · split at h
      · obtain rfl := Option.some.inj h
        exact (stretch_runWriteHandler srv a _ _ n _).shutdown.trans hs
      · cases h
    · cases h
  | writeFails i a =>
    simp only [Tail.step] at h
    split at h
    · obtain rfl := Option.some.inj h
      exact (stretch_runWriteHandler srv a _ _ 0 _).shutdown.trans hs
    · cases h
  | timerExpires =>
    simp only [Tail.step, step] at h
    split at h
    · obtain rfl := Option.some.inj h
      exact hs
    · cases h
  | runTimer generation a =>
    simp only [Tail.step] at h
    split at h
    · obtain rfl := Option.some.inj h
      exact (shutdown_handleTimer srv a _ generation _).trans hs
    · cases h
  | requestShutdown =>
    obtain rfl := Option.some.inj h
    rfl

/-- What stands in front of the last call behind a shutdown: nothing in a read. -/
theorem winding_tail {s : AsyncConnection} {e : Event} {x : Outcome}
    (hs : s.world.shutdownRequested = true) (h : Tail.step srv s e = some x) :
    Winding (fun o => o.Late ∧ StepEvent srv e o ∧ ∀ i a, e ≠ .runRead i a) s x.state := by
  by_cases he : ∃ i a, e = .runRead i a
  · obtain ⟨i, a, rfl⟩ := he
    simp only [Tail.step] at h
    split at h
    · obtain rfl := Option.some.inj h
      unfold Tail.handleRead
      rw [if_pos (show (s.release i).world.shutdownRequested = true from hs)]
      exact ⟨⟨[], rfl, by simp⟩, rfl, rfl⟩
    · cases h
  · have hread : ∀ i a, e ≠ .runRead i a := fun i a h => he ⟨i, a, h⟩
    obtain ⟨new, hnew, hev⟩ := (trail_step srv h).events
    refine ⟨⟨new, hnew, fun o ho => ?_⟩, (unlooked_tail srv h hread).buffer,
      (shutdown_tail srv hs h).trans hs.symm⟩
    have hstep := (hev o ho).1
    exact ⟨⟨not_rearmed_of_stepEvent srv hstep, not_parsed_of_stepEvent srv hread hstep⟩, hstep,
      hread⟩

theorem winding_step {s s' : AsyncConnection} {e : Event}
    (hs : s.world.shutdownRequested = true) (h : step srv s e = some s') :
    Winding Obs.Late s s' := by
  obtain ⟨x, hx, rfl⟩ := exists_outcome srv h
  exact ((winding_tail srv hs hx).mono fun _ ho => ho.1).trans
    ((winding_run srv e.answers (shutdown_tail srv hs hx)).mono fun _ ho => ho.1)

/-! ## What a connection still says -/

/-- The replies of a connection that is not answering a request. -/
def partingStatuses : List Status := [srv.spine.shutdown, .requestTimeout]

variable {srv} in
/-- A task or a write belongs to a request. -/
theorem Inv.reads {s : AsyncConnection} {e : Event} {x : Outcome} (h : Inv srv s)
    (hq : s.exchange.requests = []) (hx : Tail.step srv s e = some x) : e.Reads := by
  have hidle : ∀ {i : ℕ} {y : Activity}, s.world.outstanding[i]? = some y → ¬ y.Works := by
    intro i y hi hy
    have hph := (h.released srv hi).2.2
    have hone : ∀ {t : AsyncConnection}, Answering t → t.exchange.requests ≠ [] := by
      intro t ht
      obtain ⟨r, hr, -⟩ := ht.request
      rw [hr]
      simp
    rcases y with _ | _ | bytes | ⟨pool, task⟩ | ⟨_ | _ | _ | _, buffer⟩
    · exact hy
    · exact hy
    · exact hy
    · exact h.requests_of_task srv hi hq
    · exact hone hph.1.toAnswering hq
    · exact hone hph.1.toAnswering hq
    · exact hone hph.1.toAnswering hq
    · exact hone hph.1.toAnswering hq
  cases e with
  | runTask i a =>
    simp only [Tail.step] at hx
    split at hx
    · rename_i hi
      exact hidle hi trivial
    · cases hx
  | writeSome i n a =>
    simp only [Tail.step] at hx
    split at hx
    · rename_i hi
      exact hidle hi trivial
    · cases hx
  | writeFails i a =>
    simp only [Tail.step] at hx
    split at hx
    · rename_i hi
      exact hidle hi trivial
    · cases hx
  | _ => trivial

theorem speaks_handleTimer {a : Answers} {err : ErrorCode} {generation : ℕ}
    {s : AsyncConnection} {m : Message}
    (h : (Tail.handleTimer srv a err generation s).Speaks m) : m = .stock .requestTimeout := by
  unfold Tail.handleTimer at h
  split at h
  · exact absurd h id
  split at h
  · exact absurd h id
  dsimp only at h
  split at h
  · exact absurd h id
  · exact h.elim id fun h => absurd rfl h.2

/-- The replies to a read and to the expiry of the timer. -/
theorem speaks_tail {s : AsyncConnection} {e : Event} {x : Outcome} {m : Message}
    (hs : s.world.shutdownRequested = true) (he : e.Reads) (h : Tail.step srv s e = some x)
    (hm : x.Speaks m) : m.StockOf (partingStatuses srv) := by
  have hstop : ∀ {u : Option AsyncConnection}, u.map Outcome.stop = some x → False := by
    intro u hu
    obtain ⟨t, -, rfl⟩ := Option.map_eq_some_iff.mp hu
    exact hm
  have hshut : ∀ {i : ℕ} {a : Answers} {err : ErrorCode} {bytes : Bytes},
      x = Tail.handleRead srv a err bytes (s.release i) → m.StockOf (partingStatuses srv) := by
    rintro i a err bytes rfl
    unfold Tail.handleRead at hm
    rw [if_pos (show (s.release i).world.shutdownRequested = true from hs)] at hm
    exact ⟨_, List.mem_cons_self, hm.elim id fun h => absurd rfl h.2⟩
  cases e with
  | handshake i ok => exact absurd h hstop
  | receive i bytes => exact absurd h hstop
  | readFails i err a =>
    simp only [Tail.step] at h
    split at h
    · split at h
      · exact hshut (Option.some.inj h).symm
      · cases h
    · cases h
  | runRead i a =>
    simp only [Tail.step] at h
    split at h
    · exact hshut (Option.some.inj h).symm
    · cases h
  | timerExpires => exact absurd h hstop
  | runTimer generation a =>
    simp only [Tail.step] at h
    split at h
    · obtain rfl := Option.some.inj h
      exact ⟨_, List.mem_cons_of_mem _ (List.mem_singleton_self _), speaks_handleTimer srv hm⟩
    · cases h
  | requestShutdown =>
    obtain rfl := Option.some.inj h
    exact absurd hm id
  | _ => exact absurd he id

/-- A connection that has taken up no request only takes its leave. -/
theorem parting_step {s s' : AsyncConnection} {e : Event} (hinv : Inv srv s)
    (hs : s.world.shutdownRequested = true) (hq : s.exchange.requests = [])
    (h : step srv s e = some s') :
    Winding (fun o => o.Late ∧
      ∀ m b, o = .wrote m b → m.StockOf (partingStatuses srv)) s s' := by
  obtain ⟨x, hx, rfl⟩ := exists_outcome srv h
  have he := hinv.reads hq hx
  refine ((winding_tail srv hs hx).mono fun o ho => ⟨ho.1, ?_⟩).trans
    ((winding_run srv e.answers (shutdown_tail srv hs hx)).mono fun o ho =>
      ⟨ho.1, fun m b h => speaks_tail srv hs he hx (ho.2 m b h)⟩)
  rintro m b rfl
  obtain ⟨-, hev, hread⟩ := ho
  cases e with
  | runRead i a => exact absurd rfl (hread i a)
  | timerExpires => exact absurd hev id
  | requestShutdown => exact absurd hev id
  | runTask i a => exact absurd he id
  | writeSome i n a => exact absurd he id
  | writeFails i a => exact absurd he id
  | _ => cases hev

/-! ## The handlers that are still called -/

/-- The handlers that wait in the queues of the executors. -/
def queued (s : AsyncConnection) : ℕ := s.world.outstanding.countP Activity.isQueued

/-- The handlers that were called or wait to be called. -/
def admitted (s : AsyncConnection) : ℕ := (dispatchedOf s.world.trace).length + s.queued

variable {srv}

theorem Inv.queued_le {s : AsyncConnection} (h : Inv srv s) : s.queued ≤ 1 := by
  refine (List.countP_le_length).trans ?_
  rcases h.2 with ⟨ho, -⟩ | ⟨y, ho, -⟩
  · rw [ho]
    exact Nat.zero_le _
  · rw [ho]
    exact Nat.le_refl _

/-- A queued request was taken up, and its handler was not called. -/
theorem Inv.queue {s : AsyncConnection} (h : Inv srv s) (hq : s.queued ≠ 0) :
    Queued srv s.bare := by
  rcases h.2 with ⟨ho, -⟩ | ⟨y, ho, hp⟩
  · unfold queued at hq
    rw [ho] at hq
    exact absurd rfl hq
  · unfold queued at hq
    rw [ho] at hq
    rcases y with _ | _ | bytes | ⟨pool, _ | _ | _⟩ | ⟨handler, buffer⟩
    · exact absurd rfl hq
    · exact absurd rfl hq
    · exact absurd rfl hq
    · exact hp
    · exact absurd rfl hq
    · exact absurd rfl hq
    · exact absurd rfl hq

/-- A request that was taken up and has no handler yet is queued, or the connection
has nothing outstanding. -/
theorem Inv.queued_of_taken {s : AsyncConnection} (h : Inv srv s) (hr : s.exchange.requests ≠ [])
    (hd : s.exchange.dispatched = []) : s.world.outstanding = [] ∨ s.queued = 1 := by
  rcases h.2 with ⟨ho, -⟩ | ⟨y, ho, hp⟩
  · exact Or.inl ho
  · right
    unfold queued
    rw [ho]
    rcases y with _ | _ | bytes | ⟨pool, _ | _ | _⟩ | ⟨_ | _ | _ | _, buffer⟩
    · exact absurd (show Reading srv s.bare from hp).requests hr
    · exact absurd (show Reading srv s.bare from hp).requests hr
    · exact absurd (show Reading srv s.bare from hp).requests hr
    · rfl
    · exact absurd hd hp.1.dispatched
    · exact absurd hd hp.1.dispatched
    · exact absurd hd hp.1.toAnswering.dispatched
    · exact absurd hd hp.1.toAnswering.dispatched
    · exact absurd hd hp.1.toAnswering.dispatched
    · exact absurd hd hp.1.toAnswering.dispatched

/-- The handler of an exchange is called at most once. -/
theorem Traced.dispatched_le {s : AsyncConnection} (h : Traced srv s) :
    s.exchange.dispatched.length ≤ 1 := by
  rcases (h.answered _ (mem_exchanges.mpr (Or.inr rfl))).dispatched with hd | ⟨q, ip, -, hd⟩
  · rw [show s.exchange.dispatched = [] from hd]
    exact Nat.zero_le _
  · rw [show s.exchange.dispatched = _ from hd]
    exact Nat.le_refl _

/-- A step in which a handler is called takes its request from the queue. -/
theorem Inv.queued_of_called {s s' : AsyncConnection} {e : Event} (h : Inv srv s)
    (hd : s.exchange.dispatched = []) (hstep : step srv s e = some s')
    (hw : Winding Obs.Late s s') (hd' : s'.exchange.dispatched ≠ []) : s.queued = 1 := by
  have hne : ∃ i a, e = .runTask i a := by
    by_contra hno
    obtain ⟨x, hx, rfl, ht⟩ := trail_whole srv hstep
    obtain ⟨new, hnew, hev⟩ := ht.events
    obtain ⟨new', hnew', hlate⟩ := hw.events
    obtain rfl := List.append_cancel_right (hnew.symm.trans hnew')
    refine hd' ?_
    unfold exchange
    rw [hnew]
    refine (current_kept (R := fun x => x.dispatched = []) hd fun o ho => ⟨(hlate o ho).1,
      fun y hy => ?_⟩).2
    cases o with
    | dispatched r =>
      rcases (hev _ ho).1 with hs | hl
      · exact absurd rfl (not_dispatched_of_stepEvent srv (fun i a h => hno ⟨i, a, h⟩) hs r)
      · exact absurd rfl (not_dispatched_of_lastEvent srv hl r)
    | _ => exact hy
  obtain ⟨i, a, rfl⟩ := hne
  simp only [step] at hstep
  split at hstep
  · rename_i pool task hi
    rcases h.queued_of_taken (h.requests_of_task srv hi) hd with ho | hone
    · rw [ho] at hi
      simp at hi
    · exact hone
  · cases hstep

variable (srv)

/-- **No request is admitted** behind a shutdown. -/
theorem admitted_step {s s' : AsyncConnection} {e : Event} (hinv : Inv srv s)
    (ht : Traced srv s) (hs : s.world.shutdownRequested = true) (h : step srv s e = some s') :
    s'.admitted ≤ s.admitted := by
  have hw := winding_step srv hs h
  have hinv' := inv_step srv hinv h
  obtain ⟨-, hpast, hrequests, hkept⟩ := hw.late fun _ ho => ho
  have hcount : ∀ t : AsyncConnection, (dispatchedOf t.world.trace).length =
      ((past t.world.trace).reverse.flatMap Exchange.dispatched).length +
        t.exchange.dispatched.length := by
    intro t
    rw [← flatMap_dispatched, exchanges, List.flatMap_append, List.flatMap_singleton,
      List.length_append]
    rfl
  suffices hone : s'.exchange.dispatched.length + s'.queued ≤
      s.exchange.dispatched.length + s.queued by
    unfold admitted
    rw [hcount, hcount, hpast]
    omega
  have hle := (ht.step hinv h).dispatched_le
  by_cases hq : s'.queued = 0
  · by_cases hd : s.exchange.dispatched = []
    · by_cases hd' : s'.exchange.dispatched = []
      · rw [hd', hq]
        exact Nat.zero_le _
      · rw [hinv.queued_of_called hd h hw hd']
        omega
    · have hpos := List.length_pos_iff.mpr hd
      omega
  · have hqueued := hinv'.queue hq
    have hd' : s'.exchange.dispatched = [] := hqueued.direct.dispatched
    obtain ⟨r, hr, -⟩ := hqueued.request
    have htaken : s.exchange.requests ≠ [] := by
      rw [← hrequests, show s'.exchange.requests = [r] from hr]
      simp
    have hd : s.exchange.dispatched = [] := by
      by_contra hne
      refine hkept (fun x => x.dispatched ≠ []) (fun o _ x hx => ?_) hne hd'
      cases o with
      | dispatched r => exact List.append_ne_nil_of_right_ne_nil _ (by simp)
      | _ => exact hx
    have hone := hinv'.queued_le
    rcases hinv.queued_of_taken htaken hd with ho | hs
    · have ho' := (remaining_step srv ho h).1
      unfold queued at hq
      rw [ho'] at hq
      exact absurd rfl hq
    · rw [hd', List.length_nil, hs]
      omega

/-! ## Every run -/

/-- **Behind a shutdown a connection winds up.**  Whatever is called in whatever order,
no request is taken from the buffer and no exchange is ended for a next one; no handler
is called but the one that was queued, and that is at most one; and a connection that
was not answering a request says nothing but that the server is shut down or that the
time is up. -/
theorem shutdown_winds_up {s t : AsyncConnection} {es : List Event} (h : Reachable srv s)
    (hs : s.world.shutdownRequested = true) (hrun : runFrom srv s es = some t) :
    parsedOf t.world.trace = parsedOf s.world.trace ∧
      past t.world.trace = past s.world.trace ∧ t.itsBuffer = s.itsBuffer ∧
      t.admitted ≤ s.admitted ∧ s.queued ≤ 1 ∧
      (s.exchange.requests = [] → ∃ new, t.world.trace = new ++ s.world.trace ∧
        ∀ m b, .wrote m b ∈ new → m.StockOf (partingStatuses srv)) := by
  obtain ⟨hinv, ht⟩ := traced_reachable srv h
  let A : Obs → Prop := fun o => o.Late ∧
    (s.exchange.requests = [] → ∀ m b, o = .wrote m b → m.StockOf (partingStatuses srv))
  obtain ⟨-, -, hw, hle⟩ := Transition.run_preserves
    (P := fun u => Inv srv u ∧ Traced srv u ∧ Winding A s u ∧ u.admitted ≤ s.admitted)
    (fun u e u' hu hstep => by
      obtain ⟨hinv, ht, hw, hle⟩ := hu
      have hs' : u.world.shutdownRequested = true := hw.shutdown.trans hs
      refine ⟨inv_step srv hinv hstep, ht.step hinv hstep, hw.trans ?_,
        (admitted_step srv hinv ht hs' hstep).trans hle⟩
      -- before a request is taken up only the parting pages are written
      by_cases hq : s.exchange.requests = []
      · have hq' : u.exchange.requests = [] := by
          rw [(hw.late fun _ ho => ho.1).2.2.1, hq]
        exact (parting_step srv hinv hs' hq' hstep).mono fun o ho => ⟨ho.1, fun _ => ho.2⟩
      · exact (winding_step srv hs' hstep).mono fun o ho => ⟨ho, fun h => absurd h hq⟩)
    ⟨hinv, ht, Winding.refl s, Nat.le_refl _⟩ hrun
  obtain ⟨hparsed, hpast, -, -⟩ := hw.late fun _ ho => ho.1
  obtain ⟨new, hnew, hev⟩ := hw.events
  exact ⟨hparsed, hpast, hw.buffer, hle, hinv.queued_le, fun hq => ⟨new, hnew, fun m b hm =>
    (hev _ hm).2 hq m b rfl⟩⟩

/-- Of two pipelined requests the first is queued when the server is shut down. -/
def queuedRun : List Event :=
  [.receive 0 ("GET /x HTTP/1.1\r\nHost: a\r\n\r\n" ++
      "GET /x HTTP/1.1\r\nHost: a\r\n\r\n").toList,
    .runRead 0 MinimalSpine.answers, .requestShutdown]

/-- Its handler is called, and the second request stays where it is. -/
theorem shutdown_winds_up_queued :
    ∃ s t, runFrom MinimalSpine.server (start MinimalSpine.server) queuedRun = some s ∧
      runFrom MinimalSpine.server s [.runTask 0 MinimalSpine.answers] = some t ∧
      s.queued = 1 ∧ (dispatchedOf t.world.trace).length = 1 ∧ t.itsBuffer = s.itsBuffer ∧
      t.itsBuffer ≠ [] := by
  obtain ⟨s, hs, hp⟩ := MinimalSpine.reached queuedRun
    (fun s => s.world.shutdownRequested && s.queued == 1 && !s.itsBuffer.isEmpty &&
      (runFrom MinimalSpine.server s [.runTask 0 MinimalSpine.answers]).any
        (fun t => (dispatchedOf t.world.trace).length == 1)) (by decide +kernel)
  simp only [Bool.and_eq_true, beq_iff_eq, Option.any_eq_true, Bool.not_eq_true',
    List.isEmpty_eq_false_iff] at hp
  obtain ⟨⟨⟨hshut, hq⟩, hb⟩, t, ht, hd⟩ := hp
  have hbuffer := (shutdown_winds_up MinimalSpine.server ⟨_, hs⟩ hshut ht).2.2.1
  refine ⟨s, t, hs, ht, hq, hd, hbuffer, ?_⟩
  rw [hbuffer]
  exact hb

end AsyncConnection

end SmartMet
