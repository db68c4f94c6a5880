/-
# A client that leaves

The client of a queued request may close or reset its connection.  Whether the
server notices is up to `notifyClientDisconnect`, the completion handler of a
read; `Attended` is a connection together with its client and with the reads of
that kind.  Nothing starts the first one.
-/
import SmartMetServer.MinimalSpine
import SmartMetServer.Reassembly
import SmartMetServer.Timers

namespace SmartMet

open AsyncConnection

/-- A connection and its client. -/
structure Attended where
  conn : AsyncConnection
  /-- The client has closed or reset the connection. -/
  left : Bool := false
  /-- The outstanding reads that end in `notifyClientDisconnect`. -/
  watches : ℕ := 0

/-- What happens to a connection and to its client. -/
inductive AttendedEvent where
  /-- A step of the server. -/
  | server (e : Event)
  | leave
  /-- A read that watches the client is over. -/
  | watched (e : ErrorCode)

/-- The step of the server, if it is one. -/
def AttendedEvent.server? : AttendedEvent → Option Event
  | .server e => some e
  | _ => none

namespace Attended

variable (srv : Server)

/-- `notifyClientDisconnect`: bytes of the client are ignored and the next read is
started, an error that is no cancellation is remembered. -/
def notifyClientDisconnect (e : ErrorCode) (s : Attended) : Attended :=
  match e with
  | .success => { s with watches := s.watches + 1 }
  | .operationAborted => s
  | _ => { s with conn.itsPrematurelyDisconnected := true }

/-- One step; a read that is outstanding when the client has left ends with an
error, and not because it was cancelled. -/
def step (s : Attended) : AttendedEvent → Option Attended
  | .server e => (AsyncConnection.step srv s.conn e).map fun c => { s with conn := c }
  | .leave => some { s with left := true }
  | .watched e =>
    if s.watches > 0 ∧ (s.left = true → e = .eof ∨ e = .other) then
      some (notifyClientDisconnect e { s with watches := s.watches - 1 })
    else none

/-- A connection that has just been accepted. -/
def start : Attended := { conn := AsyncConnection.start srv }

/-- The state after a run from the start of the connection. -/
def runFrom (s : Attended) (es : List AttendedEvent) : Option Attended :=
  Transition.run (step srv) s es

variable {srv}

/-! ## Nobody watches the client -/

/-- The steps of the server do not start a watching read. -/
theorem step_unwatched {s s' : Attended} {e : AttendedEvent} (h : s.watches = 0)
    (hstep : step srv s e = some s') :
    s'.watches = 0 ∧
      Transition.run (AsyncConnection.step srv) s.conn e.server?.toList = some s'.conn := by
  cases e with
  | server e =>
    obtain ⟨c, hc, rfl⟩ := Option.map_eq_some_iff.mp hstep
    exact ⟨h, Transition.run_cons.mpr ⟨c, hc, rfl⟩⟩
  | leave =>
    obtain rfl := Option.some.inj hstep
    exact ⟨h, rfl⟩
  | watched e =>
    simp [step, h] at hstep

/-- **The client's departure is not noticed**: what a run does to the connection is
what the steps of the server do. -/
theorem run_unwatched {s s' : Attended} {es : List AttendedEvent} (h : s.watches = 0)
    (hrun : runFrom srv s es = some s') :
    s'.watches = 0 ∧
      AsyncConnection.runFrom srv s.conn (es.filterMap AttendedEvent.server?) = some s'.conn := by
  induction es generalizing s with
  | nil =>
    obtain rfl := Option.some.inj hrun
    exact ⟨h, rfl⟩
  | cons e es ih =>
    obtain ⟨m, hm, hrest⟩ := Transition.run_cons.mp hrun
    obtain ⟨hw, hconn⟩ := step_unwatched h hm
    obtain ⟨hw', hrest'⟩ := ih hw hrest
    refine ⟨hw', ?_⟩
    have happend : (e :: es).filterMap AttendedEvent.server?
        = e.server?.toList ++ es.filterMap AttendedEvent.server? := by
      cases e with
      | server e => rfl
      | leave => rfl
      | watched e => rfl
    rw [happend]
    exact Transition.run_append hconn hrest'

/-! ## A request that waits for a pool thread -/

/-- Up to the start of the pool thread, only the timer and the outside go on. -/
theorem step_queued {c c' : AsyncConnection} {e : Event} {pool : Pool} {view : HandlerView}
    (ho : c.world.outstanding = [.task pool (.handleCompletedRead view)])
    (he : ∀ i a, e ≠ .runTask i a) (hstep : AsyncConnection.step srv c e = some c') :
    c'.world.outstanding = c.world.outstanding ∧ past c'.world.trace = past c.world.trace ∧
      (c'.world.socket = .closed ↔ c.world.socket = .closed ∨
        ∃ g a, e = .runTimer g a ∧ Threads.Acts c g) := by
  -- only the task is outstanding, so nothing but the timer can do something
  have hone : ∀ {i : ℕ} {y : Activity}, c.world.outstanding[i]? = some y →
      y = .task pool (.handleCompletedRead view) := by
    intro i y hy
    rw [ho] at hy
    exact List.mem_singleton.mp (List.mem_of_getElem? hy)
  have hidle : (∀ g a, e ≠ .runTimer g a) → c'.world.outstanding = c.world.outstanding →
      c'.world.trace = c.world.trace → c'.world.socket = c.world.socket →
      c'.world.outstanding = c.world.outstanding ∧ past c'.world.trace = past c.world.trace ∧
      (c'.world.socket = .closed ↔ c.world.socket = .closed ∨
        ∃ g a, e = .runTimer g a ∧ Threads.Acts c g) := by
    intro hne hout htrace hsock
    refine ⟨hout, by rw [htrace], by rw [hsock]; exact Or.inl, ?_⟩
    rintro (h | ⟨g, a, h, -⟩)
    · exact hsock.trans h
    · exact absurd h (hne g a)
  cases e with
  | runTask i a => exact absurd rfl (he i a)
  | timerExpires =>
    simp only [AsyncConnection.step] at hstep
    split at hstep
    · obtain rfl := Option.some.inj hstep
      exact hidle (by simp) rfl rfl rfl
    · cases hstep
  | requestShutdown =>
    obtain rfl := Option.some.inj hstep
    exact hidle (by simp) rfl rfl rfl
  | runTimer g a =>
    rcases Threads.runTimer_cases hstep with ⟨w, hnot, -, rfl⟩ | ⟨hacts, hexp, hb⟩
    · refine ⟨rfl, rfl, Or.inl, ?_⟩
      rintro (h | ⟨g', a', h, hacts⟩)
      · exact h
      · obtain ⟨rfl, -⟩ := Event.runTimer.inj h
        exact absurd hacts hnot
    · exact ⟨hb.outstanding, hb.past, fun _ => Or.inr ⟨g, a, rfl, hacts⟩, fun _ => hexp.socket⟩
  | _ =>
    simp only [AsyncConnection.step] at hstep
    split at hstep
    · rename_i hi
      cases hone hi
    · cases hstep

variable (srv)

/-- The time limit of the request runs out in this run: the handler of a wait acts. -/
def TimesOut (s : Attended) (es : List AttendedEvent) : Prop :=
  ∃ before g a after m, es = before ++ .server (.runTimer g a) :: after ∧
    runFrom srv s before = some m ∧ Threads.Acts m.conn g

/-- No handler is ever called for the request of this exchange. -/
def Unserved (t : Attended) (k : ℕ) : Prop :=
  ∀ es u, runFrom srv t es = some u → ∀ x, (exchanges u.conn.world.trace)[k]? = some x →
    x.dispatched = []

variable {srv}

theorem timesOut_cons {s m : Attended} {e : AttendedEvent} {es : List AttendedEvent}
    (hm : step srv s e = some m) :
    TimesOut srv s (e :: es) ↔
      (∃ g a, e = .server (.runTimer g a) ∧ Threads.Acts s.conn g) ∨ TimesOut srv m es := by
  constructor
  · rintro ⟨before, g, a, after, u, heq, hrun, hacts⟩
    cases before with
    | nil =>
      obtain ⟨rfl, -⟩ := List.cons.inj heq
      obtain rfl := Option.some.inj hrun
      exact Or.inl ⟨g, a, rfl, hacts⟩
    | cons e' before =>
      obtain ⟨rfl, rfl⟩ := List.cons.inj heq
      obtain ⟨m', hm', hrest⟩ := Transition.run_cons.mp hrun
      obtain rfl := Option.some.inj (hm.symm.trans hm')
      exact Or.inr ⟨before, g, a, after, u, rfl, hrest, hacts⟩
  · rintro (⟨g, a, rfl, hacts⟩ | ⟨before, g, a, after, u, rfl, hrun, hacts⟩)
    · exact ⟨[], g, a, es, s, rfl, rfl, hacts⟩
    · exact ⟨e :: before, g, a, after, u, rfl, Transition.run_cons.mpr ⟨m, hm, hrun⟩, hacts⟩

/-- **While a request is queued** its connection stays as it is, unless its time limit
runs out. -/
theorem run_queued {s t : Attended} {es : List AttendedEvent} {pool : Pool} {view : HandlerView}
    (hw : s.watches = 0)
    (ho : s.conn.world.outstanding = [.task pool (.handleCompletedRead view)])
    (hes : ∀ i a, .server (.runTask i a) ∉ es) (hrun : runFrom srv s es = some t) :
    t.conn.world.outstanding = s.conn.world.outstanding ∧
      past t.conn.world.trace = past s.conn.world.trace ∧
      (t.conn.world.socket = .closed ↔ s.conn.world.socket = .closed ∨ TimesOut srv s es) := by
  -- by induction on the steps: each leaves the task where it is
  induction es generalizing s with
  | nil =>
    obtain rfl := Option.some.inj hrun
    refine ⟨rfl, rfl, Or.inl, ?_⟩
    rintro (h | ⟨before, _, _, _, _, heq, -⟩)
    · exact h
    · simp at heq
  | cons e es ih =>
    obtain ⟨m, hm, hrest⟩ := Transition.run_cons.mp hrun
    have hstep : m.conn.world.outstanding = s.conn.world.outstanding ∧
        past m.conn.world.trace = past s.conn.world.trace ∧
        (m.conn.world.socket = .closed ↔ s.conn.world.socket = .closed ∨
          ∃ g a, e = .server (.runTimer g a) ∧ Threads.Acts s.conn g) := by
      have hconn := (step_unwatched hw hm).2
      cases e with
      | server e =>
        obtain ⟨c, hc, hnil⟩ := Transition.run_cons.mp hconn
        obtain rfl := Option.some.inj hnil
        obtain ⟨hout, hpast, hsock⟩ := step_queued ho
          (fun i a he => hes i a (by rw [he]; exact List.mem_cons_self)) hc
        refine ⟨hout, hpast, hsock.trans (or_congr_right ?_)⟩
        refine exists_congr fun g => exists_congr fun a => and_congr_left fun _ => ?_
        rw [AttendedEvent.server.injEq]
      | leave =>
        obtain rfl := Option.some.inj hm
        simp
      | watched e =>
        obtain hsame := Option.some.inj hconn
        rw [← hsame]
        simp
    obtain ⟨hout, hpast, hsock⟩ := ih (step_unwatched hw hm).1 (hstep.1.trans ho)
      (fun i a h => hes i a (List.mem_cons_of_mem _ h)) hrest
    refine ⟨hout.trans hstep.1, hpast.trans hstep.2.1, ?_⟩
    rw [hsock, hstep.2.2, timesOut_cons hm, or_assoc]

/-! ## The handler -/

/-- An exchange keeps its place, and what its handlers were called with. -/
theorem exchange_later (new old : List Obs) :
    ∃ x more, (exchanges (new ++ old))[(past old).length]? = some x ∧
      x.dispatched = (current old).dispatched ++ more ∧ ∀ r ∈ more, .dispatched r ∈ new := by
  have hplace : ∀ t, (exchanges t)[(past t).length]? = some (current t) := by
    intro t
    unfold exchanges
    rw [List.getElem?_append_right (by simp)]
    simp
  induction new with
  | nil => exact ⟨current old, [], hplace old, (List.append_nil _).symm, by simp⟩
  | cons o new ih =>
    obtain ⟨x, more, hx, hd, hmore⟩ := ih
    have hmore' : ∀ r ∈ more, .dispatched r ∈ o :: new := fun r hr =>
      List.mem_cons_of_mem _ (hmore r hr)
    have hlt : (past old).length < (exchanges (new ++ old)).length :=
      (List.getElem?_eq_some_iff.mp hx).1
    by_cases hr : o = .rearmed
    · subst hr
      refine ⟨x, more, ?_, hd, hmore'⟩
      have hnext : exchanges (.rearmed :: new ++ old)
          = exchanges (new ++ old) ++ [({} : Exchange)] := by
        simp [exchanges, past, current]
      rw [hnext, List.getElem?_append_left hlt]
      exact hx
    have hlen : (past old).length ≤ (past (new ++ old)).length := (past_suffix new old).length_le
    rcases hlen.lt_or_eq with hlt' | heq
    · -- the exchange was over before
      refine ⟨x, more, ?_, hd, hmore'⟩
      have hback : ∀ y : Exchange, ((past (new ++ old)).reverse ++ [y])[(past old).length]?
          = (past (new ++ old)).reverse[(past old).length]? := fun y =>
        List.getElem?_append_left (by rw [List.length_reverse]; exact hlt')
      unfold exchanges at hx ⊢
      rw [List.cons_append, past_cons hr, hback]
      rwa [hback] at hx
    · -- the exchange is under way
      have hcur : x = current (new ++ old) := by
        rw [heq, hplace] at hx
        exact (Option.some.inj hx).symm
      have hnext : (exchanges (o :: new ++ old))[(past old).length]?
          = some ((current (new ++ old)).observe o) := by
        rw [← current_cons hr, ← hplace, heq, List.cons_append, past_cons hr]
      rw [hcur] at hd
      by_cases hdis : ∃ r, o = .dispatched r
      · obtain ⟨r, rfl⟩ := hdis
        refine ⟨_, more ++ [r], hnext, ?_, ?_⟩
        · show (current (new ++ old)).dispatched ++ [r] = _
          rw [hd, List.append_assoc]
        · intro q hq
          rcases List.mem_append.mp hq with hq | hq
          · exact hmore' q hq
          · obtain rfl := List.mem_singleton.mp hq
            exact List.mem_cons_self
      · refine ⟨_, more, hnext, ?_, hmore'⟩
        rw [← hd]
        cases o with
        | dispatched r => exact absurd ⟨r, rfl⟩ hdis
        | _ => rfl

/-- The pool thread calls the handler on a socket that is not closed. -/
theorem dispatched_of_task {c c' : AsyncConnection} {i : ℕ} {pool : Pool} {view : HandlerView}
    {a : Answers} (hinv : AsyncConnection.Inv srv c)
    (hi : c.world.outstanding[i]? = some (.task pool (.handleCompletedRead view)))
    (hs : c.world.socket ≠ .closed) (hstep : AsyncConnection.step srv c (.runTask i a) = some c') :
    ∃ r new old, c'.world.trace = new ++ .dispatched r :: old ∧ past old = past c.world.trace := by
  obtain ⟨x, hx, rfl⟩ := exists_outcome srv hstep
  simp only [Tail.step, hi, Option.some.injEq] at hx
  obtain ⟨hrel, hcommon, -⟩ := hinv.released srv hi
  let u : AsyncConnection := cancelTimer c.bare
  have hcall : x = Tail.returnFromHandler srv a (Tail.called u) := by
    rw [← hx, hrel]
    show Tail.handleCompletedRead srv a u = _
    unfold Tail.handleCompletedRead
    rw [if_neg (by rw [show u.itsPrematurelyDisconnected = false from hcommon.connected]; simp),
      if_neg (show ¬ u.world.socket = .closed from hs), Tail.callHandler_eq]
  let v : AsyncConnection := Tail.called u
  have htrail : Trail (fun _ => True) v ((Tail.returnFromHandler srv a v).run srv a) :=
    ((stretch_returnFromHandler srv a v).toTrail.mono fun _ _ => trivial).trans
      ((trail_run srv a _).mono fun _ _ => trivial)
  obtain ⟨new, hnew, -⟩ := htrail.events
  rw [hcall]
  exact ⟨u.itsRequest, new, .clientStarted u.itsRequest.clientIP :: u.world.trace, hnew, rfl⟩

theorem inv_start_run {s : Attended} {es : List AttendedEvent}
    (hrun : runFrom srv (start srv) es = some s) :
    s.watches = 0 ∧ AsyncConnection.Inv srv s.conn := by
  obtain ⟨hw, hconn⟩ := run_unwatched rfl hrun
  exact ⟨hw, inv_reachable srv ⟨_, hconn⟩⟩

/-- **A client that has left is served** unless its request has timed out: the handler
of a request whose client leaves while it is queued is called in some run from the
start of the pool thread on, except where the server has closed the socket itself;
and it has done so where the time limit of the request ran out. -/
theorem unserved_iff_closed {s t t' : Attended} {es queued : List AttendedEvent} {i j : ℕ}
    {pool : Pool} {view : HandlerView} {a : Answers}
    (hrun : runFrom srv (start srv) es = some s)
    (hi : s.conn.world.outstanding[i]? = some (.task pool (.handleCompletedRead view)))
    (hqueued : runFrom srv s queued = some t) (_ : .leave ∈ queued)
    (hwaits : ∀ k b, .server (.runTask k b) ∉ queued)
    (htask : step srv t (.server (.runTask j a)) = some t') :
    (Unserved srv t' (past s.conn.world.trace).length ↔ t.conn.world.socket = .closed) ∧
      (s.conn.world.socket ≠ .closed →
        (t.conn.world.socket = .closed ↔ TimesOut srv s queued)) := by
  obtain ⟨hw, hinv⟩ := inv_start_run hrun
  obtain ⟨ho, -, -, -⟩ := hinv.held_release hi
  obtain ⟨hout, hpast, hclosed⟩ := run_queued hw ho hwaits hqueued
  obtain ⟨hw', hinv'⟩ := inv_start_run (Transition.run_append hrun hqueued)
  obtain ⟨c, hc, rfl⟩ := Option.map_eq_some_iff.mp htask
  have ho' := hout.trans ho
  -- the task that runs is the one that was queued
  have hj : t.conn.world.outstanding[j]? = some (.task pool (.handleCompletedRead view)) := by
    simp only [AsyncConnection.step] at hc
    split at hc
    · rename_i hj
      rw [hj]
      rw [ho'] at hj
      exact congrArg some (List.mem_singleton.mp (List.mem_of_getElem? hj))
    · cases hc
  refine ⟨⟨?_, ?_⟩, fun hopen => hclosed.trans (or_iff_right hopen)⟩
  · intro hun
    by_contra hs
    -- on an open socket the handler is called at once
    obtain ⟨r, new, old, htrace, hold⟩ := dispatched_of_task hinv' hj hs hc
    obtain ⟨x, more, hx, hd, -⟩ := exchange_later new (.dispatched r :: old)
    have hnone := hun [] _ rfl x (by
      rw [← hpast, ← hold, show c.world.trace = new ++ .dispatched r :: old from htrace,
        ← hx]
      rfl)
    rw [hd] at hnone
    simp [current, Exchange.observe] at hnone
  · intro hs later u hu x hx
    obtain ⟨-, hconn⟩ := run_unwatched hw' (Transition.run_cons.mpr ⟨_, htask, hu⟩)
    obtain ⟨-, new, hnew, hquiet⟩ := quiet_run srv hs hconn
    -- on a closed one the task returns, and nothing later calls a handler
    have hwaiting : AsyncConnection.Queued srv t.conn.bare := (hinv'.released srv hj).2.2
    have hnone : t.conn.exchange.dispatched = [] := hwaiting.direct.dispatched
    obtain ⟨y, more, hy, hd, hmore⟩ := exchange_later new t.conn.world.trace
    rw [hnew, ← hpast] at hx
    obtain rfl := Option.some.inj (hy.symm.trans hx)
    rw [hd, show (current t.conn.world.trace).dispatched = [] from hnone, List.nil_append]
    refine List.eq_nil_iff_forall_not_mem.mpr ?_
    intro r hr
    exact hquiet _ (hmore r hr) trivial

/-- The events up to the queue. -/
def queuedRun : List AttendedEvent :=
  [.server (.receive 0 "GET /x HTTP/1.1\r\nHost: h\r\n\r\n".toList),
    .server (.runRead 0 MinimalSpine.answers)]

/-- The client leaves, and the time limit of its request runs out in the queue. -/
theorem unserved_iff_closed_late :
    ∃ s t t', runFrom MinimalSpine.server (start MinimalSpine.server) queuedRun = some s ∧
      runFrom MinimalSpine.server s [.leave, .server .timerExpires,
        .server (.runTimer 1 MinimalSpine.answers)] = some t ∧
      step MinimalSpine.server t (.server (.runTask 0 MinimalSpine.answers)) = some t' ∧
      Unserved MinimalSpine.server t' 0 := by
  obtain ⟨s, hs, hi⟩ : ∃ s, runFrom MinimalSpine.server (start MinimalSpine.server) queuedRun
      = some s ∧ s.conn.world.outstanding[0]? = some (.task .fast (.handleCompletedRead
        { isCatchNoMatch := false, isAdminQuery := false, queryIsFast := true })) := ⟨_, rfl, rfl⟩
  obtain ⟨t, t', ht, ht', hclosed, hzero⟩ : ∃ t t', runFrom MinimalSpine.server s [.leave,
        .server .timerExpires, .server (.runTimer 1 MinimalSpine.answers)] = some t ∧
      step MinimalSpine.server t (.server (.runTask 0 MinimalSpine.answers)) = some t' ∧
      t.conn.world.socket = .closed ∧ (past s.conn.world.trace).length = 0 := by
    obtain rfl := Option.some.inj hs
    exact ⟨_, _, rfl, rfl, rfl, rfl⟩
  refine ⟨s, t, t', hs, ht, ht', ?_⟩
  have hiff := unserved_iff_closed hs hi ht (by simp) (by simp) ht'
  rw [← hzero]
  exact hiff.1.mpr hclosed

/-- **A client that has left is served**: it leaves while its request is queued, and the
handler is called. -/
theorem served_after_leaving :
    ∃ s t t', runFrom MinimalSpine.server (start MinimalSpine.server) queuedRun = some s ∧
      (∃ pool view, s.conn.world.outstanding = [.task pool (.handleCompletedRead view)]) ∧
      runFrom MinimalSpine.server s [.leave] = some t ∧ t.left = true ∧
      step MinimalSpine.server t (.server (.runTask 0 MinimalSpine.answers)) = some t' ∧
      t'.conn.exchange.dispatched ≠ [] := by
  refine ⟨_, _, _, rfl, ⟨_, _, rfl⟩, rfl, rfl, rfl, ?_⟩
  exact List.cons_ne_nil _ _

end Attended

end SmartMet
