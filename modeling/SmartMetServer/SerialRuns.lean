/-
# Handlers one after another

Two models of a connection stand side by side: `AsyncConnection.step` runs a handler to
its end, `Threads.step` one region of it.  They agree on the runs of the threads in which
no handler is called while another is in the middle.

* `Threads.Serial` : these runs;
* `exists_serial` : a run of the handlers is a run of the threads;
* `serial_split` : a handler that is alone is not interrupted;
* `serial_runs` : the two models agree;
* `Inv.outside` : a thread in the middle of a handler keeps the others out, all but
  the timer and a shutdown;
* `uninterrupted` : while these stay out too, the threads do what the handlers do.
-/
import SmartMetServer.Timeouts

namespace Transition

variable {σ ε : Type*}

/-- A condition along two runs, one behind the other. -/
theorem along_append {step : σ → ε → Option σ} {G : σ → ε → Prop} {s t : σ} {es fs : List ε}
    (h : Along step G s es) (hrun : run step s es = some t) (h' : Along step G t fs) :
    Along step G s (es ++ fs) := by
  induction es generalizing s with
  | nil =>
    obtain rfl := Option.some.inj hrun
    exact h'
  | cons e es ih =>
    obtain ⟨m, hm, hrest⟩ := run_cons.mp hrun
    refine ⟨h.1, fun m' hm' => ?_⟩
    obtain rfl := Option.some.inj (hm.symm.trans hm')
    exact ih (h.2 m hm) hrest

end Transition

namespace SmartMet

open AsyncConnection

/-- The handler an event of the threads calls. -/
def ThreadEvent.calls : ThreadEvent → List Event
  | .handler e => [e]
  | .go _ => []

theorem calls_replicate (n : ℕ) :
    (List.replicate n (ThreadEvent.go 0)).flatMap ThreadEvent.calls = [] := by
  induction n with
  | zero => rfl
  | succ n ih => exact ih

namespace Threads

variable (srv : Server)

/-- No handler is called while another one is in the middle. -/
def Serial : Threads → List ThreadEvent → Prop :=
  Transition.Along (step srv) fun s e => e.calls ≠ [] → s.running = []

variable {srv}

theorem serial_go (s : Threads) (n : ℕ) : Serial srv s (List.replicate n (.go 0)) := by
  refine Transition.along_of_forall (fun e he u hc => ?_) s
  obtain rfl := List.eq_of_mem_replicate he
  exact absurd rfl hc

/-- A call that completes is a serial run. -/
theorem Completes.serial {s : Threads} {c : AsyncConnection} (h : Completes srv s c) :
    ∃ fs t, Serial srv s fs ∧ runFrom srv s fs = some t ∧ fs.flatMap ThreadEvent.calls = [] ∧
      t.running = [] ∧ t.conn = c := by
  obtain ⟨n, t, hrun, hc, hr⟩ := h
  exact ⟨_, t, serial_go s n, hrun, calls_replicate n, hr, hc⟩

/-- A run of the handlers is a run of the threads. -/
theorem exists_serial {s : Threads} {es : List Event} {c : AsyncConnection} (hr : s.running = [])
    (h : AsyncConnection.runFrom srv s.conn es = some c) :
    ∃ fs t, Serial srv s fs ∧ runFrom srv s fs = some t ∧ fs.flatMap ThreadEvent.calls = es ∧
      t.running = [] ∧ t.conn = c := by
  induction es generalizing s with
  | nil => exact ⟨[], s, trivial, rfl, rfl, hr, Option.some.inj h⟩
  | cons e es ih =>
    obtain ⟨d, hd, hrest⟩ := Transition.run_cons.mp h
    obtain ⟨u, hu, hcomplete⟩ := completes_step srv hr hd
    obtain ⟨gs, v, hgs, hv, hcalls, hvr, rfl⟩ := hcomplete.serial
    obtain ⟨fs, t, hfs, ht, hcalls', htr, htc⟩ := ih hvr hrest
    refine ⟨.handler e :: (gs ++ fs), t, ⟨fun _ => hr, fun u' hu' => ?_⟩,
      Transition.run_cons.mpr ⟨u, hu, Transition.run_append hv ht⟩, ?_, htr, htc⟩
    · obtain rfl := Option.some.inj (hu.symm.trans hu')
      exact Transition.along_append hgs hv hfs
    · rw [List.flatMap_cons, List.flatMap_append, hcalls, hcalls']
      rfl

/-! ## A handler that is alone -/

/-- At most one thread is in the middle of a handler. -/
def Alone (s : Threads) : Prop := s.running.length ≤ 1

theorem alone_leave {s : Threads} (hr : s.running = []) (c : AsyncConnection) :
    Alone (s.leave c) := by
  show s.running.length ≤ 1
  rw [hr]
  exact Nat.zero_le 1

theorem alone_next {s t : Threads} {r : Rest} (hr : s.running = [])
    (ht : t.running = s.running ++ [r]) : Alone t := by
  unfold Alone
  rw [ht, hr]
  exact Nat.le_refl 1

theorem alone_outcome {s : Threads} (hr : s.running = []) (a : Answers) (x : Outcome) :
    Alone (s.outcome a x) := by
  cases x with
  | stop c => exact alone_leave hr c
  | reply m c books => exact alone_next hr rfl
  | finish c => exact alone_next hr rfl

theorem alone_region {s : Threads} (hr : s.running = []) (r : Rest) : Alone (region srv s r) := by
  have hs : Alone s := alone_leave hr s.conn
  cases r with
  | beginReading => exact alone_leave hr _
  | armForRequest bytes a => exact alone_next hr rfl
  | readBytes bytes a => exact alone_outcome hr a _
  | callHandler a =>
    unfold region
    dsimp only
    split
    · exact hs
    split
    · exact hs
    · exact alone_next hr rfl
  | inHandler a => exact alone_outcome hr a _
  | written handler e n a => exact alone_outcome hr a _
  | head m books a =>
    unfold region
    dsimp only
    split
    · exact alone_leave hr _
    · exact alone_next hr rfl
  | content m bytes books a => exact alone_next hr rfl
  | settle books =>
    unfold region
    dsimp only
    split
    · exact alone_next hr rfl
    · exact alone_leave hr _
  | finish books =>
    unfold region
    dsimp only
    split
    · exact alone_next hr rfl
    · exact alone_leave hr _
  | armNext books => exact alone_next hr rfl
  | resume books => exact alone_leave hr _

/-- A handler can be called on the threads only where it can be called at all, and one
thread runs it. -/
theorem call_cases {s t : Threads} {e : Event} (hr : s.running = [])
    (h : s.call srv e = some t) :
    (∃ c, AsyncConnection.step srv s.conn e = some c) ∧ Alone t := by
  -- these events end with their call: no thread is left in the middle of a handler
  have hleave : ∀ {c : AsyncConnection}, AsyncConnection.step srv s.conn e = some c →
      some (s.leave c) = some t →
      (∃ c, AsyncConnection.step srv s.conn e = some c) ∧ Alone t := by
    intro c hc ht
    obtain rfl := Option.some.inj ht
    exact ⟨⟨c, hc⟩, alone_leave hr c⟩
  have hreleased : ∀ i, (s.leave (s.conn.release i)).running = [] := fun _ => hr
  cases e with
  | readFails i err a =>
    simp only [call] at h
    split at h
    · rename_i hi
      split at h
      · rename_i herr
        obtain rfl := Option.some.inj h
        refine ⟨⟨_, by simp only [AsyncConnection.step, hi, if_pos herr]; rfl⟩, ?_⟩
        exact alone_outcome (hreleased i) a _
      · cases h
    · cases h
  | runRead i a =>
    simp only [call] at h
    split at h
    · rename_i bytes hi
      obtain rfl := Option.some.inj h
      refine ⟨⟨_, by simp only [AsyncConnection.step, hi]; rfl⟩, ?_⟩
      unfold enterRead
      dsimp only
      split
      · exact alone_outcome (hreleased i) a _
      · exact alone_next (hreleased i) rfl
    · cases h
  | runTask i a =>
    simp only [call] at h
    split at h
    · rename_i pool task hi
      obtain rfl := Option.some.inj h
      refine ⟨⟨_, by simp only [AsyncConnection.step, hi]; rfl⟩, ?_⟩
      cases task with
      | handleCompletedRead view => exact alone_next (hreleased i) rfl
      | getNextChunk => exact alone_outcome (hreleased i) a _
      | getNextChunkedChunk => exact alone_outcome (hreleased i) a _
    · cases h
  | writeSome i n a =>
    simp only [call] at h
    split at h
    · rename_i handler buffer hi
      split at h
      · rename_i hn
        obtain rfl := Option.some.inj h
        refine ⟨⟨_, by simp only [AsyncConnection.step, hi, if_pos hn]; rfl⟩, ?_⟩
        exact alone_next hr rfl
      · cases h
    · cases h
  | writeFails i a =>
    simp only [call] at h
    split at h
    · rename_i handler buffer hi
      obtain rfl := Option.some.inj h
      refine ⟨⟨_, by simp only [AsyncConnection.step, hi]; rfl⟩, ?_⟩
      exact alone_next hr rfl
    · cases h
  | requestShutdown => exact hleave rfl h
  | _ =>
    obtain ⟨c, hc, ht⟩ := Option.map_eq_some_iff.mp h
    exact hleave hc (congrArg some ht)

/-! ## The split of a serial run -/

/-- A handler that is alone is not interrupted: a serial run that comes to rest begins
with its regions. -/
theorem serial_split {n : ℕ} {s t v : Threads} {fs : List ThreadEvent} (hs : Alone s)
    (hv : runFrom srv s (List.replicate n (.go 0)) = some v) (hvr : v.running = [])
    (hfs : Serial srv s fs) (ht : runFrom srv s fs = some t) (htr : t.running = []) :
    ∃ gs, fs = List.replicate n (.go 0) ++ gs ∧ Serial srv v gs ∧ runFrom srv v gs = some t := by
  induction n generalizing s fs with
  | zero =>
    obtain rfl := Option.some.inj hv
    exact ⟨fs, rfl, hfs, ht⟩
  | succ n ih =>
    obtain ⟨u, hu, hrest⟩ := Transition.run_cons.mp hv
    -- the thread has not come to its end
    obtain ⟨r, hr⟩ : ∃ r, s.running = [r] := by
      cases hrun : s.running with
      | nil =>
        unfold step at hu
        rw [hrun] at hu
        cases hu
      | cons r rs =>
        have hlen : s.running.length ≤ 1 := hs
        rw [hrun, List.length_cons] at hlen
        exact ⟨r, by rw [List.length_eq_zero_iff.mp (Nat.le_zero.mp (Nat.le_of_succ_le_succ hlen))]⟩
    have hne : s.running ≠ [] := by
      rw [hr]
      exact List.cons_ne_nil r []
    have halone : Alone u := by
      unfold step at hu
      rw [hr] at hu
      obtain rfl := Option.some.inj hu
      exact alone_region rfl r
    cases fs with
    | nil =>
      obtain rfl := Option.some.inj ht
      exact absurd htr hne
    | cons e fs =>
      obtain ⟨u', hu', hrest'⟩ := Transition.run_cons.mp ht
      cases e with
      | handler e => exact absurd (hfs.1 (List.cons_ne_nil e [])) hne
      | go i =>
        obtain rfl : i = 0 := by
          cases i with
          | zero => rfl
          | succ i =>
            unfold step at hu'
            rw [hr] at hu'
            cases hu'
        obtain rfl := Option.some.inj (hu.symm.trans hu')
        obtain ⟨gs, rfl, hgs, hrun⟩ := ih halone hrest (hfs.2 u hu) hrest'
        exact ⟨gs, rfl, hgs, hrun⟩

/-- A serial run that comes to rest is a run of the handlers. -/
theorem run_of_serial {s t : Threads} {fs : List ThreadEvent} (hr : s.running = [])
    (hfs : Serial srv s fs) (ht : runFrom srv s fs = some t) (htr : t.running = []) :
    AsyncConnection.runFrom srv s.conn (fs.flatMap ThreadEvent.calls) = some t.conn := by
  induction hlen : fs.length using Nat.strongRecOn generalizing s fs with
  | _ n ih =>
    cases fs with
    | nil =>
      obtain rfl := Option.some.inj ht
      rfl
    | cons e fs =>
      obtain ⟨u, hu, hrest⟩ := Transition.run_cons.mp ht
      cases e with
      | go i =>
        unfold step at hu
        rw [hr] at hu
        cases hu
      | handler e =>
        obtain ⟨⟨c, hc⟩, halone⟩ := call_cases hr hu
        obtain ⟨u', hu', m, v, hv, rfl, hvr⟩ := completes_step srv hr hc
        obtain rfl := Option.some.inj (hu.symm.trans hu')
        obtain ⟨gs, rfl, hgs, hrun⟩ := serial_split halone hv hvr (hfs.2 u hu) hrest htr
        have hlt : gs.length < n := by
          rw [← hlen, List.length_cons, List.length_append, List.length_replicate]
          omega
        have hlater := ih gs.length hlt hvr hgs hrun rfl
        rw [List.flatMap_cons, List.flatMap_append, calls_replicate]
        exact Transition.run_cons.mpr ⟨v.conn, hc, hlater⟩

/-- The first region of a connection: `startReading`. -/
theorem go_start (srv : Server) : ∃ u, runFrom srv (start srv) (List.replicate 1 (.go 0)) = some u ∧
    u.conn = AsyncConnection.start srv ∧ u.running = [] :=
  ⟨region srv { start srv with running := [] } .beginReading, rfl, rfl, rfl⟩

/-- A serial run from the start that comes to rest is a run of the handlers. -/
theorem run_of_serial_start {t : Threads} {fs : List ThreadEvent} (hfs : Serial srv (start srv) fs)
    (ht : runFrom srv (start srv) fs = some t) (htr : t.running = []) :
    AsyncConnection.runFrom srv (AsyncConnection.start srv) (fs.flatMap ThreadEvent.calls) =
      some t.conn := by
  obtain ⟨u, hu, hconn, hur⟩ := go_start srv
  have halone : Alone (start srv) := Nat.le_refl 1
  obtain ⟨gs, rfl, hgs, hrun⟩ := serial_split halone hu hur hfs ht htr
  rw [← hconn, List.flatMap_append, calls_replicate]
  exact run_of_serial hur hgs hrun htr

variable (srv)

/-- **The two models agree.**  The runs of a connection whose handlers are taken as single
steps are the runs of its threads in which no handler is called while another is in the
middle, up to a state in which none is: with the same handlers called in the same order,
and with the same connection in the end. -/
theorem serial_runs (es : List Event) (c : AsyncConnection) :
    AsyncConnection.runFrom srv (AsyncConnection.start srv) es = some c ↔
      ∃ fs t, Serial srv (start srv) fs ∧ runFrom srv (start srv) fs = some t ∧
        fs.flatMap ThreadEvent.calls = es ∧ t.running = [] ∧ t.conn = c := by
  constructor
  · intro h
    obtain ⟨u, hu, hconn, hur⟩ := go_start srv
    rw [← hconn] at h
    obtain ⟨fs, t, hfs, ht, hcalls, htr, htc⟩ := exists_serial hur h
    have hrun := Transition.run_append hu ht
    refine ⟨List.replicate 1 (ThreadEvent.go 0) ++ fs, t, ?_, hrun, ?_, htr, htc⟩
    · exact Transition.along_append (serial_go _ 1) hu hfs
    · rw [List.flatMap_append, hcalls]
      rfl
  · rintro ⟨fs, t, hfs, ht, rfl, htr, rfl⟩
    exact run_of_serial_start hfs ht htr

/-! ## What comes in between -/

/-- What no thread of the connection brings about: the timer and a shutdown. -/
def outside : ThreadEvent → Bool
  | .handler .timerExpires => true
  | .handler (.runTimer _ _) => true
  | .handler .requestShutdown => true
  | _ => false

variable {srv}

/-- A thread in the middle of a handler is the only one, and nothing is outstanding. -/
theorem Position.middle {s : Threads} (h : Position s) (hr : s.running ≠ []) :
    s.conn.world.outstanding = [] := by
  rcases h with ⟨hr', -⟩ | ⟨_, -, ho, -⟩ | ⟨_, hr', -⟩
  · exact absurd hr' hr
  · exact ho
  · exact absurd hr' hr

/-- **A thread in the middle of a handler is alone.**  No other handler is called before
it comes to its end, but for the timer's and a request to shut down. -/
theorem Inv.outside {s t : Threads} {e : ThreadEvent} (h : Inv s) (hr : s.running ≠ [])
    (hstep : Threads.step srv s e = some t) : e.calls = [] ∨ outside e = true := by
  have ho := h.2.middle hr
  cases e with
  | go i => exact Or.inl rfl
  | handler e =>
    cases e with
    | timerExpires => exact Or.inr rfl
    | runTimer generation a => exact Or.inr rfl
    | requestShutdown => exact Or.inr rfl
    -- the others take up what is outstanding
    | _ => simp [Threads.step, Threads.call, AsyncConnection.step, ho] at hstep

/-- Where the timer and a shutdown keep out of the handlers, the run is serial. -/
theorem serial_of_outside {s t : Threads} {es : List ThreadEvent} (h : Inv s)
    (hout : Transition.Along (step srv) (fun s e => outside e = true → s.running = []) s es)
    (hrun : runFrom srv s es = some t) : Serial srv s es := by
  induction es generalizing s with
  | nil => trivial
  | cons e es ih =>
    obtain ⟨u, hu, hrest⟩ := Transition.run_cons.mp hrun
    refine ⟨fun hcalls => ?_, fun u' hu' => ?_⟩
    · by_contra hr
      rcases h.outside hr hu with hnone | hoe
      · exact hcalls hnone
      · exact hr (hout.1 hoe)
    · obtain rfl := Option.some.inj (hu.symm.trans hu')
      exact ih (h.step hu) (hout.2 u hu) hrest

/-- **Only the timer and a shutdown come between the regions of a handler.**  Threads that
run side by side in any order, and are all at rest in the end, have done what their
handlers do one after another, unless the timer or a shutdown came in the middle of one. -/
theorem uninterrupted {t : Threads} {es : List ThreadEvent}
    (hrun : runFrom srv (start srv) es = some t) (hr : t.running = [])
    (hout : Transition.Along (step srv) (fun s e => outside e = true → s.running = [])
      (start srv) es) :
    AsyncConnection.runFrom srv (AsyncConnection.start srv) (es.flatMap ThreadEvent.calls) =
      some t.conn := by
  have hserial := serial_of_outside (inv_start srv) hout hrun
  exact run_of_serial_start hserial hrun hr

/-- A request for a page that does not exist is read and answered. -/
def servedRun : List ThreadEvent :=
  [.go 0, .handler (.receive 0 "GET /a HTTP/1.1\r\nHost: h\r\n\r\n".toList),
    .handler (.runRead 0 MinimalSpine.answers), .go 0, .go 0, .go 0, .go 0, .go 0, .go 0, .go 0]

theorem uninterrupted_served : ∃ t,
    runFrom MinimalSpine.server (start MinimalSpine.server) servedRun = some t ∧ t.running = [] ∧
      AsyncConnection.runFrom MinimalSpine.server (AsyncConnection.start MinimalSpine.server)
        (servedRun.flatMap ThreadEvent.calls) = some t.conn := by
  have hout : Transition.Along (step MinimalSpine.server)
      (fun s e => outside e = true → s.running = []) (start MinimalSpine.server) servedRun := by
    decide +kernel
  obtain ⟨t, ht, hp⟩ := reached servedRun (fun s => s.running.isEmpty) (by decide +kernel)
  have hr : t.running = [] := List.isEmpty_iff.mp hp
  exact ⟨t, ht, hr, uninterrupted ht hr hout⟩

end Threads

end SmartMet
