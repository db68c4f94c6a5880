/-
# The deadline of a request

The timer is armed for a request when its first bytes can be read: by `start`, by
`finishResponse` behind the bytes it left over, and by the first bytes on an idle
connection.  Later reads of the same request leave it alone (`Timed`), and its wait
stays until the handler cancels it (`Watched`).

* `Timed.step`, `Watched.step` : both are kept by every step;
* `armed_once` : the armings of one request position, over all cuttings into reads.
-/
import SmartMetServer.Rearming
import SmartMetServer.MinimalSpine

namespace SmartMet

open StreamFraming

namespace AsyncConnection

variable (srv : Server)

/-- The timer runs out. -/
def expire (s : AsyncConnection) : AsyncConnection :=
  { s with world.waits := s.world.waits.map TimerWait.expire }

/-- How the timer was armed for a request position that began in the state `s₀`. -/
structure Timed (s₀ s : AsyncConnection) : Prop where
  /-- By `start`, or for bytes left over. -/
  begun : s₀.itsIdle = false →
    s.itsIdle = false ∧ deadlines s.world.trace = [srv.itsTimeout]
  /-- Nothing has been looked at. -/
  waiting : s.itsIdle = true →
    s.itsBuffer = [] ∧ deadlines s.world.trace = [srv.itsKeepAliveTimeout]
  /-- By the first bytes on an idle connection that has not been closed. -/
  swapped : s₀.itsIdle = true → s.itsIdle = false →
    deadlines s.world.trace = [srv.itsKeepAliveTimeout, srv.itsTimeout] ∨
      s.hasTimedOut = true ∧ s.world.socket = .closed ∧
        deadlines s.world.trace = [srv.itsKeepAliveTimeout]

/-- Where bytes are read, the wait of the last arming is there. -/
def Watched (s : AsyncConnection) : Prop :=
  ∀ y, s.world.outstanding = [y] → ¬ y.Works → s.world.socket ≠ .closed → Ticks s

variable {srv}

/-! ## The armings of a position -/

/-- A step that leaves the timer alone. -/
theorem Timed.of_same {s₀ s t : AsyncConnection} (h : Timed srv s₀ s)
    (hb : s.itsIdle = true → t.itsBuffer = s.itsBuffer)
    (hd : deadlines t.world.trace = deadlines s.world.trace) (hi : t.itsIdle = s.itsIdle)
    (ht : s.hasTimedOut = true → t.hasTimedOut = true)
    (hs : s.world.socket = .closed → t.world.socket = .closed) : Timed srv s₀ t := by
  constructor
  · rw [hi, hd]
    exact h.begun
  · rw [hi, hd]
    exact fun hidle => ⟨(hb hidle).trans (h.waiting hidle).1, (h.waiting hidle).2⟩
  · rw [hi, hd]
    intro h₀ hidle
    rcases h.swapped h₀ hidle with h | ⟨h1, h2, h3⟩
    · exact Or.inl h
    · exact Or.inr ⟨ht h1, hs h2, h3⟩

/-- The deadline stands while the timer rests. -/
theorem Rests.timed {s₀ s t : AsyncConnection} (hr : Rests s t) (h : Timed srv s₀ s)
    (hs : s.world.socket = .closed → t.world.socket = .closed) : Timed srv s₀ t :=
  h.of_same (fun _ => hr.buffer) hr.deadlines hr.idle (fun hto => hr.timedOut.trans hto) hs

/-- The first bytes of a request swap the timer, once. -/
theorem Timed.leaveIdle {s₀ s : AsyncConnection} (h : Timed srv s₀ s)
    (hto : s.hasTimedOut = true → s.world.socket = .closed) :
    Timed srv s₀ (leaveIdle srv s) := by
  unfold AsyncConnection.leaveIdle
  by_cases hidle : s.itsIdle = true
  · have hd := (h.waiting hidle).2
    have hbegun : s₀.itsIdle = true := by
      by_contra hne
      rw [(h.begun (by simpa using hne)).1] at hidle
      exact absurd hidle (by simp)
    split
    · -- armed for the request
      constructor
      · intro hne
        rw [hbegun] at hne
        exact absurd hne (by simp)
      · intro hne
        exact absurd hne (by simp [armTimer])
      · intro _ _
        left
        show deadlines s.world.trace ++ [srv.itsTimeout] = _
        rw [hd]
        rfl
    · -- the handler of the timer was first
      rename_i hguard
      have htimed : s.hasTimedOut = true := by simpa [hidle] using hguard
      constructor
      · intro hne
        rw [hbegun] at hne
        exact absurd hne (by simp)
      · intro hne
        exact absurd hne (by simp)
      · exact fun _ _ => Or.inr ⟨htimed, hto htimed, hd⟩
  · have hne : s.itsIdle = false := by simpa using hidle
    rw [if_neg (by simp [hne])]
    exact h.of_same (fun _ => rfl) rfl hne.symm id id

/-- Looking at bytes lies inside the exchange. -/
theorem inner_of_lookEvent {o : Obs}
    (h : (∃ r, o = .parsed r) ∨ PeerEvent o ∨ InterimEvent o) : o.Inner := by
  rcases h with ⟨r, rfl⟩ | rfl | ho
  · simp [Obs.Inner]
  · simp [Obs.Inner]
  · exact (Threads.inside_interim ho).1

/-- A steady part sets no timer. -/
theorem deadlines_steady {A : Obs → Prop} {s t : AsyncConnection} (h : Threads.Steady A s t)
    (hA : ∀ o, A o → o.Inner) : deadlines t.world.trace = deadlines s.world.trace := by
  obtain ⟨new, hnew, hev⟩ := h.events
  rw [hnew]
  exact deadlines_append fun o ho => hA o (hev o ho).1

/-- The deadline stands through it. -/
theorem Timed.steady {A : Obs → Prop} {s₀ s t : AsyncConnection} (h : Timed srv s₀ s)
    (hst : Threads.Steady A s t) (hA : ∀ o, A o → o.Inner)
    (hb : s.itsIdle = true → t.itsBuffer = s.itsBuffer) : Timed srv s₀ t :=
  h.of_same hb (deadlines_steady hst hA) hst.idle (fun hto => hst.timedOut.trans hto) hst.socket

/-- Only a queued call of `handleRead` arms the timer in front of the last call. -/
theorem inner_of_stepEvent {e : Event} (he : ∀ i a, e ≠ .runRead i a) {o : Obs}
    (h : StepEvent srv e o) : o.Inner := by
  refine ⟨not_rearmed_of_stepEvent srv h, ?_⟩
  rintro g n rfl
  cases e with
  | runRead i a => exact he i a rfl
  | runTask i a => exact (Threads.inner_of_handlerEvent h).2 g n rfl
  | writeSome i m a =>
    rcases h with ⟨_, h⟩ | h
    · cases h
    · exact (Threads.inner_of_getterEvent h).2 g n rfl
  | writeFails i a => exact (Threads.inner_of_getterEvent h).2 g n rfl
  | timerExpires => exact h
  | requestShutdown => exact h
  | _ => cases h

/-- **One step** of a request position. -/
theorem Timed.step {s₀ s s' : AsyncConnection} {e : Event} (h : Timed srv s₀ s)
    (hto : s.hasTimedOut = true → s.world.socket = .closed)
    (hstep : step srv s e = some s') (hsame : past s'.world.trace = past s.world.trace) :
    Timed srv s₀ s' := by
  obtain ⟨x, hx, rfl, -⟩ := trail_whole srv hstep
  have htrail := trail_step srv hx
  have hquiet : past x.state.world.trace = past s.world.trace := by
    obtain ⟨new, hnew, hev⟩ := htrail.events
    rw [hnew]
    exact past_append fun o ho => not_rearmed_of_stepEvent srv (hev o ho).1
  have hrest : Rests x.state (x.run srv e.answers) := by
    refine (rests_or_rearms srv e.answers x).resolve_right ?_
    exact fun hre => hre.past (hsame.trans hquiet.symm)
  refine hrest.timed ?_ (trail_run srv e.answers x).socket
  by_cases hread : ∃ i a, e = .runRead i a
  · obtain ⟨i, a, rfl⟩ := hread
    simp only [Tail.step] at hx
    split at hx
    · rename_i bytes hi
      obtain rfl := Option.some.inj hx
      rcases steady_handleRead srv a bytes (s.release i) with ⟨hst, hb⟩ | ⟨hst, hb⟩
      · exact (h.of_same (t := s.release i) (fun _ => rfl) rfl rfl id id).steady hst
          (fun o => inner_of_lookEvent) fun _ => hb
      · refine Timed.steady ?_ hst (fun o => inner_of_lookEvent) fun hidle => ?_
        · exact (h.of_same (t := { s.release i with itsFinalStatus := .success })
            (fun _ => rfl) rfl rfl id id).leaveIdle hto
        · rw [hb] at hidle
          exact absurd hidle (by simp)
    · cases hx
  · have hne : ∀ i a, e ≠ .runRead i a := fun i a he => hread ⟨i, a, he⟩
    have hun := unlooked_tail srv hx hne
    obtain ⟨new, hnew, hev⟩ := htrail.events
    refine h.of_same (fun _ => hun.buffer) ?_ hun.idle hun.timedOut htrail.socket
    rw [hnew]
    exact deadlines_append fun o ho => inner_of_stepEvent hne (hev o ho).1

/-! ## The wait of the last arming -/

/-- The handlers that wait for a client or look at its bytes. -/
theorem ticks_handleRead {a : Answers} {bytes : Bytes} {s : AsyncConnection} (hst : Stamped s)
    (h : Ticks s) : Ticks (Tail.handleRead srv a .success bytes s).state := by
  rcases steady_handleRead srv a bytes s with ⟨hs, -⟩ | ⟨hs, -⟩
  · exact h.of_waits hs.waits hs.generation
  · refine Ticks.of_waits ?_ hs.waits hs.generation
    unfold AsyncConnection.leaveIdle
    split
    · exact (ticks_armTimer srv.itsTimeout
        (s := { s with itsFinalStatus := .success, itsIdle := false }) hst).2
    · exact h.of_waits rfl rfl

/-- Taking out a wait that does not act leaves the last one. -/
theorem Ticks.taken {s : AsyncConnection} (h : Ticks s) {generation : ℕ} {w : TimerWait}
    (hacts : ¬ Threads.Acts s generation) (hw : s.readyWait generation = some w) :
    Ticks (Threads.taken s w) := by
  obtain ⟨⟨v, hv, hgen⟩, hall⟩ := h
  have hw' := List.find?_some hw
  simp only [Bool.and_eq_true, beq_iff_eq] at hw'
  have hmem : w ∈ s.world.waits := List.mem_of_find?_eq_some hw
  have hne : w.generation ≠ s.itsTimerGeneration := by
    intro heq
    exact hacts ⟨hw'.1.symm.trans heq, w, hw, hall w hmem heq⟩
  refine ⟨⟨v, ?_, hgen⟩, fun u hu => hall u (List.mem_of_mem_erase hu)⟩
  refine (List.mem_erase_of_ne ?_).mpr hv
  rintro rfl
  exact hne hgen

/-- A timer that runs out was ticking. -/
theorem Ticks.expire {s : AsyncConnection} (h : Ticks s) : Ticks s.expire := by
  obtain ⟨⟨v, hv, hgen⟩, hall⟩ := h
  refine ⟨⟨v.expire, List.mem_map_of_mem hv, hgen⟩, ?_⟩
  intro w hw hwg
  obtain ⟨u, hu, rfl⟩ := List.mem_map.mp hw
  have := hall u hu hwg
  unfold TimerWait.expire
  dsimp only
  split
  · simp
  · exact this

/-- **The deadline**: once the timer has run out, the handler of the last arming can be
called, and it closes the connection. -/
theorem Ticks.closes {s : AsyncConnection} (h : Ticks s) (a : Answers) :
    ∃ u, AsyncConnection.step srv s.expire (.runTimer s.itsTimerGeneration a) = some u ∧
      u.world.socket = .closed := by
  obtain ⟨⟨v, hv, hgen⟩, hall⟩ := h.expire
  have hready : ∃ w, s.expire.readyWait s.itsTimerGeneration = some w := by
    refine Option.isSome_iff_exists.mp (List.find?_isSome.mpr ⟨v, hv, ?_⟩)
    obtain ⟨u, hu, rfl⟩ := List.mem_map.mp hv
    have hpending : u.expire.status ≠ .pending := by
      unfold TimerWait.expire
      dsimp only
      split
      · simp
      · assumption
    simp only [Bool.and_eq_true, beq_iff_eq, bne_iff_ne]
    exact ⟨hgen, hpending⟩
  obtain ⟨w, hw⟩ := hready
  have hstep : AsyncConnection.step srv s.expire (.runTimer s.itsTimerGeneration a) =
      some (handleTimer srv a (if w.status = .aborted then .operationAborted else .success)
        s.itsTimerGeneration (Threads.taken s.expire w)) := by
    simp only [AsyncConnection.step]
    rw [hw]
    rfl
  refine ⟨_, hstep, ?_⟩
  have hw' := List.find?_some hw
  simp only [Bool.and_eq_true, beq_iff_eq] at hw'
  have hacts : Threads.Acts s.expire s.itsTimerGeneration :=
    ⟨rfl, w, hw, hall w (List.mem_of_find?_eq_some hw) hw'.1⟩
  rcases Threads.runTimer_cases hstep with ⟨_, hnot, -⟩ | ⟨-, hexp, -⟩
  · exact absurd hacts hnot
  · exact hexp.socket

/-- Nothing is read where nothing is outstanding. -/
theorem watched_of_none {s : AsyncConnection} (ho : s.world.outstanding = []) : Watched s := by
  intro y hy
  rw [ho] at hy
  cases hy

/-- A step from one read to the next. -/
theorem Watched.of_same {s t : AsyncConnection} (h : Watched s) {y : Activity}
    (hy : s.world.outstanding = [y]) (hw : ¬ y.Works)
    (hs : s.world.socket = .closed → t.world.socket = .closed) (ht : Ticks s → Ticks t) :
    Watched t :=
  fun _ _ _ hopen => ht (h y hy hw fun hc => hopen (hs hc))

/-- **One step** keeps the wait. -/
theorem Watched.step {s s' : AsyncConnection} {e : Event} (hinv : Inv srv s) (h : Watched s)
    (hstep : step srv s e = some s') : Watched s' := by
  have hstamped : Stamped s := hinv.1.stamped
  have hstep' := hstep
  obtain ⟨x, hx, rfl, -⟩ := trail_whole srv hstep
  have hclosed : s.world.socket = .closed → (x.run srv e.answers).world.socket = .closed :=
    fun hs => (trail_run srv e.answers x).socket ((trail_step srv hx).socket hs)
  have hmid : Stamped x.state := stamped_tail srv hstamped hx
  -- what re-arms arms the timer for what is read next
  rcases rests_or_rearms srv e.answers x with hrest | hre
  swap
  · exact fun _ _ _ _ => (hre.ticks hmid).2
  have hnone : x.state.world.outstanding = [] → Watched (x.run srv e.answers) :=
    fun ho => watched_of_none (hrest.outstanding.trans ho)
  -- a read that goes on is watched by the same wait
  have hsame : ∀ {y}, s.world.outstanding = [y] → ¬ y.Works → (Ticks s → Ticks x.state) →
      Watched (x.run srv e.answers) := fun hy hw ht =>
    h.of_same hy hw hclosed fun hs => (ht hs).of_waits hrest.waits hrest.generation
  -- behind a handler's response nothing is being read
  have hresumed : e.Resumes → Watched (x.run srv e.answers) := by
    intro hr
    obtain ⟨i, y, hi, hends⟩ := ends_step srv hx hr
    obtain ⟨-, -, -, ho⟩ := hinv.held_release hi
    cases x with
    | stop t =>
      rcases hends with hout | ⟨z, hz, hout⟩
      · exact hnone (hout.trans ho)
      · intro y' hy' hw
        rw [ho] at hout
        have hy'' : t.world.outstanding = [y'] := hy'
        obtain rfl := List.singleton_inj.mp (hy''.symm.trans hout)
        exact absurd hz hw
    | reply m t books => exact hnone (hends.2.trans ho)
    | finish t => exact hnone (Eq.trans hends ho)
  cases e with
  | handshake i ok =>
    simp only [Tail.step, AsyncConnection.step] at hx
    split at hx
    · rename_i hi
      obtain rfl := Option.some.inj hx
      obtain ⟨ho, -, -, hout⟩ := hinv.held_release hi
      cases ok with
      | true => exact hsame ho id fun ht => ht.of_waits rfl rfl
      | false => exact hnone hout
    · cases hx
  | receive i bytes =>
    simp only [Tail.step, AsyncConnection.step] at hx
    split at hx
    · rename_i hi
      split at hx
      · obtain rfl := Option.some.inj hx
        obtain ⟨ho, -⟩ := hinv.held_release hi
        exact hsame ho id fun ht => ht.of_waits rfl rfl
      · cases hx
    · cases hx
  | runRead i a =>
    simp only [Tail.step] at hx
    split at hx
    · rename_i bytes hi
      obtain rfl := Option.some.inj hx
      obtain ⟨ho, -⟩ := hinv.held_release hi
      intro y _ _ hopen
      refine Ticks.of_waits (ticks_handleRead (s := s.release i) hstamped ?_) hrest.waits
        hrest.generation
      exact (h _ ho id fun hc => hopen (hclosed hc)).of_waits rfl rfl
    · cases hx
  | timerExpires =>
    simp only [Tail.step, AsyncConnection.step] at hx
    split at hx
    · obtain rfl := Option.some.inj hx
      exact fun y hy hw hopen => (h y hy hw hopen).expire
    · cases hx
  | runTimer generation a =>
    rcases Threads.runTimer_cases hstep' with ⟨w, hacts, hw, heq⟩ | ⟨-, hexp, -⟩
    · rw [heq]
      exact fun y hy hw' hopen => (h y hy hw' hopen).taken hacts hw
    · exact fun _ _ _ hopen => absurd hexp.socket hopen
  | requestShutdown =>
    obtain rfl := Option.some.inj hx
    exact fun y hy hw hopen => (h y hy hw hopen).of_waits rfl rfl
  | readFails i err a => exact hresumed trivial
  | runTask i a => exact hresumed trivial
  | writeSome i n a => exact hresumed trivial
  | writeFails i a => exact hresumed trivial

/-- The timer of a connection that has just been started watches its read. -/
theorem watched_start : Watched (start srv) := by
  intro y _ _ _
  have hst : Stamped { itsCounted := true } := fun w hw => absurd hw (List.not_mem_nil)
  have hticks := (ticks_armTimer srv.itsTimeout hst).2
  unfold AsyncConnection.start
  dsimp only
  split
  · exact hticks.of_waits rfl rfl
  · exact hticks.of_waits rfl rfl

variable (srv)

/-! ## Whole runs -/

/-- A request position begins: the connection was accepted, or has just been re-armed. -/
def Opens (s₀ : AsyncConnection) : Prop :=
  s₀ = start srv ∨ ∃ u e, Reachable srv u ∧ step srv u e = some s₀ ∧
    past s₀.world.trace ≠ past u.world.trace

/-- The timer is armed once for a request, and its handler ends the connection that
reads longer. -/
structure ArmedOnce (s₀ s : AsyncConnection) : Prop extends Timed srv s₀ s where
  held : ∀ y, s.world.outstanding = [y] → ¬ y.Works → s.world.socket ≠ .closed →
    ∀ a, ∃ u, step srv s.expire (.runTimer s.itsTimerGeneration a) = some u ∧
      u.world.socket = .closed

variable {srv}

/-- What was armed in the step that begins a position. -/
theorem timed_of_rearms {s t : AsyncConnection} (h : Rearms srv s t) : Timed srv t t := by
  have hidle := h.idle
  have hd := h.deadlines
  constructor
  · intro hne
    rw [hne] at hidle
    rw [← hidle] at hd
    exact ⟨hne, hd⟩
  · intro hi
    rw [hi] at hidle
    rw [← hidle] at hd
    exact ⟨h.buffer.trans (List.isEmpty_iff.mp hidle.symm), hd⟩
  · intro hi hne
    rw [hi] at hne
    exact absurd hne (by simp)

/-- Its deadline is that of the request. -/
theorem timed_start : Timed srv (start srv) (start srv) := by
  have hstart : (start srv).itsIdle = false ∧
      deadlines (start srv).world.trace = [srv.itsTimeout] := by
    unfold AsyncConnection.start
    dsimp only
    split
    · exact ⟨rfl, rfl⟩
    · exact ⟨rfl, rfl⟩
  constructor
  · exact fun _ => hstart
  · intro hi
    rw [hstart.1] at hi
    exact absurd hi (by simp)
  · intro hi
    rw [hstart.1] at hi
    exact absurd hi (by simp)

/-- Where a position begins. -/
theorem Opens.begins {s₀ : AsyncConnection} (h : Opens srv s₀) :
    (s₀ = start srv ∨ s₀.itsIdle = s₀.itsBuffer.isEmpty) ∧ Timed srv s₀ s₀ ∧
      Reachable srv s₀ := by
  rcases h with rfl | ⟨u, e, ⟨es, hes⟩, hstep, hpast⟩
  · exact ⟨Or.inl rfl, timed_start, [], rfl⟩
  obtain ⟨x, hx, rfl⟩ := exists_outcome srv hstep
  have hquiet : past x.state.world.trace = past u.world.trace := by
    obtain ⟨new, hnew, hev⟩ := (trail_step srv hx).events
    rw [hnew]
    exact past_append fun o ho => not_rearmed_of_stepEvent srv (hev o ho).1
  rcases rests_or_rearms srv e.answers x with hrest | hre
  · exact absurd (hrest.past.trans hquiet) hpast
  · refine ⟨Or.inr ?_, timed_of_rearms hre, es ++ [e], Transition.run_append hes ?_⟩
    · rw [hre.idle, hre.buffer]
    · exact Transition.run_cons.mpr ⟨_, hstep, rfl⟩

/-- Each state of a run is watched, -/
theorem Watched.run {s s' : AsyncConnection} {es : List Event} (hinv : Inv srv s)
    (h : Watched s) (hrun : runFrom srv s es = some s') : Inv srv s' ∧ Watched s' := by
  refine Transition.run_preserves (P := fun u => Inv srv u ∧ Watched u) ?_ ⟨hinv, h⟩ hrun
  intro u e u' hu hstep
  exact ⟨inv_step srv hu.1 hstep, hu.2.step hu.1 hstep⟩

/-- The exchanges that ended are never forgotten. -/
theorem past_suffix_run {s s' : AsyncConnection} {es : List Event}
    (hrun : runFrom srv s es = some s') : past s.world.trace <:+ past s'.world.trace := by
  refine Transition.run_preserves (P := fun u => past s.world.trace <:+ past u.world.trace) ?_
    (List.suffix_refl _) hrun
  intro u e u' hu hstep
  obtain ⟨x, -, -, ht⟩ := trail_whole srv hstep
  obtain ⟨new, hnew, -⟩ := ht.events
  rw [hnew]
  exact hu.trans (past_suffix new u.world.trace)

/-- and each state of an exchange has its deadline. -/
theorem Timed.run {s₀ s s' : AsyncConnection} {es : List Event} (hinv : Inv srv s)
    (h : Timed srv s₀ s) (hrun : runFrom srv s es = some s')
    (hsame : past s'.world.trace = past s.world.trace) : Timed srv s₀ s' := by
  induction es generalizing s with
  | nil =>
    obtain rfl := Option.some.inj hrun
    exact h
  | cons e es ih =>
    obtain ⟨t, hstep, hrest⟩ := Transition.run_cons.mp hrun
    -- no exchange ended in between
    have hone : runFrom srv s [e] = some t := Transition.run_cons.mpr ⟨t, hstep, rfl⟩
    have h1 := past_suffix_run hone
    have h2 := past_suffix_run hrest
    rw [hsame] at h2
    have hmid : past t.world.trace = past s.world.trace :=
      h2.eq_of_length_le h1.length_le
    exact ih (inv_step srv hinv hstep) (h.step hinv.1.timedOut hstep hmid) hrest
      (hsame.trans hmid.symm)

variable (srv)

/-- **The read deadline cannot be pushed out.**  From the state in which a request
position begins, for every run that ends no exchange: the timer was armed once for
the request, with `itsTimeout`, unless it had closed the idle connection before the
first bytes were looked at, and the handler of that arming ends the connection. -/
theorem armed_once {s₀ s : AsyncConnection} {es : List Event} (h₀ : Opens srv s₀)
    (hrun : runFrom srv s₀ es = some s) (hsame : past s.world.trace = past s₀.world.trace) :
    (s₀ = start srv ∨ s₀.itsIdle = s₀.itsBuffer.isEmpty) ∧ ArmedOnce srv s₀ s := by
  obtain ⟨hbegins, htimed, fs, hfs⟩ := h₀.begins
  obtain ⟨hinv, hwatched⟩ := watched_start.run (inv_start srv) hfs
  obtain ⟨-, hw⟩ := hwatched.run hinv hrun
  refine ⟨hbegins, htimed.run hinv hrun hsame, ?_⟩
  exact fun y hy hworks hopen a => (hw y hy hworks hopen).closes a

/-- A request that is answered, and the bytes of the next one. -/
def unfoundRequest : Bytes := "GET /a HTTP/1.1\r\nHost: h\r\n\r\n".toList

/-- A position that begins on an idle connection, with what a run makes of it. -/
theorem opens_idle (es : List Event) (P : AsyncConnection → Bool)
    (h : (runFrom MinimalSpine.server (start MinimalSpine.server) [.receive 0 unfoundRequest]).any
      (fun u => (step MinimalSpine.server u (.runRead 0 MinimalSpine.answers)).any fun s₀ =>
        (past s₀.world.trace).length != (past u.world.trace).length &&
          (runFrom MinimalSpine.server s₀ es).any fun s =>
            (past s.world.trace).length == (past s₀.world.trace).length && P s) = true) :
    ∃ s₀ s, Opens MinimalSpine.server s₀ ∧ runFrom MinimalSpine.server s₀ es = some s ∧
      past s.world.trace = past s₀.world.trace ∧ P s = true := by
  obtain ⟨u, hu, hp⟩ := MinimalSpine.reached _ _ h
  rw [Option.any_eq_true] at hp
  obtain ⟨s₀, hstep, hp⟩ := hp
  obtain ⟨hpast, hp⟩ := Bool.and_eq_true_iff.mp hp
  rw [Option.any_eq_true] at hp
  obtain ⟨s, hs, hp⟩ := hp
  obtain ⟨hsame, hp⟩ := Bool.and_eq_true_iff.mp hp
  refine ⟨s₀, s, Or.inr ⟨u, _, ⟨_, hu⟩, hstep, ?_⟩, hs, ?_, hp⟩
  · intro heq
    rw [heq] at hpast
    simp at hpast
  · exact ((past_suffix_run hs).eq_of_length (beq_iff_eq.mp hsame).symm).symm

/-- A second request in two reads, the rest of it awaited. -/
theorem armed_once_dribbled :
    ∃ s₀ s, Opens MinimalSpine.server s₀ ∧
      runFrom MinimalSpine.server s₀ [.receive 0 (unfoundRequest.take 5),
        .runRead 0 MinimalSpine.answers, .receive 0 ((unfoundRequest.drop 5).take 5),
        .runRead 0 MinimalSpine.answers] = some s ∧
      s.world.outstanding = [.read] ∧ ArmedOnce MinimalSpine.server s₀ s := by
  obtain ⟨s₀, s, h₀, hs, hsame, hp⟩ := opens_idle [.receive 0 (unfoundRequest.take 5),
      .runRead 0 MinimalSpine.answers, .receive 0 ((unfoundRequest.drop 5).take 5),
      .runRead 0 MinimalSpine.answers]
    (fun s => s.world.outstanding == [.read]) (by decide +kernel)
  exact ⟨s₀, s, h₀, hs, beq_iff_eq.mp hp, (armed_once MinimalSpine.server h₀ hs hsame).2⟩

/-- The second request was received, but the timer closes the idle connection before
it is looked at: it is read without having been timed. -/
theorem armed_once_late :
    ¬ ∀ s₀ s es, Opens MinimalSpine.server s₀ → runFrom MinimalSpine.server s₀ es = some s →
      past s.world.trace = past s₀.world.trace → s.exchange.requests ≠ [] →
      MinimalSpine.server.itsTimeout ∈ deadlines s.world.trace := by
  intro hall
  obtain ⟨s₀, s, h₀, hs, hsame, hp⟩ := opens_idle [.receive 0 unfoundRequest, .timerExpires,
      .runTimer 2 MinimalSpine.answers, .runRead 0 MinimalSpine.answers]
    (fun s => s.exchange.requests.length == 1 && deadlines s.world.trace == [30])
    (by decide +kernel)
  obtain ⟨hrequest, harmed⟩ := Bool.and_eq_true_iff.mp hp
  have hne : s.exchange.requests ≠ [] := by
    intro hnil
    rw [hnil] at hrequest
    cases hrequest
  have hmem := hall s₀ s _ h₀ hs hsame hne
  rw [beq_iff_eq.mp harmed] at hmem
  exact absurd hmem (by decide)

end AsyncConnection

end SmartMet
