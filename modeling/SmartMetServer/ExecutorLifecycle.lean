/-
# The life of the executors (`source/AsyncServer.cpp`, `source/Server.cpp`)

`AsyncServer::run`, its io worker threads and any number of calls of
`Server::shutdownServer` as one machine: a step is one call or one access to a
shared member by one of these threads.  The part of a function that holds
`itsExecutorMutex` is the list of the calls it makes there.

The wait of `shutdown` for the workers ends only with `itsRunningWorkers` at zero:
runs in which it gives up are not runs of this machine.
-/
import SmartMetServer.Connection
import SmartMetServer.Transition

namespace SmartMet

/-- What is done to the executors and to the reactor. -/
inductive Deed where
  | start (pool : Pool)
  | setGracefulShutdown (pool : Pool)
  | shutdown (pool : Pool)
  | reset (pool : Pool)
  /-- A completion handler schedules a task. -/
  | schedule (pool : Pool)
  | reactorShutdown
  /-- A null pointer is dereferenced. -/
  | nullDereference
  deriving DecidableEq, Repr

/-- Where `run` stands. -/
inductive RunState where
  | notCalled
  | spawning
  | locked
  | joining
  | returned
  deriving DecidableEq, Repr

/-- Where an io worker stands in `serverThreadFunction`. -/
inductive WorkerState where
  | entering
  /-- In `io_service::run`, between two handlers. -/
  | running
  /-- In a completion handler. -/
  | handling
  /-- `io_service::run` has returned or thrown. -/
  | leaving
  | exited
  deriving DecidableEq, Repr

/-- Where a call of `shutdownServer` stands. -/
inductive ShutdownState where
  | requested
  | draining
  | drained
  | locked
  | unlocked
  | returned
  deriving DecidableEq, Repr

/-- A holder of `itsExecutorMutex`. -/
inductive MutexHolder where
  | run
  | shutdown (i : ℕ)
  deriving DecidableEq, Repr

/-- The three pools, in the order in which the functions name them. -/
def pools : List Pool := [.admin, .slow, .fast]

/-- The shared members, the threads, and what was done so far, the last first. -/
structure Process where
  numThreads : ℕ := 1
  itsShutdownRequested : Bool := false
  stopped : Bool := false
  itsRunningWorkers : ℕ := 0
  /-- The executors whose pointers are not null. -/
  executors : List Pool := pools
  /-- The holder of the mutex, and the calls it has still to make. -/
  itsExecutorMutex : Option (MutexHolder × List Deed) := none
  run : RunState := .notCalled
  workers : List WorkerState := []
  shutdowns : List ShutdownState := []
  history : List Deed := []
  deriving DecidableEq, Repr

/-- The steps of the threads. -/
inductive ProcessEvent where
  | callRun
  | spawn
  | lockByRun
  | enter (i : ℕ)
  | beginHandler (i : ℕ)
  | schedule (i : ℕ) (pool : Pool)
  | endHandler (i : ℕ)
  | leave (i : ℕ)
  | exit (i : ℕ)
  | shutdownServer
  | stop (i : ℕ)
  | drain (i : ℕ)
  | lockByShutdown (i : ℕ)
  /-- The holder of the mutex makes its next call. -/
  | next
  | unlock
  | reactorShutdown (i : ℕ)
  | join
  deriving DecidableEq, Repr

namespace Process

/-- The calls of `run` under the mutex. -/
def starts : List Deed := pools.map .start

/-- The calls of `shutdown` under the mutex. -/
def teardown : List Deed :=
  pools.map .setGracefulShutdown ++ pools.map .shutdown ++ pools.map .reset

/-- A call through the pointer to an executor. -/
def call (pool : Pool) (d : Deed) (s : Process) : Process :=
  { s with history := (if pool ∈ s.executors then d else .nullDereference) :: s.history }

/-- One of the calls made under the mutex; resetting a null pointer does nothing. -/
def perform (d : Deed) (s : Process) : Process :=
  match d with
  | .start pool => s.call pool d
  | .setGracefulShutdown pool => s.call pool d
  | .shutdown pool => s.call pool d
  | .reset pool =>
    if pool ∈ s.executors then
      { s with executors := s.executors.erase pool, history := d :: s.history }
    else s
  | _ => s

/-- The worker `i` goes from one of some states to another. -/
def moveWorker (i : ℕ) (source : List WorkerState) (target : WorkerState) (s : Process) :
    Option Process :=
  if ∃ w ∈ s.workers[i]?, w ∈ source then
    some { s with workers := s.workers.set i target }
  else none

/-- The call `i` of `shutdownServer` goes from one state to another. -/
def moveShutdown (i : ℕ) (source target : ShutdownState) (s : Process) : Option Process :=
  if s.shutdowns[i]? = some source then some { s with shutdowns := s.shutdowns.set i target }
  else none

/-- One step.  A stopped io_service executes no handler, and stays stopped. -/
def step (s : Process) : ProcessEvent → Option Process
  | .callRun =>
    if s.run = .notCalled then
      some { s with itsRunningWorkers := s.numThreads, run := .spawning }
    else none
  | .spawn =>
    if s.run = .spawning ∧ s.workers.length < s.numThreads then
      some { s with workers := s.workers ++ [.entering] }
    else none
  | .lockByRun =>
    if s.run = .spawning ∧ s.workers.length = s.numThreads ∧ s.itsExecutorMutex = none then
      some { s with
        run := .locked
        itsExecutorMutex := some (.run,
          if !s.itsShutdownRequested && .admin ∈ s.executors then starts else []) }
    else none
  | .enter i => s.moveWorker i [.entering] .running
  | .beginHandler i => if s.stopped then none else s.moveWorker i [.running] .handling
  | .schedule i pool =>
    if s.workers[i]? = some .handling then
      some { s with history := .schedule pool :: s.history }
    else none
  | .endHandler i => s.moveWorker i [.handling] .running
  | .leave i => s.moveWorker i [.running, .handling] .leaving
  | .exit i =>
    (s.moveWorker i [.leaving] .exited).map fun t =>
      { t with itsRunningWorkers := t.itsRunningWorkers - 1 }
  | .shutdownServer =>
    some { s with itsShutdownRequested := true, shutdowns := s.shutdowns ++ [.requested] }
  | .stop i => (s.moveShutdown i .requested .draining).map fun t => { t with stopped := true }
  | .drain i =>
    if s.itsRunningWorkers = 0 then s.moveShutdown i .draining .drained else none
  | .lockByShutdown i =>
    if s.itsExecutorMutex = none then
      (s.moveShutdown i .drained .locked).map fun t =>
        { t with itsExecutorMutex := some (.shutdown i,
            if .admin ∈ s.executors then teardown else []) }
    else none
  | .next =>
    match s.itsExecutorMutex with
    | some (holder, d :: rest) =>
      some (perform d { s with itsExecutorMutex := some (holder, rest) })
    | _ => none
  | .unlock =>
    match s.itsExecutorMutex with
    | some (.run, []) => some { s with itsExecutorMutex := none, run := .joining }
    | some (.shutdown i, []) =>
      ({ s with itsExecutorMutex := none } : Process).moveShutdown i .locked .unlocked
    | _ => none
  | .reactorShutdown i =>
    (s.moveShutdown i .unlocked .returned).map fun t =>
      { t with history := .reactorShutdown :: t.history }
  | .join =>
    if s.run = .joining ∧ ∀ w ∈ s.workers, w = .exited then some { s with run := .returned }
    else none

/-- What was done in a good order: no executor is used or destroyed once it is
destroyed, no null pointer is dereferenced, and the reactor is shut down when all
executors are gone. -/
def Orderly : List Deed → Prop
  | [] => True
  | d :: past => Orderly past ∧
    match d with
    | .start pool => .reset pool ∉ past
    | .setGracefulShutdown pool => .reset pool ∉ past
    | .shutdown pool => .reset pool ∉ past
    | .reset pool => .reset pool ∉ past
    | .schedule pool => .reset pool ∉ past
    | .reactorShutdown => ∀ pool, .reset pool ∈ past
    | .nullDereference => False

/-- The io workers are out of the handlers for good. -/
def Drained (s : Process) : Prop := s.stopped = true ∧ .handling ∉ s.workers

/-- The pools whose pointers the rest of the teardown will reset. -/
def toReset (rest : List Deed) : List Pool :=
  rest.filterMap fun
    | .reset pool => some pool
    | _ => none

/-- The executors, seen from the mutex: whoever holds it finds all of them or none,
and a teardown has reset those it is done with. -/
def Guarded (s : Process) : Prop :=
  match s.itsExecutorMutex with
  | none => s.executors = pools ∨ s.executors = []
  | some (.run, rest) =>
    s.run = .locked ∧ (s.executors = pools ∧ rest <:+ starts ∨ s.executors = [] ∧ rest = [])
  | some (.shutdown i, rest) =>
    s.shutdowns[i]? = some .locked ∧ rest <:+ teardown ∧ s.executors = toReset rest

/-- The invariant. -/
structure Inv (s : Process) : Prop where
  counted : s.itsRunningWorkers + s.workers.count .exited =
    if s.run = .notCalled then 0 else s.numThreads
  spawned : s.workers.length ≤ if s.run = .notCalled then 0 else s.numThreads
  drained : ∀ c ∈ s.shutdowns, c = .drained ∨ c = .locked ∨ c = .unlocked ∨ c = .returned →
    s.Drained
  stopping : .draining ∈ s.shutdowns → s.stopped = true
  guarded : s.Guarded
  quiet : s.executors ≠ pools → s.Drained
  gone : .unlocked ∈ s.shutdowns ∨ .returned ∈ s.shutdowns → s.executors = []
  orderly : Orderly s.history
  destroyed : ∀ pool, .reset pool ∈ s.history ↔ pool ∉ s.executors

/-! ## Moves of one thread -/

theorem moveWorker_eq {s t : Process} {i : ℕ} {source : List WorkerState} {target : WorkerState}
    (h : s.moveWorker i source target = some t) :
    ∃ w, s.workers[i]? = some w ∧ w ∈ source ∧
      t = { s with workers := s.workers.set i target } := by
  unfold moveWorker at h
  split at h
  · rename_i hw
    obtain ⟨w, hi, hm⟩ := hw
    exact ⟨w, hi, hm, (Option.some.inj h).symm⟩
  · cases h

theorem moveShutdown_eq {s t : Process} {i : ℕ} {source target : ShutdownState}
    (h : s.moveShutdown i source target = some t) :
    s.shutdowns[i]? = some source ∧ t = { s with shutdowns := s.shutdowns.set i target } := by
  unfold moveShutdown at h
  split at h
  · rename_i hi
    exact ⟨hi, (Option.some.inj h).symm⟩
  · cases h

/-- Another list of workers and another count of them. -/
theorem Inv.withWorkers {s : Process} (h : Inv s) {W : List WorkerState} {n : ℕ}
    (hc : n + W.count .exited = if s.run = .notCalled then 0 else s.numThreads)
    (hl : W.length ≤ if s.run = .notCalled then 0 else s.numThreads)
    (hq : s.stopped = true → .handling ∉ s.workers → .handling ∉ W) :
    Inv { s with workers := W, itsRunningWorkers := n } := by
  have hd : s.Drained → Drained { s with workers := W, itsRunningWorkers := n } :=
    fun hd => ⟨hd.1, hq hd.1 hd.2⟩
  exact ⟨hc, hl, fun c hm hc => hd (h.drained c hm hc), h.stopping, h.guarded,
    fun he => hd (h.quiet he), h.gone, h.orderly, h.destroyed⟩

/-- A worker goes on without leaving its function. -/
theorem Inv.moveWorker {s t : Process} (h : Inv s) {i : ℕ} {source : List WorkerState}
    {target : WorkerState} (hmove : s.moveWorker i source target = some t)
    (hsource : .exited ∉ source) (htarget : target ≠ .exited)
    (hq : target = .handling → s.stopped = false) : Inv t := by
  obtain ⟨w, hi, hw, rfl⟩ := moveWorker_eq hmove
  obtain ⟨hlt, rfl⟩ := List.getElem?_eq_some_iff.mp hi
  have hne : s.workers[i] ≠ .exited := fun he => hsource (he ▸ hw)
  refine h.withWorkers (n := s.itsRunningWorkers) ?_ ?_ ?_
  · rw [List.count_set hlt, if_neg (by simpa using hne), if_neg (by simpa using htarget)]
    exact h.counted
  · rw [List.length_set]
    exact h.spawned
  · intro hst hno hmem
    rcases List.mem_or_eq_of_mem_set hmem with hm | hm
    · exact hno hm
    · rw [hq hm.symm] at hst
      cases hst

/-- The exit guard counts the worker out. -/
theorem Inv.exit {s t : Process} (h : Inv s) {i : ℕ}
    (hmove : s.moveWorker i [.leaving] .exited = some t) :
    Inv { t with itsRunningWorkers := t.itsRunningWorkers - 1 } := by
  obtain ⟨w, hi, hw, rfl⟩ := moveWorker_eq hmove
  obtain rfl := List.mem_singleton.mp hw
  obtain ⟨hlt, hat⟩ := List.getElem?_eq_some_iff.mp hi
  have hcounted := h.counted
  have hspawned := h.spawned
  -- the worker itself was not counted out before
  have hless : s.workers.count .exited < s.workers.length := by
    refine Nat.lt_of_le_of_ne List.count_le_length ?_
    intro hall
    have := List.count_eq_length.mp hall _ (List.getElem_mem hlt)
    rw [hat] at this
    cases this
  refine h.withWorkers ?_ ?_ ?_
  · rw [List.count_set hlt, hat]
    simp only [beq_self_eq_true, if_true]
    show s.itsRunningWorkers - 1 + (s.workers.count .exited - 0 + 1) = _
    omega
  · rw [List.length_set]
    exact hspawned
  · intro _ hno hmem
    rcases List.mem_or_eq_of_mem_set hmem with hm | hm
    · exact hno hm
    · cases hm

/-- The workers are all counted out when the count is zero. -/
theorem Inv.no_handling {s : Process} (h : Inv s) (hzero : s.itsRunningWorkers = 0) :
    .handling ∉ s.workers := by
  have hcounted := h.counted
  have hspawned := h.spawned
  rw [hzero] at hcounted
  have hall : s.workers.count .exited = s.workers.length := by
    have := List.count_le_length (a := WorkerState.exited) (l := s.workers)
    omega
  intro hmem
  have := List.count_eq_length.mp hall _ hmem
  cases this

/-- Who holds the mutex is not moved by the others. -/
theorem Guarded.moveShutdown {s : Process} (h : s.Guarded) {i : ℕ}
    {source target : ShutdownState} (hi : s.shutdowns[i]? = some source) (hs : source ≠ .locked) :
    Guarded { s with shutdowns := s.shutdowns.set i target } := by
  unfold Guarded at h ⊢
  dsimp only
  cases hm : s.itsExecutorMutex with
  | none =>
    rw [hm] at h
    exact h
  | some p =>
    obtain ⟨holder, rest⟩ := p
    rw [hm] at h
    cases holder with
    | run => exact h
    | shutdown j =>
      obtain ⟨hj, h2⟩ := h
      have hne : i ≠ j := by
        rintro rfl
        exact hs (Option.some.inj (hi.symm.trans hj))
      refine ⟨?_, h2⟩
      rw [List.getElem?_set_ne hne]
      exact hj

/-! ## Calls under the mutex -/

theorem mem_pools (pool : Pool) : pool ∈ pools := by
  cases pool <;> decide

/-- The next call of a teardown: a pointer is used before the first reset, and every
pointer is reset once. -/
theorem teardown_cons {d : Deed} {rest : List Deed} (h : d :: rest <:+ teardown) :
    (∃ pool, (d = .setGracefulShutdown pool ∨ d = .shutdown pool) ∧
      toReset (d :: rest) = pools ∧ toReset rest = pools) ∨
    ∃ pool, d = .reset pool ∧ toReset (d :: rest) = pool :: toReset rest ∧
      pool ∉ toReset rest := by
  simp only [teardown, pools, List.map_cons, List.map_nil, List.cons_append, List.nil_append,
    List.suffix_cons_iff, List.suffix_nil, List.cons.injEq, reduceCtorEq, or_false] at h
  rcases h with ⟨rfl, rfl⟩ | ⟨rfl, rfl⟩ | ⟨rfl, rfl⟩ | ⟨rfl, rfl⟩ | ⟨rfl, rfl⟩ | ⟨rfl, rfl⟩ |
    ⟨rfl, rfl⟩ | ⟨rfl, rfl⟩ | ⟨rfl, rfl⟩
  · exact Or.inl ⟨.admin, Or.inl rfl, rfl, rfl⟩
  · exact Or.inl ⟨.slow, Or.inl rfl, rfl, rfl⟩
  · exact Or.inl ⟨.fast, Or.inl rfl, rfl, rfl⟩
  · exact Or.inl ⟨.admin, Or.inr rfl, rfl, rfl⟩
  · exact Or.inl ⟨.slow, Or.inr rfl, rfl, rfl⟩
  · exact Or.inl ⟨.fast, Or.inr rfl, rfl, rfl⟩
  · exact Or.inr ⟨.admin, rfl, rfl, by decide⟩
  · exact Or.inr ⟨.slow, rfl, rfl, by decide⟩
  · exact Or.inr ⟨.fast, rfl, rfl, by decide⟩

/-- A call through a pointer that is not null. -/
theorem call_eq {s : Process} (hall : s.executors = pools) (pool : Pool) (d : Deed) :
    s.call pool d = { s with history := d :: s.history } := by
  unfold call
  rw [hall, if_pos (mem_pools pool)]

/-- An executor that exists may be used. -/
theorem Inv.use {s : Process} (h : Inv s) (hall : s.executors = pools) {d : Deed}
    (horder : (∀ pool, .reset pool ∉ s.history) → Orderly s.history → Orderly (d :: s.history))
    (hd : ∀ pool, d ≠ .reset pool) : Inv { s with history := d :: s.history } := by
  have hnone : ∀ pool, .reset pool ∉ s.history := by
    intro pool hmem
    refine (h.destroyed pool).mp hmem ?_
    rw [hall]
    exact mem_pools pool
  refine ⟨h.counted, h.spawned, h.drained, h.stopping, h.guarded, h.quiet, h.gone,
    horder hnone h.orderly, ?_⟩
  intro pool
  rw [List.mem_cons, or_iff_right (fun he => hd pool he.symm)]
  exact h.destroyed pool

/-- The next call of `run`: an executor is started. -/
theorem Inv.next_run {s : Process} (h : Inv s) {d : Deed} {rest : List Deed}
    (hm : s.itsExecutorMutex = some (.run, d :: rest)) :
    Inv (perform d { s with itsExecutorMutex := some (.run, rest) }) := by
  have hg := h.guarded
  unfold Guarded at hg
  rw [hm] at hg
  obtain ⟨hrun, ⟨hall, hsuf⟩ | ⟨-, hnil⟩⟩ := hg
  · obtain ⟨pool, rfl⟩ : ∃ pool, d = .start pool := by
      have hd : d ∈ starts := hsuf.subset List.mem_cons_self
      obtain ⟨pool, -, hp⟩ := List.mem_map.mp hd
      exact ⟨pool, hp.symm⟩
    have ht : Inv { s with itsExecutorMutex := some (.run, rest) } :=
      ⟨h.counted, h.spawned, h.drained, h.stopping,
        ⟨hrun, Or.inl ⟨hall, (List.suffix_cons _ _).trans hsuf⟩⟩, h.quiet, h.gone, h.orderly,
        h.destroyed⟩
    have hcall := call_eq (s := { s with itsExecutorMutex := some (.run, rest) }) hall pool
      (.start pool)
    show Inv (call pool (.start pool) { s with itsExecutorMutex := some (.run, rest) })
    rw [hcall]
    exact ht.use hall (fun hn ho => ⟨ho, hn pool⟩) (by simp)
  · cases hnil

/-- The next call of a teardown. -/
theorem Inv.next_shutdown {s : Process} (h : Inv s) {i : ℕ} {d : Deed} {rest : List Deed}
    (hm : s.itsExecutorMutex = some (.shutdown i, d :: rest)) :
    Inv (perform d { s with itsExecutorMutex := some (.shutdown i, rest) }) := by
  have hg := h.guarded
  unfold Guarded at hg
  rw [hm] at hg
  obtain ⟨hi, hsuf, hex⟩ := hg
  have hrest : rest <:+ teardown := (List.suffix_cons _ _).trans hsuf
  have hdrained : s.Drained :=
    h.drained .locked (List.mem_of_getElem? hi) (Or.inr (Or.inl rfl))
  rcases teardown_cons hsuf with ⟨pool, hd, hall, hall'⟩ | ⟨pool, rfl, hreset, hnot⟩
  · -- the pointers are used
    have hpools : s.executors = pools := hex.trans hall
    have ht : Inv { s with itsExecutorMutex := some (.shutdown i, rest) } :=
      ⟨h.counted, h.spawned, h.drained, h.stopping, ⟨hi, hrest, hpools.trans hall'.symm⟩,
        h.quiet, h.gone, h.orderly, h.destroyed⟩
    have hcall : perform d { s with itsExecutorMutex := some (.shutdown i, rest) } =
        { s with itsExecutorMutex := some (.shutdown i, rest), history := d :: s.history } := by
      refine Eq.trans ?_
        (call_eq (s := { s with itsExecutorMutex := some (.shutdown i, rest) }) hpools pool d)
      rcases hd with rfl | rfl
      · rfl
      · rfl
    rw [hcall]
    refine ht.use hpools ?_ ?_
    · intro hn ho
      rcases hd with rfl | rfl
      · exact ⟨ho, hn pool⟩
      · exact ⟨ho, hn pool⟩
    · intro q hq
      rcases hd with rfl | rfl
      · cases hq
      · cases hq
  · -- a pointer is reset
    have hpool : s.executors = pool :: toReset rest := hex.trans hreset
    have hmem : pool ∈ s.executors := by
      rw [hpool]
      exact List.mem_cons_self
    have herase : s.executors.erase pool = toReset rest := by
      rw [hpool, List.erase_cons_head]
    have hperform : perform (.reset pool) { s with itsExecutorMutex := some (.shutdown i, rest) } =
        { s with
          itsExecutorMutex := some (.shutdown i, rest)
          executors := toReset rest
          history := .reset pool :: s.history } := by
      unfold perform
      dsimp only
      rw [if_pos hmem, herase]
    rw [hperform]
    refine ⟨h.counted, h.spawned, h.drained, h.stopping, ⟨hi, hrest, rfl⟩, fun _ => hdrained, ?_,
      ⟨h.orderly, fun hin => (h.destroyed pool).mp hin hmem⟩, ?_⟩
    · intro hg
      have := h.gone hg
      rw [hpool] at this
      cases this
    · intro q
      rw [List.mem_cons, h.destroyed q, hpool, List.mem_cons, not_or]
      constructor
      · rintro (hq | ⟨-, hq⟩)
        · obtain rfl := Deed.reset.inj hq
          exact hnot
        · exact hq
      · intro hq
        by_cases he : q = pool
        · exact Or.inl (by rw [he])
        · exact Or.inr ⟨he, hq⟩

/-! ## The steps of a shutdown -/

theorem Inv.stop {s t : Process} (h : Inv s) {i : ℕ}
    (hmove : s.moveShutdown i .requested .draining = some t) :
    Inv { t with stopped := true } := by
  obtain ⟨hi, rfl⟩ := moveShutdown_eq hmove
  have hd : s.Drained → Drained { s with
      shutdowns := s.shutdowns.set i .draining
      stopped := true } := fun hd => ⟨rfl, hd.2⟩
  refine ⟨h.counted, h.spawned, ?_, fun _ => rfl, h.guarded.moveShutdown hi (by simp),
    fun he => hd (h.quiet he), ?_, h.orderly, h.destroyed⟩
  · intro c hc hcases
    rcases List.mem_or_eq_of_mem_set hc with hm | rfl
    · exact hd (h.drained c hm hcases)
    · simp at hcases
  · intro hg
    refine h.gone (hg.imp ?_ ?_)
    · intro hm
      exact (List.mem_or_eq_of_mem_set hm).resolve_right (by simp)
    · intro hm
      exact (List.mem_or_eq_of_mem_set hm).resolve_right (by simp)

/-- The wait has ended because no worker is left in a handler. -/
theorem Inv.drain {s t : Process} (h : Inv s) {i : ℕ} (hzero : s.itsRunningWorkers = 0)
    (hmove : s.moveShutdown i .draining .drained = some t) : Inv t := by
  obtain ⟨hi, rfl⟩ := moveShutdown_eq hmove
  have hdrained : s.Drained := ⟨h.stopping (List.mem_of_getElem? hi), h.no_handling hzero⟩
  refine ⟨h.counted, h.spawned, fun _ _ _ => hdrained, fun _ => hdrained.1,
    h.guarded.moveShutdown hi (by simp), fun _ => hdrained, ?_, h.orderly, h.destroyed⟩
  intro hg
  refine h.gone (hg.imp ?_ ?_)
  · intro hm
    exact (List.mem_or_eq_of_mem_set hm).resolve_right (by simp)
  · intro hm
    exact (List.mem_or_eq_of_mem_set hm).resolve_right (by simp)

theorem Inv.lockByShutdown {s t : Process} (h : Inv s) {i : ℕ}
    (hfree : s.itsExecutorMutex = none) (hmove : s.moveShutdown i .drained .locked = some t) :
    Inv { t with itsExecutorMutex := some (.shutdown i,
      if .admin ∈ s.executors then teardown else []) } := by
  obtain ⟨hi, rfl⟩ := moveShutdown_eq hmove
  have hdrained : s.Drained := h.drained .drained (List.mem_of_getElem? hi) (Or.inl rfl)
  have hlt := (List.getElem?_eq_some_iff.mp hi).1
  have hg := h.guarded
  unfold Guarded at hg
  rw [hfree] at hg
  refine ⟨h.counted, h.spawned, fun _ _ _ => hdrained, fun _ => hdrained.1, ?_, fun _ => hdrained,
    ?_, h.orderly, h.destroyed⟩
  · refine ⟨List.getElem?_set_self hlt, ?_⟩
    rcases hg with hall | hnone
    · rw [hall]
      exact ⟨List.suffix_refl _, rfl⟩
    · rw [hnone]
      exact ⟨List.nil_suffix, rfl⟩
  · intro hg
    refine h.gone (hg.imp ?_ ?_)
    · intro hm
      exact (List.mem_or_eq_of_mem_set hm).resolve_right (by simp)
    · intro hm
      exact (List.mem_or_eq_of_mem_set hm).resolve_right (by simp)

theorem Inv.unlock {s t : Process} (h : Inv s) (hstep : s.step .unlock = some t) : Inv t := by
  have hg := h.guarded
  simp only [Process.step] at hstep
  unfold Guarded at hg
  split at hstep
  · rename_i hm
    rw [hm] at hg
    obtain rfl := Option.some.inj hstep
    obtain ⟨hrun, hex⟩ := hg
    have hcounted := h.counted
    have hspawned := h.spawned
    rw [hrun, if_neg (by simp)] at hcounted hspawned
    exact ⟨hcounted, hspawned, h.drained, h.stopping, hex.imp And.left And.left, h.quiet, h.gone,
      h.orderly, h.destroyed⟩
  · rename_i i hm
    rw [hm] at hg
    obtain ⟨hi, rfl⟩ := moveShutdown_eq hstep
    obtain ⟨-, -, hnone⟩ := hg
    have hdrained : s.Drained := h.drained .locked (List.mem_of_getElem? hi) (Or.inr (Or.inl rfl))
    exact ⟨h.counted, h.spawned, fun _ _ _ => hdrained, fun _ => hdrained.1, Or.inr hnone,
      fun _ => hdrained, fun _ => hnone, h.orderly, h.destroyed⟩
  · cases hstep

/-- The reactor is shut down when all executors are gone. -/
theorem Inv.reactorShutdown {s t : Process} (h : Inv s) {i : ℕ}
    (hmove : s.moveShutdown i .unlocked .returned = some t) :
    Inv { t with history := .reactorShutdown :: t.history } := by
  obtain ⟨hi, rfl⟩ := moveShutdown_eq hmove
  have hmem := List.mem_of_getElem? hi
  have hdrained : s.Drained := h.drained .unlocked hmem (Or.inr (Or.inr (Or.inl rfl)))
  have hnone : s.executors = [] := h.gone (Or.inl hmem)
  refine ⟨h.counted, h.spawned, fun _ _ _ => hdrained, fun _ => hdrained.1,
    h.guarded.moveShutdown hi (by simp), fun _ => hdrained, fun _ => hnone, ⟨h.orderly, ?_⟩, ?_⟩
  · intro pool
    rw [h.destroyed pool, hnone]
    exact List.not_mem_nil
  · intro pool
    rw [List.mem_cons, or_iff_right (by simp)]
    exact h.destroyed pool

/-! ## Runs -/

/-- **Every step keeps the invariant.** -/
theorem Inv.step {s t : Process} {e : ProcessEvent} (h : Inv s) (hstep : s.step e = some t) :
    Inv t := by
  have hcounted := h.counted
  have hspawned := h.spawned
  cases e with
  | callRun =>
    simp only [Process.step] at hstep
    split at hstep
    · rename_i hrun
      obtain rfl := Option.some.inj hstep
      rw [if_pos hrun] at hcounted hspawned
      have hguarded : Guarded { s with itsRunningWorkers := s.numThreads, run := .spawning } := by
        have hg := h.guarded
        unfold Guarded at hg ⊢
        dsimp only
        split at hg
        · exact hg
        · rw [hrun] at hg
          exact absurd hg.1 (by simp)
        · exact hg
      refine ⟨?_, ?_, h.drained, h.stopping, hguarded, h.quiet, h.gone, h.orderly, h.destroyed⟩
      · show s.numThreads + s.workers.count .exited = s.numThreads
        omega
      · show s.workers.length ≤ s.numThreads
        omega
    · cases hstep
  | spawn =>
    simp only [Process.step] at hstep
    split at hstep
    · rename_i hrun
      obtain rfl := Option.some.inj hstep
      rw [hrun.1, if_neg (by simp)] at hcounted hspawned
      refine h.withWorkers (n := s.itsRunningWorkers) ?_ ?_ ?_
      · rw [hrun.1, if_neg (by simp), List.count_append]
        exact hcounted
      · rw [hrun.1, if_neg (by simp), List.length_append]
        exact hrun.2
      · intro _ hno hmem
        rcases List.mem_append.mp hmem with hm | hm
        · exact hno hm
        · simp at hm
    · cases hstep
  | lockByRun =>
    simp only [Process.step] at hstep
    split at hstep
    · rename_i hrun
      obtain ⟨hrun, -, hfree⟩ := hrun
      obtain rfl := Option.some.inj hstep
      rw [hrun, if_neg (by simp)] at hcounted hspawned
      -- whoever finds the mutex free finds all executors or none
      have hg := h.guarded
      unfold Guarded at hg
      rw [hfree] at hg
      refine ⟨hcounted, hspawned, h.drained, h.stopping, ⟨rfl, ?_⟩, h.quiet, h.gone, h.orderly,
        h.destroyed⟩
      rcases hg with hall | hnone
      · -- nothing is started once a shutdown was requested
        refine Or.inl ⟨hall, ?_⟩
        split
        · exact List.suffix_refl _
        · exact List.nil_suffix
      · refine Or.inr ⟨hnone, if_neg ?_⟩
        rw [hnone]
        simp
    · cases hstep
  | enter i => exact h.moveWorker hstep (by simp) (by simp) (by simp)
  | beginHandler i =>
    simp only [Process.step] at hstep
    split at hstep
    · cases hstep
    · rename_i hst
      exact h.moveWorker hstep (by simp) (by simp) fun _ => by simpa using hst
  | endHandler i => exact h.moveWorker hstep (by simp) (by simp) (by simp)
  | leave i => exact h.moveWorker hstep (by simp) (by simp) (by simp)
  | exit i =>
    simp only [Process.step, Option.map_eq_some_iff] at hstep
    obtain ⟨u, hu, rfl⟩ := hstep
    exact h.exit hu
  | schedule i pool =>
    simp only [Process.step] at hstep
    split at hstep
    · rename_i hi
      obtain rfl := Option.some.inj hstep
      -- a worker in a handler keeps the teardown waiting
      have hall : s.executors = pools := by
        by_contra hne
        exact (h.quiet hne).2 (List.mem_of_getElem? hi)
      exact h.use hall (fun hn ho => ⟨ho, hn pool⟩) (by simp)
    · cases hstep
  | shutdownServer =>
    obtain rfl := Option.some.inj hstep
    have hguarded : Guarded { s with
        itsShutdownRequested := true
        shutdowns := s.shutdowns ++ [.requested] } := by
      have hg := h.guarded
      unfold Guarded at hg ⊢
      dsimp only
      split at hg
      · exact hg
      · exact hg
      · -- the holder of the mutex is one of the calls before
        obtain ⟨hi, h2⟩ := hg
        refine ⟨?_, h2⟩
        rw [List.getElem?_append_left (List.getElem?_eq_some_iff.mp hi).1]
        exact hi
    refine ⟨hcounted, hspawned, ?_, ?_, hguarded, h.quiet, ?_, h.orderly, h.destroyed⟩
    · intro c hc hcases
      rcases List.mem_append.mp hc with hm | hm
      · exact h.drained c hm hcases
      · obtain rfl := List.mem_singleton.mp hm
        simp at hcases
    · intro hc
      exact h.stopping (by simpa using hc)
    · intro hg
      exact h.gone (by simpa using hg)
  | stop i =>
    simp only [Process.step, Option.map_eq_some_iff] at hstep
    obtain ⟨u, hu, rfl⟩ := hstep
    exact h.stop hu
  | drain i =>
    simp only [Process.step] at hstep
    split at hstep
    · rename_i hzero
      exact h.drain hzero hstep
    · cases hstep
  | lockByShutdown i =>
    simp only [Process.step] at hstep
    split at hstep
    · rename_i hfree
      obtain ⟨u, hu, rfl⟩ := Option.map_eq_some_iff.mp hstep
      exact h.lockByShutdown hfree hu
    · cases hstep
  | next =>
    simp only [Process.step] at hstep
    split at hstep
    · rename_i holder d rest hm
      obtain rfl := Option.some.inj hstep
      cases holder with
      | run => exact h.next_run hm
      | shutdown i => exact h.next_shutdown hm
    · cases hstep
  | unlock => exact h.unlock hstep
  | reactorShutdown i =>
    simp only [Process.step, Option.map_eq_some_iff] at hstep
    obtain ⟨u, hu, rfl⟩ := hstep
    exact h.reactorShutdown hu
  | join =>
    simp only [Process.step] at hstep
    split at hstep
    · rename_i hrun
      obtain rfl := Option.some.inj hstep
      rw [hrun.1, if_neg (by simp)] at hcounted hspawned
      have hguarded : Guarded { s with run := .returned } := by
        have hg := h.guarded
        unfold Guarded at hg ⊢
        dsimp only
        split at hg
        · exact hg
        · rw [hrun.1] at hg
          exact absurd hg.1 (by simp)
        · exact hg
      exact ⟨hcounted, hspawned, h.drained, h.stopping, hguarded, h.quiet, h.gone, h.orderly,
        h.destroyed⟩
    · cases hstep

/-- A server that was constructed and has not been run yet. -/
def constructed (numThreads : ℕ) : Process := { numThreads := numThreads }

theorem inv_constructed (n : ℕ) : Inv (constructed n) := by
  refine ⟨rfl, Nat.le_refl 0, ?_, ?_, Or.inl rfl, fun h => absurd rfl h, ?_, trivial, ?_⟩
  · intro c hc
    cases hc
  · intro hc
    cases hc
  · rintro (hc | hc)
    · cases hc
    · cases hc
  · intro pool
    refine ⟨fun hc => (List.not_mem_nil hc).elim, fun hc => absurd (mem_pools pool) hc⟩

/-- **Executor lifecycle.**  However `run`, its workers and calls of
`shutdownServer` interleave, everything is done in a good order (`Orderly`): no
executor is started, shut down, scheduled onto or destroyed after its
destruction, no null executor is dereferenced, and the reactor is shut down only
when no executor is left. -/
theorem executor_lifecycle (n : ℕ) (es : List ProcessEvent) (s : Process)
    (hrun : Transition.run step (constructed n) es = some s) : Orderly s.history :=
  (Transition.run_preserves (P := Inv) (fun _ _ _ h hstep => h.step hstep) (inv_constructed n)
    hrun).orderly

/-- Two shutdowns, the first before `run` is called. -/
def shutdownFirst : List ProcessEvent :=
  [.shutdownServer, .stop 0, .drain 0, .callRun, .lockByShutdown 0] ++ List.replicate 9 .next ++
    [.unlock, .spawn, .enter 0, .shutdownServer, .reactorShutdown 0, .lockByRun, .unlock, .leave 0,
      .exit 0, .join, .stop 1, .drain 1, .lockByShutdown 1, .unlock, .reactorShutdown 1]

theorem executor_lifecycle_shutdownFirst :
    ∃ s, Transition.run step (constructed 1) shutdownFirst = some s ∧ s.run = .returned ∧
      Orderly s.history := by
  obtain ⟨s, hs, hr⟩ : ∃ s, Transition.run step (constructed 1) shutdownFirst = some s ∧
      s.run = .returned := ⟨_, rfl, rfl⟩
  exact ⟨s, hs, hr, executor_lifecycle 1 _ s hs⟩

end Process

end SmartMet
