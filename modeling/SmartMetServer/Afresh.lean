/-
# A re-armed connection and a new one

Nothing is carried from one request to the next but the request count, the address of
the client, the bytes that were left over, and the state of the socket.  A connection
that has been re-armed goes on like one that was just started with these four: the same
requests, handlers and bytes on the wire, for every run.  Only a timer that runs out
before the first byte is told apart: the idle connection is closed without a reply.

* `started` : the new connection;
* `Early` : the re-armed one is idle yet;
* `afresh_step` : a step of the re-armed connection, answered by the new one;
* `serves_afresh` : every run.
-/
import SmartMetServer.Alike
import SmartMetServer.Shutdown

namespace SmartMet

namespace AsyncConnection

variable {srv : Server} {i : Bool} {h k : List Obs} {s t : AsyncConnection}

/-! ## The timer's handlers -/

/-- Each arming has one wait, and none is of a later arming. -/
structure Clocked (s : AsyncConnection) : Prop where
  stamped : Stamped s
  distinct : Distinct s

theorem Clocked.step {s' : AsyncConnection} {e : Event} (hs : Clocked s)
    (hstep : step srv s e = some s') : Clocked s' := by
  obtain ⟨x, hx, rfl⟩ := exists_outcome srv hstep
  have hst := stamped_tail srv hs.stamped hx
  have hd := distinct_tail srv hs.stamped hs.distinct hx
  rcases rests_or_rearms srv e.answers x with hrest | hre
  · exact ⟨hst.of_waits hrest.waits hrest.generation, hd.winds (.of_eq hrest.waits)⟩
  · exact ⟨(hre.ticks hst).1, hre.distinct hst hd⟩

theorem clocked_armTimer (n : ℕ) (hs : Clocked s) : Clocked (armTimer n s) :=
  ⟨(ticks_armTimer n hs.stamped).1, distinct_armTimer n hs.stamped hs.distinct⟩

theorem expire_aborted (w : TimerWait) : w.expire.status = .aborted ↔ w.status = .aborted := by
  unfold TimerWait.expire
  cases w.status with
  | pending => simp
  | expired => simp
  | aborted => simp

/-- Whether the timer can act does not depend on whether it has run out. -/
theorem ticking_expire : Ticking s.expire ↔ Ticking s := by
  constructor
  · rintro ⟨w, hw, hgen, hab⟩
    obtain ⟨v, hv, rfl⟩ := List.mem_map.mp hw
    exact ⟨v, hv, hgen, fun hv' => hab ((expire_aborted v).mpr hv')⟩
  · rintro ⟨v, hv, hgen, hab⟩
    exact ⟨v.expire, List.mem_map_of_mem hv, hgen, fun hv' => hab ((expire_aborted v).mp hv')⟩

/-- Nor on the waits of earlier armings. -/
theorem ticking_taken {generation : ℕ} {w : TimerWait} (hw : s.readyWait generation = some w)
    (hacts : ¬ Threads.Acts s generation) : Ticking (Threads.taken s w) ↔ Ticking s := by
  constructor
  · rintro ⟨v, hv, hgen, hab⟩
    exact ⟨v, List.mem_of_mem_erase hv, hgen, hab⟩
  · rintro ⟨v, hv, hgen, hab⟩
    refine ⟨v, (List.mem_erase_of_ne ?_).mpr hv, hgen, hab⟩
    rintro rfl
    have hgen' := (List.find?_some hw)
    simp only [Bool.and_eq_true, beq_iff_eq] at hgen'
    exact hacts ⟨hgen'.1.symm.trans hgen, v, hw, hab⟩

/-- Without its wait the timer cannot act. -/
theorem not_ticking_erase (hs : Distinct s) {v : TimerWait} (hv : v ∈ s.world.waits)
    (hgen : v.generation = s.itsTimerGeneration) :
    ¬ Ticking { s with world.waits := s.world.waits.erase v } := by
  rintro ⟨w, hw, hwgen, -⟩
  have hnodup : s.world.waits.Nodup := List.Nodup.of_map _ hs
  obtain ⟨hne, hmem⟩ := (List.Nodup.mem_erase_iff hnodup).mp hw
  exact hne (List.inj_on_of_nodup_map hs hmem hv (hwgen.trans hgen.symm))

variable (srv) (a : Answers)

/-- The handler of the last arming, on two connections that can time out both. -/
theorem Alike.fire (hst : Alike true h k s t) :
    EndAlike true h k (Tail.handleTimer srv a .success s.itsTimerGeneration s)
      (Tail.handleTimer srv a .success t.itsTimerGeneration t) := by
  obtain ⟨p, rfl, htr, hw, hi⟩ := hst
  have hout : Alike true h k { s with hasTimedOut := true }
      { s.recast p with hasTimedOut := true } := ⟨p, rfl, htr, hw, hi⟩
  have hacts : ∀ u : AsyncConnection,
      Tail.handleTimer srv a .success u.itsTimerGeneration u =
        if u.itsIdle then .stop (AsyncConnection.closeSocket { u with hasTimedOut := true })
        else Tail.sendStockReply srv a .requestTimeout
          { u with hasTimedOut := true, itsKeepAlive := false } := by
    intro u
    unfold Tail.handleTimer
    rw [if_neg (by simp), if_neg (by simp)]
  have hidle : (s.recast p).itsIdle = s.itsIdle := hi rfl
  rw [hacts, hacts]
  by_cases hs : s.itsIdle = true
  · rw [if_pos hs, if_pos (hidle.trans hs)]
    exact .stop hout.closeSocket
  · rw [if_neg hs, if_neg fun hc => hs (hidle.symm.trans hc)]
    exact hout.endKeepAlive.sendStockReply srv a _

/-- A wait that has run out is called. -/
theorem step_fire (hs : Distinct s) {v : TimerWait} (hv : v ∈ s.world.waits)
    (hgen : v.generation = s.itsTimerGeneration) (hstatus : v.status = .expired) :
    step srv s (.runTimer s.itsTimerGeneration a) =
      some ((Tail.handleTimer srv a .success s.itsTimerGeneration
        { s with world.waits := s.world.waits.erase v }).run srv a) := by
  have hready : s.readyWait s.itsTimerGeneration = some v := by
    obtain ⟨w, hw⟩ := Option.isSome_iff_exists.mp (List.find?_isSome
      (p := fun w => w.generation == s.itsTimerGeneration && w.status != .pending).mpr
        ⟨v, hv, by simp [hgen, hstatus]⟩)
    have hwgen := List.find?_some hw
    simp only [Bool.and_eq_true, beq_iff_eq] at hwgen
    rw [readyWait, hw, List.inj_on_of_nodup_map hs (List.mem_of_find?_eq_some hw) hv
      (hwgen.1.trans hgen.symm)]
  rw [step_eq]
  simp only [Tail.step]
  rw [hready]
  dsimp only
  rw [if_neg (by simp [hstatus])]
  rfl

/-- **The timer that can act** acts, when it has run out. -/
theorem exists_fire (hs : Distinct s) (ht : Ticking s) :
    ∃ es v, (∀ e ∈ es, e.isTimer = true) ∧
      ¬ Ticking { s with world.waits := v } ∧
      runFrom srv s es = some ((Tail.handleTimer srv a .success s.itsTimerGeneration
        { s with world.waits := v }).run srv a) := by
  obtain ⟨v, hv, hgen, hab⟩ := ht
  by_cases hpending : v.status = .pending
  · -- it has not run out yet
    have hd : Distinct s.expire := hs.winds (winds_expire _)
    have hv' : v.expire ∈ s.expire.world.waits := List.mem_map_of_mem hv
    have hstatus : v.expire.status = .expired := by
      unfold TimerWait.expire
      rw [if_pos hpending]
    have hexpires : step srv s .timerExpires = some s.expire := by
      have hany : (s.world.waits.any fun w => w.status == .pending) = true :=
        List.any_eq_true.mpr ⟨v, hv, by simp [hpending]⟩
      simp only [step]
      rw [if_pos hany]
      rfl
    refine ⟨[.timerExpires, .runTimer s.itsTimerGeneration a], s.expire.world.waits.erase v.expire,
      by simp [Event.isTimer], not_ticking_erase hd hv' hgen, ?_⟩
    exact Transition.run_cons.mpr ⟨_, hexpires,
      Transition.run_cons.mpr ⟨_, step_fire srv a hd hv' hgen hstatus, rfl⟩⟩
  · have hstatus : v.status = .expired := by
      cases hstatus : v.status with
      | pending => exact absurd hstatus hpending
      | expired => rfl
      | aborted => exact absurd hstatus hab
    refine ⟨[.runTimer s.itsTimerGeneration a], s.world.waits.erase v,
      by simp [Event.isTimer], not_ticking_erase hs hv hgen, ?_⟩
    exact Transition.run_cons.mpr ⟨_, step_fire srv a hs hv hgen hstatus, rfl⟩

/-! ## The idle connection -/

/-- The re-armed connection has not looked at any bytes; `P` are the exchanges that
were over when it was re-armed. -/
structure Early (P : List Exchange) (t : AsyncConnection) : Prop where
  idle : t.itsIdle = true
  past : past t.world.trace = P
  waiting : ∀ y ∈ t.world.outstanding, ¬ y.Works
  ticks : t.hasTimedOut = false → Ticking t

/-- The timer acts on the idle connection. -/
def IdleExpiry (P : List Exchange) (t : AsyncConnection) : Event → Prop
  | .runTimer generation _ =>
    Threads.Acts t generation ∧ t.itsIdle = true ∧ past t.world.trace = P
  | _ => False

instance decidableIdleExpiry (P : List Exchange) (t : AsyncConnection) :
    ∀ e, Decidable (IdleExpiry P t e)
  | .runTimer generation _ =>
    inferInstanceAs (Decidable (Threads.Acts t generation ∧ t.itsIdle = true ∧
      past t.world.trace = P))
  | .handshake _ _ => isFalse id
  | .receive _ _ => isFalse id
  | .readFails _ _ _ => isFalse id
  | .runRead _ _ => isFalse id
  | .runTask _ _ => isFalse id
  | .writeSome _ _ _ => isFalse id
  | .writeFails _ _ => isFalse id
  | .timerExpires => isFalse id
  | .requestShutdown => isFalse id

variable {P : List Exchange} {u : AsyncConnection}

/-- Nothing was looked at in between. -/
theorem Early.of_same (ht : Early P t) (hidle : u.itsIdle = t.itsIdle)
    (hpast : SmartMet.past u.world.trace = SmartMet.past t.world.trace)
    (hout : ∀ y ∈ u.world.outstanding, y ∈ t.world.outstanding ∨ ¬ y.Works)
    (hto : u.hasTimedOut = t.hasTimedOut) (hticks : Ticking t → Ticking u) : Early P u := by
  refine ⟨hidle.trans ht.idle, hpast.trans ht.past, fun y hy => ?_, fun hno => ?_⟩
  · rcases hout y hy with hy | hy
    · exact ht.waiting y hy
    · exact hy
  · exact hticks (ht.ticks (hto.symm.trans hno))

theorem mem_release {j : ℕ} {y : Activity} (hy : y ∈ (t.release j).world.outstanding) :
    y ∈ t.world.outstanding :=
  List.mem_of_mem_eraseIdx hy

theorem Rests.ticking (hr : Rests t u) (ht : Ticking t) : Ticking u := by
  unfold Ticking
  rw [hr.waits, hr.generation]
  exact ht

/-- Where no bytes are looked at, the connection stays idle. -/
theorem Early.noLook (ht : Early P t) (j : ℕ) (e : ErrorCode) (bytes : Bytes)
    (hno : t.world.shutdownRequested = true ∨ e ≠ .success) :
    Early P ((Tail.handleRead srv a e bytes (t.release j)).run srv a) := by
  unfold Tail.handleRead
  by_cases hshutdown : (t.release j).world.shutdownRequested = true
  · rw [if_pos hshutdown]
    have hrest : Rests (stockResponse srv a srv.spine.shutdown (t.release j))
        ((Tail.sendStockReply srv a srv.spine.shutdown (t.release j)).run srv a) := by
      refine (rests_or_rearms srv a (Tail.sendStockReply srv a srv.spine.shutdown
        (t.release j))).resolve_right fun hre => ?_
      have hwinds := winding_run srv a (x := Tail.sendStockReply srv a srv.spine.shutdown
        (t.release j)) hshutdown
      exact hre.past (hwinds.late fun o ho => ho.1).2.1
    refine ht.of_same hrest.idle hrest.past (fun y hy => .inl ?_) hrest.timedOut hrest.ticking
    rw [hrest.outstanding] at hy
    exact mem_release hy
  · rw [if_neg hshutdown]
    dsimp only
    rw [if_neg (hno.resolve_left hshutdown)]
    exact ht.of_same rfl rfl (fun y hy => .inl (mem_release hy)) rfl id

theorem Early.swaps (ht : Early P t) (hst : Alike i h k s t) : Swaps s t := by
  obtain ⟨p, rfl, -, htick, -⟩ := hst
  exact fun hto => .inr (htick.mpr (ht.ticks hto))

/-- What answers a step, where the steps are related. -/
theorem exists_of_rel {α β : Type} {R : α → β → Prop} {x : Option α} {b : β}
    (hx : Option.Rel R x (some b)) : ∃ a, x = some a ∧ R a b := by
  cases hx with
  | some hab => exact ⟨_, rfl, hab⟩

/-- **A step of the idle connection**, the timer's apart. -/
theorem Early.step (ht : Early P t) (hst : Alike false h k s t) (hs : Clocked s) (hc : Clocked t)
    {e : Event} (he : e.isTimer = false) (hstep : step srv t e = some u) :
    ∃ v, AsyncConnection.step srv s e = some v ∧
      (Alike true h k v u ∨ Alike false h k v u ∧ Early P u) := by
  have hrel := alike_step srv hst (ht.swaps hst) hs.stamped hc.stamped he
  rw [hstep] at hrel
  obtain ⟨v, hv, hvu⟩ := exists_of_rel hrel
  -- no handler of the exchange is called yet, so nothing works
  have hworks : ∀ {j : ℕ} {y : Activity}, t.world.outstanding[j]? = some y → ¬ y.Works :=
    fun hj => ht.waiting _ (List.mem_of_getElem? hj)
  refine ⟨v, hv, ?_⟩
  cases e with
  | handshake j ok =>
    simp only [AsyncConnection.step] at hstep
    split at hstep
    · obtain rfl := Option.some.inj hstep
      refine .inr ⟨hvu, ?_⟩
      unfold handleHandshake
      split
      · refine ht.of_same rfl rfl (fun y hy => ?_) rfl id
        rcases List.mem_append.mp hy with hy | hy
        · exact .inl (mem_release hy)
        · obtain rfl := List.mem_singleton.mp hy
          exact .inr id
      · exact ht.of_same rfl rfl (fun y hy => .inl (mem_release hy)) rfl id
    · cases hstep
  | receive j bytes =>
    simp only [AsyncConnection.step] at hstep
    split at hstep
    · split at hstep
      · obtain rfl := Option.some.inj hstep
        refine .inr ⟨hvu, ht.of_same rfl rfl (fun y hy => ?_) rfl id⟩
        rcases List.mem_append.mp hy with hy | hy
        · exact .inl (mem_release hy)
        · obtain rfl := List.mem_singleton.mp hy
          exact .inr id
      · cases hstep
    · cases hstep
  | readFails j err a =>
    rw [step_eq] at hstep
    simp only [Tail.step] at hstep
    split at hstep
    · split at hstep
      · rename_i herr
        obtain rfl := Option.some.inj hstep
        exact .inr ⟨hvu, ht.noLook srv a j err [] (.inr herr)⟩
      · cases hstep
    · cases hstep
  | runRead j a =>
    rw [step_eq] at hstep hv
    simp only [Tail.step] at hstep hv
    rw [← hst.outstanding] at hv
    split at hstep
    · rename_i bytes hj
      rw [hj] at hv
      obtain rfl := Option.some.inj hstep
      obtain rfl := Option.some.inj hv
      -- a shutdown is answered before the timer is swapped; otherwise the swap makes them alike
      by_cases hshutdown : t.world.shutdownRequested = true
      · exact .inr ⟨hvu, ht.noLook srv a j .success bytes (.inl hshutdown)⟩
      · refine .inl (alike_run srv a ((hst.release j).look srv a ?_ bytes ?_))
        · have hswaps : Swaps s t := ht.swaps hst
          exact hswaps
        · obtain ⟨p, rfl, -, -, -⟩ := hst
          exact Bool.eq_false_iff.mpr hshutdown
    · cases hstep
  | runTask j a =>
    simp only [AsyncConnection.step] at hstep
    split at hstep
    · rename_i hj
      exact (hworks hj trivial).elim
    · cases hstep
  | writeSome j n a =>
    simp only [AsyncConnection.step] at hstep
    split at hstep
    · rename_i hj
      exact (hworks hj trivial).elim
    · cases hstep
  | writeFails j a =>
    simp only [AsyncConnection.step] at hstep
    split at hstep
    · rename_i hj
      exact (hworks hj trivial).elim
    · cases hstep
  | timerExpires => cases he
  | runTimer generation a => cases he
  | requestShutdown =>
    obtain rfl := Option.some.inj hstep
    exact .inr ⟨hvu, ht.of_same rfl rfl (fun y hy => .inl hy) rfl id⟩

/-! ## One step of both -/

/-- The re-armed connection `t` and the new one `s` go on alike. -/
structure Twins (P : List Exchange) (h k : List Obs) (t s : AsyncConnection) : Prop where
  clocked : Clocked t
  clocked' : Clocked s
  alike : Alike true h k s t ∨ Alike false h k s t ∧ Early P t

/-- The timer moves on, and has not acted. -/
theorem Twins.wind (hts : Twins P h k t s) (hu : Clocked u) {ws : List TimerWait}
    (hw : u = { t with world.waits := ws }) (hticks : Ticking u ↔ Ticking t) :
    Twins P h k u s := by
  obtain rfl := hw
  have halike : ∀ {i}, Alike i h k s t → Alike i h k s { t with world.waits := ws } := by
    rintro i ⟨p, rfl, htr, htick, hi⟩
    exact ⟨{ p with waits := ws }, rfl, htr, htick.trans hticks.symm, hi⟩
  refine ⟨hu, hts.clocked', ?_⟩
  rcases hts.alike with hst | ⟨hst, ht⟩
  · exact .inl (halike hst)
  · exact .inr ⟨halike hst, ht.of_same rfl rfl (fun y hy => .inl hy) rfl hticks.mpr⟩

/-- **A step of the re-armed connection** is answered by the new one. -/
theorem afresh_step {e : Event} (hts : Twins P h k t s) (hno : ¬ IdleExpiry P t e)
    (hstep : step srv t e = some u) :
    ∃ es v, runFrom srv s es = some v ∧
      es.filter (fun e => !e.isTimer) = [e].filter (fun e => !e.isTimer) ∧ Twins P h k u v := by
  have hu := hts.clocked.step hstep
  by_cases he : e.isTimer = true
  swap
  · -- the same event on both
    have he' := Bool.eq_false_iff.mpr he
    have hone : ∀ {v}, step srv s e = some v →
        (Alike true h k v u ∨ Alike false h k v u ∧ Early P u) →
        ∃ es v, runFrom srv s es = some v ∧
          es.filter (fun e => !e.isTimer) = [e].filter (fun e => !e.isTimer) ∧
            Twins P h k u v := fun hv hvu =>
      ⟨[e], _, Transition.run_cons.mpr ⟨_, hv, rfl⟩, rfl, hu, hts.clocked'.step hv, hvu⟩
    rcases hts.alike with hst | ⟨hst, ht⟩
    · have hswaps : Swaps s t := by
        obtain ⟨p, rfl, -, -, hi⟩ := hst
        exact fun _ => .inl (hi rfl).symm
      have hrel := alike_step srv hst hswaps hts.clocked'.stamped hts.clocked.stamped he'
      rw [hstep] at hrel
      obtain ⟨v, hv, hvu⟩ := exists_of_rel hrel
      exact hone hv (.inl hvu)
    · obtain ⟨v, hv, hvu⟩ := ht.step srv hst hts.clocked' hts.clocked he' hstep
      exact hone hv hvu
  cases e with
  | timerExpires =>
    simp only [step] at hstep
    split at hstep
    · obtain rfl := Option.some.inj hstep
      exact ⟨[], s, rfl, rfl, hts.wind hu rfl (ticking_expire (s := t))⟩
    · cases hstep
  | runTimer generation a =>
    by_cases hacts : Threads.Acts t generation
    swap
    · rcases Threads.runTimer_cases hstep with ⟨w, -, hw, rfl⟩ | ⟨hc, -⟩
      · exact ⟨[], s, rfl, rfl, hts.wind hu rfl (ticking_taken hw hacts)⟩
      · exact absurd hc hacts
    rcases hts.alike with hst | ⟨-, ht⟩
    swap
    · exact absurd ⟨hacts, ht.idle, ht.past⟩ hno
    obtain ⟨rfl, w, hw, hab⟩ := hacts
    have hmem : w ∈ t.world.waits := List.mem_of_find?_eq_some hw
    have hgen := List.find?_some hw
    simp only [Bool.and_eq_true, beq_iff_eq] at hgen
    have hticks : Ticking t := ⟨w, hmem, hgen.1, hab⟩
    rw [step_eq] at hstep
    simp only [Tail.step] at hstep
    rw [hw] at hstep
    dsimp only at hstep
    rw [if_neg hab] at hstep
    obtain rfl := Option.some.inj hstep
    -- both timers act, and neither can act again
    obtain ⟨es, ws, hes, hnot, hrun⟩ := exists_fire srv a hts.clocked'.distinct
      (s := s) (by
        obtain ⟨p, rfl, -, htick, -⟩ := hst
        exact htick.mpr hticks)
    have hnot' := not_ticking_erase hts.clocked.distinct hmem hgen.1
    have hwaits : Alike true h k { s with world.waits := ws }
        { t with world.waits := t.world.waits.erase w } := by
      obtain ⟨p, rfl, htr, -, hi⟩ := hst
      exact ⟨{ p with waits := p.waits.erase w }, rfl, htr, iff_of_false hnot hnot', hi⟩
    refine ⟨es, _, hrun, ?_, hu, ?_, .inl (alike_run srv a (hwaits.fire srv a))⟩
    · rw [List.filter_eq_nil_iff.mpr fun e he => by simp [hes e he]]
      rfl
    · exact Transition.run_preserves (P := Clocked) (fun _ _ _ hc => hc.step) hts.clocked' hrun
  | _ => exact absurd he (by simp [Event.isTimer])

/-! ## The two connections at the start -/

/-- A connection that was just started, of a client with these requests and bytes
behind it. -/
def started (srv : Server) (count : ℕ) (clientIP buffer : Bytes) (socket : SocketState) :
    AsyncConnection :=
  resumeReading (armTimer srv.itsTimeout
    { itsCounted := true
      itsRequestCount := count
      itsRequest := { clientIP := clientIP }
      itsBuffer := buffer
      itsReceivedBytes := buffer.length
      world := { socket := socket } })

/-- A client that has sent nothing. -/
theorem start_eq_started (hencryption : srv.itsEncryptionEnabled = false) :
    start srv = started srv 0 [] [] .open := by
  unfold start
  rw [hencryption]
  rfl

/-- The books of a failed write have nothing to say of a reset response. -/
theorem keep_of_reset (books : Books) (hr : t.itsResponse = {}) : books.keep t = t := by
  have hlog : finalizeStreamLogging t = t := by
    unfold finalizeStreamLogging
    rw [hr]
    rfl
  have hnotify : ∀ st, notifyBackendFinished st t = t := by
    intro st
    unfold notifyBackendFinished
    rw [hr]
    exact if_pos (by simp)
  cases books with
  | none => rfl
  | log => exact hlog
  | logAndNotify st =>
    show notifyBackendFinished (st (finalizeStreamLogging t).itsResponse)
      (finalizeStreamLogging t) = t
    rw [hlog, hnotify]

theorem response_resumeReading (s : AsyncConnection) :
    (resumeReading s).itsResponse = s.itsResponse := by
  unfold resumeReading
  split
  · rfl
  · rfl

/-- The state `finishResponse` leaves. -/
def rearmed (srv : Server) (w : AsyncConnection) : AsyncConnection :=
  resumeReading (armForNextRequest srv (resetRequestState w))

theorem finishResponse_cases (s : AsyncConnection) :
    past (finishResponse srv s).world.trace = past s.world.trace ∨
      mayReuse s = true ∧ finishResponse srv s = rearmed srv s := by
  unfold finishResponse
  split
  · exact .inr ⟨‹_›, rfl⟩
  · exact .inl rfl

/-- **What ends an exchange.** -/
theorem exists_rearmed {x : Outcome}
    (hne : past (x.run srv a).world.trace ≠ past x.state.world.trace) :
    ∃ w, mayReuse w = true ∧ x.run srv a = rearmed srv w := by
  cases x with
  | stop s => exact absurd rfl hne
  | finish s =>
    rcases finishResponse_cases srv s with hs | ⟨hw, hs⟩
    · exact absurd hs hne
    · exact ⟨s, hw, hs⟩
  | reply m s books =>
    have hkeep := (logOnly_keep books (sendSimpleReply srv a m s)).past
    have hsent : past (sendSimpleReply srv a m s).world.trace ≠ past s.world.trace :=
      fun hc => hne (hkeep.trans hc)
    show ∃ w, mayReuse w = true ∧ books.keep (sendSimpleReply srv a m s) = rearmed srv w
    unfold sendSimpleReply at hsent ⊢
    cases hhead : headersToString srv.spine s.itsResponse with
    | none =>
      rw [hhead] at hsent
      exact absurd rfl hsent
    | some head =>
      rw [hhead] at hsent
      dsimp only at hsent ⊢
      have hrest := (rests_writes a m head s).past
      split at hsent
      · rw [if_pos ‹_›]
        rcases finishResponse_cases srv (writeContent a m (writeHead a m head s)) with
          hs | ⟨hw, hs⟩
        · exact absurd (hs.trans hrest) hsent
        · rw [hs]
          exact ⟨_, hw, keep_of_reset books (response_resumeReading _)⟩
      · exact absurd hrest hsent

/-- A re-armed connection is alike to a new one, and idle when it holds no bytes. -/
theorem alike_rearmed {w : AsyncConnection} (hreuse : mayReuse w = true)
    (hout : w.world.outstanding = []) (hrecv : w.itsReceivedBytes = w.itsBuffer.length)
    (hpend : w.itsPendingHeaders = []) (hconn : w.itsPrematurelyDisconnected = false) :
    Alike (!w.itsBuffer.isEmpty) [] (untimed (rearmed srv w).world.trace)
      (started srv w.itsRequestCount w.itsRequest.clientIP w.itsBuffer w.world.socket)
      (rearmed srv w) := by
  simp only [mayReuse, Bool.and_eq_true, Bool.not_eq_true'] at hreuse
  obtain ⟨⟨-, hto⟩, hshutdown⟩ := hreuse
  let n : AsyncConnection :=
    { itsCounted := true
      itsRequestCount := w.itsRequestCount
      itsRequest := { clientIP := w.itsRequest.clientIP }
      itsBuffer := w.itsBuffer
      itsReceivedBytes := w.itsBuffer.length
      world := { socket := w.world.socket } }
  let p : History := ⟨w.itsTimerGeneration, w.itsFinalStatus, w.itsCounted, w.itsBuffer.isEmpty,
    w.world.waits, .rearmed :: w.world.trace⟩
  have hreset : resetRequestState w = n.recast p := by
    -- what the reset leaves alone is as a new connection has it
    have hleft : resetRequestState w =
        { n.recast p with
          itsReceivedBytes := w.itsReceivedBytes
          itsPendingHeaders := w.itsPendingHeaders
          itsPrematurelyDisconnected := w.itsPrematurelyDisconnected
          hasTimedOut := w.hasTimedOut
          world :=
            { (n.recast p).world with
              outstanding := w.world.outstanding
              shutdownRequested := w.world.shutdownRequested } } := rfl
    rw [hrecv, hpend, hconn, hto, hout, hshutdown] at hleft
    exact hleft
  have harm : Alike (!w.itsBuffer.isEmpty) [] (untimed (rearmed srv w).world.trace)
      (armTimer srv.itsTimeout n) (armForNextRequest srv (resetRequestState w)) := by
    have htrace : untimed (rearmed srv w).world.trace = untimed (.rearmed :: w.world.trace) := by
      unfold rearmed resumeReading
      split
      · rfl
      · rfl
    rw [htrace, hreset]
    refine ⟨{ p with
        generation := p.generation + 1
        waits := ⟨p.generation + 1, .pending⟩ :: p.waits.map TimerWait.cancel
        trace := .armed (p.generation + 1) _ :: p.trace },
      rfl, ⟨[], rfl, rfl⟩, iff_of_true (ticking_armTimer _ _) (ticking_armTimer _ _), fun hb => ?_⟩
    exact (Bool.not_eq_true' _).mp hb
  exact rel_ite (fun _ => harm.await .read) (fun _ => harm.await (.handleRead []))

/-! ## Whole runs -/

theorem wireOf_append (new old : List Obs) : wireOf (new ++ old) = wireOf old ++ wireOf new := by
  unfold wireOf
  rw [List.reverse_append, List.flatMap_append]

/-- The armings send nothing. -/
theorem wireOf_untimed (tr : List Obs) : wireOf (untimed tr) = wireOf tr := by
  induction tr with
  | nil => rfl
  | cons o tr ih =>
    have hcons : ∀ old, wireOf (o :: old) = wireOf old ++ wireOf [o] := wireOf_append [o]
    by_cases ho : o.isArming = true
    · cases o with
      | armed g n =>
        rw [hcons]
        show wireOf (untimed tr) = wireOf tr ++ []
        rw [ih, List.append_nil]
      | _ => cases ho
    · have hpos : untimed (o :: tr) = o :: untimed tr := List.filter_cons_of_pos (by simp [ho])
      rw [hpos, hcons (untimed tr), ih, ← hcons]

/-- The re-armed connection has come from `t` to `t'` as the new one has come to `s`. -/
structure AsNew (t s t' : AsyncConnection) : Prop where
  events : untimed t'.world.trace = untimed s.world.trace ++ untimed t.world.trace
  wire : wireOf t'.world.trace = wireOf t.world.trace ++ wireOf s.world.trace
  members : ∃ p, t' = s.recast p

theorem Alike.asNew (hst : Alike i [] (untimed u.world.trace) s t) : AsNew u s t := by
  obtain ⟨new, hs, ht⟩ := hst.follow
  rw [List.append_nil] at hs
  have hevents : untimed t.world.trace = untimed s.world.trace ++ untimed u.world.trace := by
    rw [hs, ht]
  refine ⟨hevents, ?_, ?_⟩
  · rw [← wireOf_untimed t.world.trace, hevents, wireOf_append, wireOf_untimed, wireOf_untimed]
  · obtain ⟨p, hp, -⟩ := hst
    exact ⟨p, hp⟩

theorem rearmed_eq (w : AsyncConnection) :
    rearmed srv w =
      (armForNextRequest srv (resetRequestState w)).await (nextActivity w.itsBuffer) := by
  unfold rearmed resumeReading nextActivity
  show (if w.itsBuffer.isEmpty then _ else _) = _
  split
  · rfl
  · rfl

/-- Both begin alike. -/
theorem twins_rearmed {w : AsyncConnection} (hinv : Inv srv (rearmed srv w))
    (hw : mayReuse w = true) (hc : Clocked (rearmed srv w)) :
    Twins (past (rearmed srv w).world.trace) [] (untimed (rearmed srv w).world.trace)
      (rearmed srv w)
      (started srv w.itsRequestCount w.itsRequest.clientIP w.itsBuffer w.world.socket) := by
  have hnew : Clocked (started srv w.itsRequestCount w.itsRequest.clientIP w.itsBuffer
      w.world.socket) := by
    have hnone : Clocked { itsCounted := true
                           itsRequestCount := w.itsRequestCount
                           itsRequest := { clientIP := w.itsRequest.clientIP }
                           itsBuffer := w.itsBuffer
                           itsReceivedBytes := w.itsBuffer.length
                           world := { socket := w.world.socket } } :=
      ⟨fun _ hv => absurd hv List.not_mem_nil, List.nodup_nil⟩
    have harmed := clocked_armTimer srv.itsTimeout hnone
    unfold started resumeReading
    split
    · exact ⟨harmed.stamped, harmed.distinct⟩
    · exact ⟨harmed.stamped, harmed.distinct⟩
  have hresume := rearmed_eq srv w
  have houtstanding : (rearmed srv w).world.outstanding =
      w.world.outstanding ++ [nextActivity w.itsBuffer] := by
    rw [hresume]
    rfl
  -- the invariant at the re-armed state says that nothing else is outstanding
  have hphase : w.world.outstanding = [] ∧ Reading srv (rearmed srv w).bare := by
    rcases hinv.2 with ⟨hnil, -⟩ | ⟨y, hy, hphase⟩
    · rw [houtstanding] at hnil
      exact absurd hnil (by simp)
    · rw [houtstanding] at hy
      have hnone : w.world.outstanding = [] := by
        have hlen := congrArg List.length hy
        rw [List.length_append] at hlen
        exact List.length_eq_zero_iff.mp (by simpa using hlen)
      refine ⟨hnone, ?_⟩
      rw [hnone] at hy
      obtain rfl := (List.cons.inj hy).1
      unfold nextActivity at hphase
      split at hphase
      · exact hphase
      · exact hphase
  obtain ⟨hnone, hreading⟩ := hphase
  have hrecv : w.itsReceivedBytes = w.itsBuffer.length := by
    have := hreading.received
    rw [hresume] at this
    exact this
  have hpend : w.itsPendingHeaders = [] := by
    have := hreading.pendingHeaders
    rw [hresume] at this
    exact this
  have hconn : w.itsPrematurelyDisconnected = false := by
    have := hinv.1.connected
    rw [hresume] at this
    exact this
  have halike := alike_rearmed srv hw hnone hrecv hpend hconn
  refine ⟨hc, hnew, ?_⟩
  -- with nothing left over the re-armed one still waits under the idle limit
  by_cases hb : w.itsBuffer.isEmpty = true
  · rw [hb] at halike
    refine .inr ⟨halike, ?_, rfl, ?_, fun _ => ?_⟩
    · rw [hresume]
      exact hb
    · rw [houtstanding, hnone]
      intro y hy
      obtain rfl := List.mem_singleton.mp hy
      unfold nextActivity
      rw [if_pos hb]
      exact id
    · rw [hresume]
      exact ticking_armTimer (if w.itsBuffer.isEmpty then srv.itsKeepAliveTimeout
        else srv.itsTimeout) (resetRequestState w)
  · rw [Bool.eq_false_iff.mpr hb] at halike
    exact .inl halike

theorem clocked_reachable (h : Reachable srv s) : Clocked s := by
  obtain ⟨es, hes⟩ := h
  refine Transition.run_preserves (P := Clocked) (fun _ _ _ hc => hc.step) ?_ hes
  have hnone : Clocked { itsCounted := true } :=
    ⟨fun _ hv => absurd hv List.not_mem_nil, List.nodup_nil⟩
  have harmed := clocked_armTimer srv.itsTimeout hnone
  unfold start
  dsimp only
  split
  · exact ⟨harmed.stamped, harmed.distinct⟩
  · exact ⟨harmed.stamped, harmed.distinct⟩

/-- Behind the timer of an idle connection nothing is sent. -/
theorem silent_of_idleExpiry {d : Event} {gs : List Event} {v w : AsyncConnection}
    (hd : IdleExpiry P t d) (hstep : step srv t d = some v) (hrun : runFrom srv v gs = some w) :
    wireOf w.world.trace = wireOf t.world.trace := by
  cases d with
  | runTimer generation a =>
    obtain ⟨hacts, hidle, -⟩ := hd
    rcases Threads.runTimer_cases hstep with ⟨_, hnot, -⟩ | ⟨-, hexpired, -⟩
    · exact absurd hacts hnot
    obtain ⟨-, new, hnew, hquiet⟩ := quiet_run srv hexpired.socket hrun
    rw [hnew, hexpired.silent hidle, wireOf_append, wireOf_eq_nil hquiet, List.append_nil]
    exact (wireOf_append [.closed] t.world.trace).trans (List.append_nil _)
  | _ => exact absurd hd id

/-- **A re-armed connection serves as a new one.**  For the state a step leaves that ends
an exchange, and for every run from there: a connection that was just started with the
same request count, client address, bytes and socket has a run with the same events, the
timer's apart, that does the same and sends the same bytes.  Where the timer closes the
connection before the first bytes are looked at, nothing is sent from there on. -/
theorem serves_afresh {e : Event} (hu : Reachable srv u) (hstep : step srv u e = some t)
    (hre : past t.world.trace ≠ past u.world.trace) {es : List Event} {t' : AsyncConnection}
    (hrun : runFrom srv t es = some t')
    (hidle : Transition.Along (step srv)
      (fun v e => ¬ IdleExpiry (past t.world.trace) v e) t es) :
    (∃ fs s, runFrom srv (started srv t.itsRequestCount t.itsRequest.clientIP t.itsBuffer
        t.world.socket) fs = some s ∧
      fs.filter (fun e => !e.isTimer) = es.filter (fun e => !e.isTimer) ∧ AsNew t s t') ∧
    ∀ d gs v w, IdleExpiry (past t.world.trace) t' d → step srv t' d = some v →
      runFrom srv v gs = some w → wireOf w.world.trace = wireOf t'.world.trace := by
  refine ⟨?_, fun d gs v w hd hv hw => silent_of_idleExpiry srv hd hv hw⟩
  obtain ⟨x, hx, hxt⟩ := exists_outcome srv hstep
  -- the step itself leaves the past alone: what re-arms is the end of its outcome
  have hquiet : past x.state.world.trace = past u.world.trace := by
    obtain ⟨new, hnew, hev⟩ := (trail_step srv hx).events
    rw [hnew]
    exact past_append fun o ho => not_rearmed_of_stepEvent srv (hev o ho).1
  obtain ⟨w, hw, hrun'⟩ := exists_rearmed srv e.answers (x := x) (by
    rw [hquiet, ← hxt]
    exact hre)
  obtain rfl : t = rearmed srv w := hxt.trans hrun'
  have hreach : Reachable srv (rearmed srv w) := by
    obtain ⟨ds, hds⟩ := hu
    exact ⟨ds ++ [e], Transition.run_append hds (Transition.run_cons.mpr ⟨_, hstep, rfl⟩)⟩
  have htwins := twins_rearmed srv (inv_reachable srv hreach) hw (clocked_reachable srv hreach)
  -- re-arming keeps what the started one is built from
  have hstarted : started srv (rearmed srv w).itsRequestCount
      (rearmed srv w).itsRequest.clientIP (rearmed srv w).itsBuffer (rearmed srv w).world.socket =
      started srv w.itsRequestCount w.itsRequest.clientIP w.itsBuffer w.world.socket := by
    rw [rearmed_eq srv w]
    rfl
  rw [hstarted]
  obtain ⟨fs, s, hfs, hview, hend⟩ := Transition.run_simulated
    (R := Twins (past (rearmed srv w).world.trace) [] (untimed (rearmed srv w).world.trace))
    (fun e => [e].filter fun e => !e.isTimer)
    (fun v v' e v'' hR hno hv => by
      obtain ⟨es, u', hes, hfilter, hR'⟩ := afresh_step srv hR hno hv
      refine ⟨es, u', hes, ?_, hR'⟩
      rw [← List.filter_flatMap, List.flatMap_singleton']
      exact hfilter) hidle htwins hrun
  refine ⟨fs, s, hfs, ?_, ?_⟩
  · rw [← List.filter_flatMap, ← List.filter_flatMap, List.flatMap_singleton',
      List.flatMap_singleton'] at hview
    exact hview
  · rcases hend.alike with hst | ⟨hst, -⟩
    · exact hst.asNew
    · exact hst.asNew

/-- The timer of the idle connection has run out when the second request is looked at. -/
def secondRequest : List Event :=
  [.receive 0 unfoundRequest, .timerExpires, .runRead 0 MinimalSpine.answers]

theorem serves_afresh_second :
    ∃ t t' fs s, runFrom MinimalSpine.server t secondRequest = some t' ∧
      runFrom MinimalSpine.server (started MinimalSpine.server t.itsRequestCount
        t.itsRequest.clientIP t.itsBuffer t.world.socket) fs = some s ∧
      wireOf t'.world.trace = wireOf t.world.trace ++ wireOf s.world.trace ∧
      wireOf s.world.trace ≠ [] := by
  obtain ⟨u, hu, hp⟩ := MinimalSpine.reached [.receive 0 unfoundRequest]
    (fun u => (step MinimalSpine.server u (.runRead 0 MinimalSpine.answers)).any fun t =>
      (past t.world.trace).length != (past u.world.trace).length &&
        (decide (Transition.Along (step MinimalSpine.server)
          (fun v e => ¬ IdleExpiry (past t.world.trace) v e) t secondRequest) &&
        (runFrom MinimalSpine.server t secondRequest).any fun t' =>
          (wireOf t'.world.trace).length != (wireOf t.world.trace).length))
    (by decide +kernel)
  obtain ⟨t, hstep, hp⟩ := (Option.any_eq_true _ _).mp hp
  obtain ⟨hpast, hp⟩ := Bool.and_eq_true_iff.mp hp
  obtain ⟨hidle, hp⟩ := Bool.and_eq_true_iff.mp hp
  obtain ⟨t', hrun, hwire⟩ := (Option.any_eq_true _ _).mp hp
  have hne : past t.world.trace ≠ past u.world.trace := fun hc => by
    rw [hc] at hpast
    simp at hpast
  obtain ⟨⟨fs, s, hfs, -, hnew⟩, -⟩ := serves_afresh MinimalSpine.server ⟨_, hu⟩ hstep hne hrun
    (of_decide_eq_true hidle)
  refine ⟨t, t', fs, s, hrun, hfs, hnew.wire, fun hnil => ?_⟩
  rw [hnew.wire, hnil, List.append_nil] at hwire
  simp at hwire

end AsyncConnection

end SmartMet
