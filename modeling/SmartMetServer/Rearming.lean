/-
# What is re-armed

The last call of a completion handler re-arms the connection for the next request
(`Rearms`) or ends no exchange (`Rests`).  In front of it only a queued call of
`handleRead` touches the buffer or ends the wait of an idle connection: all other
steps leave them `Unlooked`.
-/
import SmartMetServer.Screening
import SmartMetServer.Timers

namespace SmartMet

/-- The settings of the timer in the exchange under way, in their order. -/
def deadlines : List Obs → List ℕ
  | [] => []
  | .rearmed :: _ => []
  | .armed _ seconds :: t => deadlines t ++ [seconds]
  | _ :: t => deadlines t

/-- Events inside the exchange that arm nothing leave the settings. -/
theorem deadlines_append {new t : List Obs} (h : ∀ o ∈ new, o.Inner) :
    deadlines (new ++ t) = deadlines t := by
  induction new with
  | nil => rfl
  | cons o new ih =>
    obtain ⟨⟨hre, harm⟩, hnew⟩ := List.forall_mem_cons.mp h
    rw [List.cons_append, ← ih hnew]
    cases o with
    | rearmed => exact absurd rfl hre
    | armed g n => exact absurd rfl (harm g n)
    | _ => rfl

/-- Work on the request does not wait for the client. -/
theorem Activity.Works.not_waits {y : Activity} (h : y.Works) : ¬ y.Waits := by
  cases y with
  | task pool task => exact id
  | write handler buffer => exact id
  | handshake => exact absurd h id
  | read => exact absurd h id
  | handleRead bytes => exact absurd h id

namespace AsyncConnection

variable (srv : Server)

/-! ## The waits of the timer -/

/-- No wait is newer than the last arming. -/
def Stamped (s : AsyncConnection) : Prop :=
  ∀ w ∈ s.world.waits, w.generation ≤ s.itsTimerGeneration

/-- The last arming has its wait, and was not cancelled. -/
def Ticks (s : AsyncConnection) : Prop :=
  (∃ w ∈ s.world.waits, w.generation = s.itsTimerGeneration) ∧
    ∀ w ∈ s.world.waits, w.generation = s.itsTimerGeneration → w.status ≠ .aborted

/-- No wait is pending. -/
def Disarmed (s : AsyncConnection) : Prop := ∀ w ∈ s.world.waits, w.status ≠ .pending

/-- Each arming has one wait. -/
def Distinct (s : AsyncConnection) : Prop := (s.world.waits.map TimerWait.generation).Nodup

/-- The waits `ws` have run out, were cancelled or taken out, and `ws'` are left. -/
def Winds (ws ws' : List TimerWait) : Prop :=
  ∃ f : TimerWait → TimerWait,
    (∀ w, (f w).generation = w.generation ∧ ((f w).status = .pending → w.status = .pending)) ∧
      ws'.Sublist (ws.map f)

/-- The waits were left alone. -/
theorem Winds.of_eq {ws ws' : List TimerWait} (h : ws' = ws) : Winds ws ws' := by
  refine ⟨id, fun w => ⟨rfl, id⟩, ?_⟩
  rw [List.map_id, h]

/-- Two parts in a row. -/
theorem Winds.trans {ws ws' ws'' : List TimerWait} (h : Winds ws ws') (h' : Winds ws' ws'') :
    Winds ws ws'' := by
  obtain ⟨f, hf, hs⟩ := h
  obtain ⟨g, hg, hs'⟩ := h'
  refine ⟨g ∘ f, fun w => ⟨(hg _).1.trans (hf w).1, fun hp => (hf w).2 ((hg _).2 hp)⟩, ?_⟩
  rw [← List.map_map]
  exact hs'.trans (hs.map g)

/-- All waits are cancelled, -/
theorem winds_cancel (ws : List TimerWait) : Winds ws (ws.map TimerWait.cancel) := by
  refine ⟨TimerWait.cancel, fun w => ⟨rfl, fun hp => ?_⟩, List.Sublist.refl _⟩
  unfold TimerWait.cancel at hp
  dsimp only at hp
  split at hp
  · cases hp
  · exact hp

/-- run out, -/
theorem winds_expire (ws : List TimerWait) : Winds ws (ws.map TimerWait.expire) := by
  refine ⟨TimerWait.expire, fun w => ⟨rfl, fun hp => ?_⟩, List.Sublist.refl _⟩
  unfold TimerWait.expire at hp
  dsimp only at hp
  split at hp
  · cases hp
  · exact hp

/-- or one is taken out. -/
theorem winds_erase (ws : List TimerWait) (w : TimerWait) : Winds ws (ws.erase w) := by
  refine ⟨id, fun v => ⟨rfl, id⟩, ?_⟩
  rw [List.map_id]
  exact List.erase_sublist

section Winds

variable {s t : AsyncConnection}

/-- No wait becomes newer so, -/
theorem Stamped.winds (h : Stamped s) (hw : Winds s.world.waits t.world.waits)
    (hg : s.itsTimerGeneration ≤ t.itsTimerGeneration) : Stamped t := by
  obtain ⟨f, hf, hs⟩ := hw
  intro w hmem
  obtain ⟨w', hw', rfl⟩ := List.mem_map.mp (hs.subset hmem)
  rw [(hf w').1]
  exact (h w' hw').trans hg

/-- none pending, -/
theorem Disarmed.winds (h : Disarmed s) (hw : Winds s.world.waits t.world.waits) :
    Disarmed t := by
  obtain ⟨f, hf, hs⟩ := hw
  intro w hmem hp
  obtain ⟨w', hw', rfl⟩ := List.mem_map.mp (hs.subset hmem)
  exact h w' hw' ((hf w').2 hp)

/-- and each arming keeps one. -/
theorem Distinct.winds (h : Distinct s) (hw : Winds s.world.waits t.world.waits) :
    Distinct t := by
  obtain ⟨f, hf, hs⟩ := hw
  have hmap : (s.world.waits.map f).map TimerWait.generation =
      s.world.waits.map TimerWait.generation := by
    rw [List.map_map]
    exact List.map_congr_left fun w _ => (hf w).1
  refine List.Nodup.sublist (hs.map _) ?_
  rw [hmap]
  exact h

end Winds

/-- A new arming has a stamp of its own, -/
theorem distinct_armTimer (n : ℕ) {s : AsyncConnection} (hst : Stamped s) (h : Distinct s) :
    Distinct (armTimer n s) := by
  have hmap : (s.world.waits.map TimerWait.cancel).map TimerWait.generation =
      s.world.waits.map TimerWait.generation := by
    rw [List.map_map]
    rfl
  show ((s.itsTimerGeneration + 1) ::
    (s.world.waits.map TimerWait.cancel).map TimerWait.generation).Nodup
  rw [hmap]
  refine List.nodup_cons.mpr ⟨fun hmem => ?_, h⟩
  obtain ⟨w, hw, hgen⟩ := List.mem_map.mp hmem
  have := hst w hw
  omega

/-- and its wait is pending. -/
theorem ticks_armTimer (n : ℕ) {s : AsyncConnection} (h : Stamped s) :
    Stamped (armTimer n s) ∧ Ticks (armTimer n s) := by
  have hold : ∀ w ∈ (armTimer n s).world.waits,
      w = ⟨s.itsTimerGeneration + 1, .pending⟩ ∨ w.generation ≤ s.itsTimerGeneration := by
    intro w hw
    rcases List.mem_cons.mp hw with rfl | hw
    · exact Or.inl rfl
    · obtain ⟨w', hw', rfl⟩ := List.mem_map.mp hw
      exact Or.inr (h w' hw')
  refine ⟨fun w hw => ?_, ⟨_, List.mem_cons_self, rfl⟩, fun w hw hgen => ?_⟩
  · show w.generation ≤ s.itsTimerGeneration + 1
    rcases hold w hw with rfl | hle
    · exact Nat.le_refl _
    · omega
  · have hgen' : w.generation = s.itsTimerGeneration + 1 := hgen
    rcases hold w hw with rfl | hle
    · simp
    · omega

/-- Nothing newer where waits and stamp are the same, -/
theorem Stamped.of_waits {s t : AsyncConnection} (h : Stamped s)
    (hw : t.world.waits = s.world.waits) (hg : t.itsTimerGeneration = s.itsTimerGeneration) :
    Stamped t := by
  unfold Stamped
  rw [hw, hg]
  exact h

/-- and the last arming ticks. -/
theorem Ticks.of_waits {s t : AsyncConnection} (h : Ticks s)
    (hw : t.world.waits = s.world.waits) (hg : t.itsTimerGeneration = s.itsTimerGeneration) :
    Ticks t := by
  unfold Ticks
  rw [hw, hg]
  exact h

/-! ## The last call -/

/-- No exchange was ended, and the timer was not touched. -/
structure Rests (s t : AsyncConnection) : Prop where
  past : past t.world.trace = past s.world.trace
  deadlines : deadlines t.world.trace = deadlines s.world.trace
  outstanding : t.world.outstanding = s.world.outstanding
  waits : t.world.waits = s.world.waits
  generation : t.itsTimerGeneration = s.itsTimerGeneration
  buffer : t.itsBuffer = s.itsBuffer
  idle : t.itsIdle = s.itsIdle
  timedOut : t.hasTimedOut = s.hasTimedOut

/-- Nothing was done. -/
theorem Rests.refl (s : AsyncConnection) : Rests s s := ⟨rfl, rfl, rfl, rfl, rfl, rfl, rfl, rfl⟩

/-- Two parts in a row. -/
theorem Rests.trans {s t u : AsyncConnection} (h : Rests s t) (h' : Rests t u) : Rests s u :=
  ⟨h'.past.trans h.past, h'.deadlines.trans h.deadlines, h'.outstanding.trans h.outstanding,
    h'.waits.trans h.waits, h'.generation.trans h.generation, h'.buffer.trans h.buffer,
    h'.idle.trans h.idle, h'.timedOut.trans h.timedOut⟩

/-- A steady part leaves the timer at rest. -/
theorem Rests.of_steady {A : Obs → Prop} {s t : AsyncConnection} (h : Threads.Steady A s t)
    (hA : ∀ o, A o → o.Inner) (ho : t.world.outstanding = s.world.outstanding)
    (hb : t.itsBuffer = s.itsBuffer) : Rests s t := by
  obtain ⟨new, hnew, hev⟩ := h.events
  refine ⟨?_, ?_, ho, h.waits, h.generation, hb, h.idle, h.timedOut⟩
  · rw [hnew]
    exact past_append fun o ho => (hA o (hev o ho).1).1
  · rw [hnew]
    exact deadlines_append fun o ho => hA o (hev o ho).1

/-- What a re-armed connection waits for. -/
def nextActivity (buffer : Bytes) : Activity :=
  if buffer.isEmpty then .read else .handleRead []

/-- The connection was re-armed: for the bytes it holds, or for the first of the next
request. -/
structure Rearms (s t : AsyncConnection) : Prop where
  past : past t.world.trace ≠ past s.world.trace
  deadlines : deadlines t.world.trace =
    [if s.itsBuffer.isEmpty then srv.itsKeepAliveTimeout else srv.itsTimeout]
  outstanding : t.world.outstanding = s.world.outstanding ++ [nextActivity s.itsBuffer]
  ticks : Stamped s → Stamped t ∧ Ticks t
  distinct : Stamped s → Distinct s → Distinct t
  timedOut : s.hasTimedOut = false ∧ t.hasTimedOut = false
  buffer : t.itsBuffer = s.itsBuffer
  idle : t.itsIdle = s.itsBuffer.isEmpty

/-- What rests may come in front of the re-arming, -/
theorem Rests.rearms {s t u : AsyncConnection} (h : Rests s t) (h' : Rearms srv t u) :
    Rearms srv s u := by
  refine ⟨?_, ?_, ?_, fun hst => h'.ticks (hst.of_waits h.waits h.generation),
    fun hst hd => h'.distinct (hst.of_waits h.waits h.generation) (hd.winds (.of_eq h.waits)),
    ⟨h.timedOut.symm.trans h'.timedOut.1, h'.timedOut.2⟩, h'.buffer.trans h.buffer, ?_⟩
  · rw [← h.past]
    exact h'.past
  · rw [h'.deadlines, h.buffer]
  · rw [h'.outstanding, h.outstanding, h.buffer]
  · rw [h'.idle, h.buffer]

/-- or behind it. -/
theorem Rearms.rests {s t u : AsyncConnection} (h : Rearms srv s t) (h' : Rests t u) :
    Rearms srv s u := by
  refine ⟨?_, h'.deadlines.trans h.deadlines, h'.outstanding.trans h.outstanding, fun hst => ?_,
    fun hst hd => (h.distinct hst hd).winds (.of_eq h'.waits),
    ⟨h.timedOut.1, h'.timedOut.trans h.timedOut.2⟩, h'.buffer.trans h.buffer,
    h'.idle.trans h.idle⟩
  · rw [h'.past]
    exact h.past
  · obtain ⟨h1, h2⟩ := h.ticks hst
    exact ⟨h1.of_waits h'.waits h'.generation, h2.of_waits h'.waits h'.generation⟩

/-- `finishResponse` re-arms, or does nothing. -/
theorem rests_or_rearms_finishResponse (s : AsyncConnection) :
    Rests s (finishResponse srv s) ∨ Rearms srv s (finishResponse srv s) := by
  unfold finishResponse
  split
  · rename_i hreuse
    right
    let n := if s.itsBuffer.isEmpty then srv.itsKeepAliveTimeout else srv.itsTimeout
    let u := armForNextRequest srv (resetRequestState s)
    have hresume : resumeReading u = u.await (nextActivity s.itsBuffer) := by
      unfold resumeReading nextActivity
      show (if s.itsBuffer.isEmpty then startRead u else u.await (.handleRead [])) = _
      split
      · rfl
      · rfl
    rw [hresume]
    refine ⟨?_, rfl, rfl, fun hst => ?_, fun hst hd => ?_, ?_, rfl, rfl⟩
    · show s.exchange :: past s.world.trace ≠ past s.world.trace
      exact List.cons_ne_self _ _
    · exact ticks_armTimer n (s := resetRequestState s) hst
    · exact distinct_armTimer n (s := resetRequestState s) hst hd
    · simp only [mayReuse, Bool.and_eq_true, Bool.not_eq_true'] at hreuse
      exact ⟨hreuse.1.2, hreuse.1.2⟩
  · exact Or.inl (Rests.refl s)

/-- Closing touches no timer. -/
theorem rests_closeSocket (s : AsyncConnection) : Rests s (closeSocket s) :=
  ⟨rfl, rfl, rfl, rfl, rfl, rfl, rfl, rfl⟩

/-- The two writes of a reply of the server's own. -/
theorem rests_writes (a : Answers) (m : Message) (head : Bytes) (s : AsyncConnection) :
    Rests s (writeContent a m (writeHead a m head s)) := by
  have hst : Stretch (Threads.WriteEvent m) s (writeContent a m (writeHead a m head s)) :=
    (Threads.stretch_writeHead a m head s).trans
      ((Threads.stretch_write m _ a.contentWrite _).trans (Stretch.silent rfl))
  refine Rests.of_steady (Threads.Steady.of_stretch hst) (fun o h => (Threads.inside_write h).1)
    ?_ hst.buffer
  exact (World.write_delivers _ m _ a.contentWrite).outstanding.trans
    (World.write_delivers _ m head a.headerWrite).outstanding

/-- The server's own reply re-arms as its `finishResponse` does. -/
theorem rests_or_rearms_sendSimpleReply (a : Answers) (m : Message) (s : AsyncConnection) :
    Rests s (sendSimpleReply srv a m s) ∨ Rearms srv s (sendSimpleReply srv a m s) := by
  unfold sendSimpleReply
  cases headersToString srv.spine s.itsResponse with
  | none => exact Or.inl (Rests.refl s)
  | some head =>
    let t := writeContent a m (writeHead a m head s)
    have hrest : Rests s t := rests_writes a m head s
    show Rests s (if t.itsKeepAlive then finishResponse srv t else closeSocket t) ∨
      Rearms srv s (if t.itsKeepAlive then finishResponse srv t else closeSocket t)
    split
    · rcases rests_or_rearms_finishResponse srv t with h | h
      · exact Or.inl (hrest.trans h)
      · exact Or.inr (hrest.rearms srv h)
    · exact Or.inl (hrest.trans (rests_closeSocket t))

/-- **The last call** re-arms the connection, or ends no exchange. -/
theorem rests_or_rearms (a : Answers) (x : Outcome) :
    Rests x.state (x.run srv a) ∨ Rearms srv x.state (x.run srv a) := by
  cases x with
  | stop s => exact Or.inl (Rests.refl s)
  | finish s => exact rests_or_rearms_finishResponse srv s
  | reply m s books =>
    obtain ⟨hst, ho, hb, -⟩ := Threads.steady_keep books (sendSimpleReply srv a m s)
    have hkeep := Rests.of_steady hst (fun o h => (Threads.inside_book h).1) ho hb
    rcases rests_or_rearms_sendSimpleReply srv a m s with h | h
    · exact Or.inl (h.trans hkeep)
    · exact Or.inr (h.rests srv hkeep)

/-- The last call leaves the unread bytes. -/
theorem buffer_run (a : Answers) (x : Outcome) : (x.run srv a).itsBuffer = x.state.itsBuffer := by
  rcases rests_or_rearms srv a x with h | h
  · exact h.buffer
  · exact h.buffer

/-! ## In front of the last call -/

/-- No bytes were looked at between `s` and `t`. -/
structure Unlooked (s t : AsyncConnection) : Prop where
  buffer : t.itsBuffer = s.itsBuffer
  idle : t.itsIdle = s.itsIdle
  timedOut : s.hasTimedOut = true → t.hasTimedOut = true
  waits : Winds s.world.waits t.world.waits
  generation : s.itsTimerGeneration ≤ t.itsTimerGeneration

/-- Two parts in a row. -/
theorem Unlooked.trans {s t u : AsyncConnection} (h : Unlooked s t) (h' : Unlooked t u) :
    Unlooked s u :=
  ⟨h'.buffer.trans h.buffer, h'.idle.trans h.idle, fun hs => h'.timedOut (h.timedOut hs),
    h.waits.trans h'.waits, h.generation.trans h'.generation⟩

/-- No wait is newer than the last arming. -/
theorem Unlooked.stamped {s t : AsyncConnection} (h : Unlooked s t) (hs : Stamped s) :
    Stamped t := hs.winds h.waits h.generation

/-- A stretch looks at no bytes. -/
theorem Unlooked.of_stretch {A : Obs → Prop} {s t : AsyncConnection} (h : Stretch A s t) :
    Unlooked s t :=
  ⟨h.buffer, h.idle, fun hs => h.timedOut.trans hs, .of_eq h.waits, h.generation.ge⟩

/-- Only members the timer and the buffer do not depend on were set. -/
theorem Unlooked.silent {s t : AsyncConnection} (hb : t.itsBuffer = s.itsBuffer)
    (hi : t.itsIdle = s.itsIdle) (ht : t.hasTimedOut = s.hasTimedOut)
    (hw : t.world.waits = s.world.waits) (hg : t.itsTimerGeneration = s.itsTimerGeneration) :
    Unlooked s t :=
  ⟨hb, hi, fun hs => ht.trans hs, .of_eq hw, hg.ge⟩

/-- Neither does the cancellation -/
theorem unlooked_cancelTimer (s : AsyncConnection) : Unlooked s (cancelTimer s) :=
  ⟨rfl, rfl, id, winds_cancel _, Nat.le_succ _⟩

/-- or the timer. -/
theorem unlooked_handleTimer (a : Answers) (err : ErrorCode) (generation : ℕ)
    (s : AsyncConnection) : Unlooked s (Tail.handleTimer srv a err generation s).state := by
  unfold Tail.handleTimer
  split
  · exact Unlooked.silent rfl rfl rfl rfl rfl
  split
  · exact Unlooked.silent rfl rfl rfl rfl rfl
  dsimp only
  split
  · exact ⟨rfl, rfl, fun _ => rfl, .of_eq rfl, Nat.le_refl _⟩
  · exact ⟨rfl, rfl, fun _ => rfl, .of_eq rfl, Nat.le_refl _⟩

/-- Only a queued call of `handleRead` looks at bytes. -/
theorem unlooked_tail {s : AsyncConnection} {e : Event} {x : Outcome}
    (h : Tail.step srv s e = some x) (he : ∀ i a, e ≠ .runRead i a) : Unlooked s x.state := by
  -- an activity that completes touches neither the buffer nor the timer
  have hrelease : ∀ i, Unlooked s (s.release i) := fun i => Unlooked.silent rfl rfl rfl rfl rfl
  cases e with
  | handshake i ok =>
    simp only [Tail.step, step] at h
    split at h
    · obtain rfl := Option.some.inj h
      show Unlooked s (handleHandshake ok (s.release i))
      unfold handleHandshake
      split
      · exact Unlooked.silent rfl rfl rfl rfl rfl
      · exact Unlooked.silent rfl rfl rfl rfl rfl
    · cases h
  | receive i bytes =>
    simp only [Tail.step, step] at h
    split at h
    · split at h
      · obtain rfl := Option.some.inj h
        exact Unlooked.silent rfl rfl rfl rfl rfl
      · cases h
    · cases h
  | readFails i err a =>
    simp only [Tail.step] at h
    split at h
    · split at h
      · obtain rfl := Option.some.inj h
        unfold Tail.handleRead
        split
        · exact Unlooked.silent rfl rfl rfl rfl rfl
        · exact Unlooked.silent rfl rfl rfl rfl rfl
      · cases h
    · cases h
  | runRead i a => exact absurd rfl (he i a)
  | runTask i a =>
    simp only [Tail.step] at h
    split at h
    · rename_i pool task _
      obtain rfl := Option.some.inj h
      refine (hrelease i).trans ?_
      cases task with
      | handleCompletedRead view =>
        exact (unlooked_cancelTimer _).trans
          (Unlooked.of_stretch (stretch_handleCompletedRead srv a _))
      | getNextChunk => exact Unlooked.of_stretch (stretch_getNextChunk srv a _)
      | getNextChunkedChunk => exact Unlooked.of_stretch (stretch_getNextChunkedChunk srv a _)
    · cases h
  | writeSome i n a =>
    simp only [Tail.step] at h
    split at h
    · split at h
      · obtain rfl := Option.some.inj h
        refine Unlooked.trans ?_ (Unlooked.of_stretch (stretch_runWriteHandler srv a _ _ n _))
        exact Unlooked.silent rfl rfl rfl rfl rfl
      · cases h
    · cases h
  | writeFails i a =>
    simp only [Tail.step] at h
    split at h
    · obtain rfl := Option.some.inj h
      refine Unlooked.trans ?_ (Unlooked.of_stretch (stretch_runWriteHandler srv a _ _ 0 _))
      exact Unlooked.silent rfl rfl rfl rfl rfl
    · cases h
  | timerExpires =>
    simp only [Tail.step, step] at h
    split at h
    · obtain rfl := Option.some.inj h
      exact ⟨rfl, rfl, id, winds_expire _, Nat.le_refl _⟩
    · cases h
  | runTimer generation a =>
    simp only [Tail.step] at h
    split at h
    · rename_i w _
      obtain rfl := Option.some.inj h
      refine Unlooked.trans ?_ (unlooked_handleTimer srv a _ generation
        { s with world.waits := s.world.waits.erase w })
      exact ⟨rfl, rfl, id, winds_erase _ _, Nat.le_refl _⟩
    · cases h
  | requestShutdown =>
    obtain rfl := Option.some.inj h
    exact Unlooked.silent rfl rfl rfl rfl rfl

/-- The look at the bytes touches the timer only where it leaves the idle state. -/
theorem steady_handleRead (a : Answers) (bytes : Bytes) (s : AsyncConnection) :
    Threads.Steady (fun o => (∃ r, o = .parsed r) ∨ PeerEvent o ∨ InterimEvent o)
        s (Tail.handleRead srv a .success bytes s).state ∧
        (Tail.handleRead srv a .success bytes s).state.itsBuffer = s.itsBuffer ∨
      Threads.Steady (fun o => (∃ r, o = .parsed r) ∨ PeerEvent o ∨ InterimEvent o)
        (leaveIdle srv { s with itsFinalStatus := .success })
        (Tail.handleRead srv a .success bytes s).state ∧
        (leaveIdle srv { s with itsFinalStatus := .success }).itsIdle = false := by
  unfold Tail.handleRead
  split
  · exact Or.inl ⟨Threads.Steady.silent rfl, rfl⟩
  dsimp only
  rw [if_pos rfl]
  refine Or.inr ⟨Threads.steady_handleReadBytes srv bytes a _, ?_⟩
  unfold AsyncConnection.leaveIdle
  split
  · rfl
  · rfl

/-- No wait of a later arming is in front of the last call. -/
theorem stamped_tail {s : AsyncConnection} {e : Event} {x : Outcome} (h : Stamped s)
    (hx : Tail.step srv s e = some x) : Stamped x.state := by
  by_cases hread : ∃ i a, e = .runRead i a
  · obtain ⟨i, a, rfl⟩ := hread
    simp only [Tail.step] at hx
    split at hx
    · rename_i bytes hi
      obtain rfl := Option.some.inj hx
      rcases steady_handleRead srv a bytes (s.release i) with ⟨hst, -⟩ | ⟨hst, -⟩
      · exact h.of_waits hst.waits hst.generation
      · refine Stamped.of_waits ?_ hst.waits hst.generation
        unfold AsyncConnection.leaveIdle
        split
        · exact (ticks_armTimer srv.itsTimeout (s := { s.release i with
            itsFinalStatus := .success, itsIdle := false }) h).1
        · exact h.of_waits rfl rfl
    · cases hx
  · exact (unlooked_tail srv hx fun i a he => hread ⟨i, a, he⟩).stamped h

/-- Each arming keeps one wait up to the last call. -/
theorem distinct_tail {s : AsyncConnection} {e : Event} {x : Outcome} (hst : Stamped s)
    (h : Distinct s) (hx : Tail.step srv s e = some x) : Distinct x.state := by
  by_cases hread : ∃ i a, e = .runRead i a
  · obtain ⟨i, a, rfl⟩ := hread
    simp only [Tail.step] at hx
    split at hx
    · rename_i bytes hi
      obtain rfl := Option.some.inj hx
      rcases steady_handleRead srv a bytes (s.release i) with ⟨hs, -⟩ | ⟨hs, -⟩
      · exact h.winds (.of_eq hs.waits)
      · refine Distinct.winds ?_ (.of_eq hs.waits)
        unfold AsyncConnection.leaveIdle
        split
        · exact distinct_armTimer srv.itsTimeout (s := { s.release i with
            itsFinalStatus := .success, itsIdle := false }) hst h
        · exact h
    · cases hx
  · exact h.winds (unlooked_tail srv hx fun i a he => hread ⟨i, a, he⟩).waits

/-- Once the timer has acted it is not armed again. -/
theorem winds_tail {s : AsyncConnection} {e : Event} {x : Outcome}
    (h : s.hasTimedOut = true) (hx : Tail.step srv s e = some x) :
    x.state.hasTimedOut = true ∧ Winds s.world.waits x.state.world.waits := by
  by_cases hread : ∃ i a, e = .runRead i a
  · obtain ⟨i, a, rfl⟩ := hread
    simp only [Tail.step] at hx
    split at hx
    · rename_i bytes hi
      obtain rfl := Option.some.inj hx
      have hidle : leaveIdle srv { s.release i with itsFinalStatus := .success } =
          { s.release i with itsFinalStatus := .success, itsIdle := false } := by
        unfold AsyncConnection.leaveIdle
        rw [if_neg (by simp [show (s.release i).hasTimedOut = true from h])]
      rcases steady_handleRead srv a bytes (s.release i) with ⟨hs, -⟩ | ⟨hs, -⟩
      · exact ⟨hs.timedOut.trans h, .of_eq hs.waits⟩
      · rw [hidle] at hs
        exact ⟨hs.timedOut.trans h, .of_eq hs.waits⟩
    · cases hx
  · have hun := unlooked_tail srv hx fun i a he => hread ⟨i, a, he⟩
    exact ⟨hun.timedOut h, hun.waits⟩

/-- A queued call of `handleRead` appends its bytes when they fit, and takes a request
from the front. -/
theorem buffer_handleRead (a : Answers) (bytes : Bytes) (s : AsyncConnection) :
    (Tail.handleRead srv a .success bytes s).state.itsBuffer = s.itsBuffer ∨
      (0 < srv.itsMaxRequestSize →
        s.itsReceivedBytes + bytes.length ≤ srv.itsMaxRequestSize) ∧
      (Tail.handleRead srv a .success bytes s).state.itsBuffer <:+ s.itsBuffer ++ bytes := by
  have hidle : ∀ u : AsyncConnection, (leaveIdle srv u).itsBuffer = u.itsBuffer ∧
      (leaveIdle srv u).itsReceivedBytes = u.itsReceivedBytes := by
    intro u
    unfold leaveIdle
    split
    · exact ⟨rfl, rfl⟩
    · exact ⟨rfl, rfl⟩
  have hparse : ∀ u : AsyncConnection, (Tail.parseBuffer srv a u).state.itsBuffer <:+
      u.itsBuffer := by
    intro u
    unfold Tail.parseBuffer
    cases srv.spine.parseOneRequest u.itsBuffer with
    | complete request consumed =>
      dsimp only
      rw [(stretch_handleParsedRequest srv a _).buffer]
      exact List.drop_suffix _ _
    | failed => exact List.suffix_refl _
    | incomplete => exact ⟨[], (stretch_handleIncompleteRequest srv a u).buffer⟩
  unfold Tail.handleRead
  split
  · exact Or.inl rfl
  dsimp only
  rw [if_pos rfl]
  obtain ⟨hb, hr⟩ := hidle { s with itsFinalStatus := .success }
  unfold Tail.handleReadBytes
  dsimp only
  split
  · exact Or.inl hb
  · rename_i hfits
    right
    refine ⟨fun hmax => ?_, ?_⟩
    · rw [hr] at hfits
      simpa [hmax] using hfits
    · exact (hparse _).trans ⟨[], congrArg (· ++ bytes) hb⟩

end AsyncConnection

end SmartMet
