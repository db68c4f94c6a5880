/-
# Reachable states

Every event keeps the invariant, so every run does.
-/
import SmartMetServer.ReplyPath

namespace SmartMet

open ChunkedCoding Exchange

namespace AsyncConnection

variable (srv : Server)

/-- The first read of a connection. -/
theorem inv_start : Inv srv (start srv) := by
  let t := armTimer srv.itsTimeout { itsCounted := true }
  have hx : t.exchange = {} := rfl
  have hc : Common srv t := by
    refine ⟨rfl, ?_, ?_, ?_, rfl, ?_⟩
    · intro w hw
      obtain rfl := List.mem_singleton.mp hw
      exact Nat.le_refl _
    · intro w hw _
      obtain rfl := List.mem_singleton.mp hw
      rfl
    · intro h
      cases h
    · intro x hx
      cases hx
  have hr : Reading srv t := by
    refine ⟨⟨?_, fun _ => ?_⟩, ⟨rfl, rfl⟩, rfl, rfl, fun _ => ⟨rfl, rfl, rfl, rfl, rfl⟩⟩
    · rw [hx]
      exact direct_empty srv
    · rw [hx]
      exact unanswered_empty
  show Inv srv (if srv.itsEncryptionEnabled then t.await .handshake else startRead t)
  split
  · exact inv_await srv hc hr
  · exact inv_await srv hc hr

/-- The handshake keeps the invariant. -/
theorem Reading.inv_handleHandshake {ok : Bool} {t : AsyncConnection} (h : Reading srv t)
    (hc : Common srv t) : Inv srv (handleHandshake ok t) := by
  unfold handleHandshake
  split
  · exact inv_await srv hc h
  · have hcl : Common srv { t with world := t.world.close } :=
      hc.inWorld srv rfl rfl (fun _ => rfl) rfl
    exact inv_over srv hcl ⟨h.direct.sound, h.direct.complete,
      Or.inl ⟨h.direct, fun hs => absurd rfl hs⟩⟩

/-- A task of a pool. -/
theorem Phase.inv_runTask {a : Answers} {pool : Pool} {task : Task} {t : AsyncConnection}
    (h : Phase srv t (.task pool task)) (hc : Common srv t) : Inv srv (runTask srv a task t) := by
  rcases task with view | _ | _
  · exact Queued.inv_handleCompletedRead srv a h hc
  · obtain ⟨h1, hp, h2⟩ := h
    rw [← hp] at h2
    exact h1.inv_getNextChunk srv a h2 hc
  · obtain ⟨h1, hp, h2⟩ := h
    rw [← hp] at h2
    exact h1.inv_getNextChunkedChunk srv a h2 hc

/-- The next reply of a buffered response: there is none. -/
theorem Regular.inv_next {u : AsyncConnection} (h : Answering u) (hp : u.itsPendingHeaders = [])
    (hb : Regular srv u []) (hc : Common srv u) :
    Inv srv (finishResponse srv (notifyBackendFinished .exitOk u)) := by
  obtain ⟨hsound, hcomplete, hdone⟩ := hb.done srv h
  exact h.inv_finishResponse srv (s := notifyBackendFinished .exitOk u)
    (k := (notifyBackendFinished .exitOk u).itsKeepAlive) hp hc
    (logOnly_notifyBackendFinished .exitOk u) hsound hcomplete fun _ => hdone

/-- The last chunk is out. -/
theorem Finalizing.inv_next {u : AsyncConnection} (h : Answering u)
    (hp : u.itsPendingHeaders = []) (hb : Finalizing srv u []) (hc : Common srv u) :
    Inv srv (finishResponse srv (finalizeStreamLogging u)) := by
  obtain ⟨hsound, hcomplete, hdone⟩ := hb.done srv h
  exact h.inv_finishResponse srv (s := finalizeStreamLogging u)
    (k := (finalizeStreamLogging u).itsKeepAlive) hp hc (logOnly_finalizeStreamLogging u) hsound
    hcomplete fun _ => hdone

/-- A completed write. -/
theorem Phase.inv_written {a : Answers} {handler : WriteHandler} {buffer : Bytes} {n : ℕ}
    {t : AsyncConnection} (h : Phase srv t (.write handler buffer)) (hc : Common srv t) :
    Inv srv (runWriteHandler srv a handler .success n
      (t.emit (.wrote .handler (buffer.take n)))) := by
  cases handler with
  | writeRegularReply =>
    obtain ⟨h1, h2⟩ := h
    exact h1.inv_continueWrite srv a _ (Regular srv) _ _ (fun hs hb he => hb.sent srv hs he)
      (fun hw hb _ => ⟨hw, hb⟩) (fun ha hp hb hc => Regular.inv_next srv ha hp hb hc) h2 hc
  | writeStreamReply =>
    obtain ⟨h1, h2⟩ := h
    exact h1.inv_continueWrite srv a _ (Streaming srv) _
      (logAndNotify a) (fun hs hb he => hb.sent srv hs he)
      (fun hw hb _ => ⟨hw, hb⟩) (fun ha hp hb hc => ha.inv_scheduleChunkGetter srv a hp hb hc)
      h2 hc
  | writeChunkedReply =>
    obtain ⟨h1, h2⟩ := h
    exact h1.inv_continueWrite srv a _ (Chunking srv) _
      (logAndNotify a) (fun hs hb he => hb.sent srv hs he)
      (fun hw hb _ => ⟨hw, hb⟩)
      (fun ha hp hb hc => ha.inv_scheduleChunkedChunkGetter srv a hp hb hc) h2 hc
  | finalizeChunkedReply =>
    obtain ⟨h1, h2, -⟩ := h
    exact h1.inv_continueWrite srv a _ (Finalizing srv) _ _ (fun hs hb he => hb.sent srv hs he)
      (fun hw hb hne => ⟨hw, hb, hne⟩) (fun ha hp hb hc => Finalizing.inv_next srv ha hp hb hc)
      h2 hc

/-- A failed write. -/
theorem Phase.inv_writeFails {a : Answers} {handler : WriteHandler} {buffer : Bytes}
    {t : AsyncConnection} (h : Phase srv t (.write handler buffer)) (hc : Common srv t) :
    Inv srv (runWriteHandler srv a handler .other 0 t.failWrite) := by
  have hstream : ∀ s, LogOnly s (logAndNotify a s) := fun s =>
    (logOnly_finalizeStreamLogging s).trans (logOnly_notifyBackendFinished _ _)
  cases handler with
  | writeRegularReply =>
    obtain ⟨h1, h2⟩ := h
    have h1' := h1.toAnswering
    refine h1'.inv_writeFailed srv a (Body.facts srv h1' (Or.inl h2)) hc ?_ _ _ _ fun s =>
      ⟨rfl, rfl, rfl, rfl, rfl, rfl, s.itsResponse, s.itsBackendNotified, s.world, rfl⟩
    intro hp
    rw [h2.path] at hp
    cases hp
  | writeStreamReply =>
    obtain ⟨h1, h2⟩ := h
    have h1' := h1.toAnswering
    refine h1'.inv_writeFailed srv a (Body.facts srv h1' (Or.inr (Or.inl h2))) hc ?_ _ _ _ hstream
    intro hp
    rcases h2.path with hp' | hp'
    · rw [hp'] at hp
      cases hp
    · rw [hp'] at hp
      cases hp
  | writeChunkedReply =>
    obtain ⟨h1, h2⟩ := h
    have h1' := h1.toAnswering
    exact h1'.inv_writeFailed srv a (Body.facts srv h1' (Or.inr (Or.inr (Or.inl h2)))) hc
      (fun _ he => absurd he h2.ended) _ _ _ hstream
  | finalizeChunkedReply =>
    obtain ⟨h1, h2, h3⟩ := h
    have h1' := h1.toAnswering
    exact h1'.inv_writeFailed srv a (Body.facts srv h1' (Or.inr (Or.inr (Or.inr h2)))) hc
      (fun _ _ => h3) _ _ _ logOnly_finalizeStreamLogging

/-- **Every step keeps the invariant.** -/
theorem inv_step {s s' : AsyncConnection} {e : Event} (h : Inv srv s)
    (hstep : step srv s e = some s') : Inv srv s' := by
  cases e with
  | handshake i ok =>
    simp only [step] at hstep
    split at hstep
    · rename_i hi
      obtain ⟨hrel, hc, hp⟩ := h.released srv hi
      obtain rfl := Option.some.inj hstep
      rw [hrel]
      exact Reading.inv_handleHandshake srv hp hc
    · cases hstep
  | receive i bytes =>
    simp only [step] at hstep
    split at hstep
    · rename_i hi
      obtain ⟨hrel, hc, hp⟩ := h.released srv hi
      split at hstep
      · obtain rfl := Option.some.inj hstep
        rw [hrel]
        have hp' : Reading srv s.bare := hp
        refine inv_await srv (hc.emit srv (by simp)) ?_
        exact ⟨⟨hp'.direct, hp'.live⟩, ⟨hp'.received, hp'.pendingHeaders⟩, hp'.keepAlive,
          hp'.requests, fun hs => ⟨(hp'.blank hs).1, (hp'.blank hs).2, (hp'.blank hs).3,
            (hp'.blank hs).4, (hp'.blank hs).5⟩⟩
      · cases hstep
    · cases hstep
  | readFails i e a =>
    simp only [step] at hstep
    split at hstep
    · rename_i hi
      obtain ⟨hrel, hc, hp⟩ := h.released srv hi
      split at hstep
      · obtain rfl := Option.some.inj hstep
        rw [hrel]
        exact Reading.inv_handleRead srv a hp hc
      · cases hstep
    · cases hstep
  | runRead i a =>
    simp only [step] at hstep
    split at hstep
    · rename_i bytes hi
      obtain ⟨hrel, hc, hp⟩ := h.released srv hi
      obtain rfl := Option.some.inj hstep
      rw [hrel]
      exact Reading.inv_handleRead srv a hp hc
    · cases hstep
  | runTask i a =>
    simp only [step] at hstep
    split at hstep
    · rename_i pool task hi
      obtain ⟨hrel, hc, hp⟩ := h.released srv hi
      obtain rfl := Option.some.inj hstep
      rw [hrel]
      exact Phase.inv_runTask srv hp hc
    · cases hstep
  | writeSome i n a =>
    simp only [step] at hstep
    split at hstep
    · rename_i handler buffer hi
      obtain ⟨hrel, hc, hp⟩ := h.released srv hi
      split at hstep
      · obtain rfl := Option.some.inj hstep
        rw [hrel]
        exact Phase.inv_written srv hp hc
      · cases hstep
    · cases hstep
  | writeFails i a =>
    simp only [step] at hstep
    split at hstep
    · rename_i handler buffer hi
      obtain ⟨hrel, hc, hp⟩ := h.released srv hi
      obtain rfl := Option.some.inj hstep
      rw [hrel]
      exact Phase.inv_writeFails srv hp hc
    · cases hstep
  | timerExpires =>
    simp only [step] at hstep
    split at hstep
    · obtain rfl := Option.some.inj hstep
      refine h.disturbed srv (s.world.waits.map TimerWait.expire) s.world.shutdownRequested ?_
      intro w hw
      obtain ⟨w', hw', rfl⟩ := List.mem_map.mp hw
      refine ⟨w', hw', rfl, ?_⟩
      intro hs
      simp only [TimerWait.expire] at hs
      split at hs
      · cases hs
      · contradiction
    · cases hstep
  | runTimer generation a =>
    simp only [step] at hstep
    split at hstep
    · rename_i w hw
      obtain ⟨hmem, hgen, -⟩ := readyWait_spec hw
      obtain rfl := Option.some.inj hstep
      have hsub : ∀ x ∈ s.world.waits.erase w, x ∈ s.world.waits := fun x hx =>
        List.mem_of_mem_erase hx
      have hquiet : Inv srv { s with world.waits := s.world.waits.erase w } :=
        h.disturbed srv _ s.world.shutdownRequested fun x hx => ⟨x, hsub x hx, rfl, fun hp => hp⟩
      by_cases hab : w.status = .aborted
      · rw [if_pos hab]
        exact hquiet
      · rw [if_neg hab]
        by_cases hg : generation = s.itsTimerGeneration
        · rw [hg]
          refine inv_timedOut srv h ?_ (timedOut_handleTimer srv a s hsub)
          intro hu
          -- a stamp that was given up is older than the present one
          have := hu w hmem
          rw [hgen, hg] at this
          exact Nat.lt_irrefl _ this
        · unfold handleTimer
          rw [if_neg (by simp), if_pos hg]
          exact hquiet
    · cases hstep
  | requestShutdown =>
    obtain rfl := Option.some.inj hstep
    exact h.disturbed srv s.world.waits true fun w hw => ⟨w, hw, rfl, fun hp => hp⟩

/-- **Every reachable state meets the invariant.** -/
theorem inv_reachable {s : AsyncConnection} (h : Reachable srv s) : Inv srv s := by
  obtain ⟨es, hrun⟩ := h
  exact Transition.run_preserves (fun _ _ _ => inv_step srv) (inv_start srv) hrun

end AsyncConnection

end SmartMet
