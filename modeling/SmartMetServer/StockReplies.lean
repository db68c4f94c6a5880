/-
# The server's own replies

`sendSimpleReply` writes a header section and a content and then either closes
the socket or re-arms the connection.  What it does to the exchange does not
depend on where it was called; `sendStockReply_closing` is the case of a
connection that is not persistent, `inv_finishResponse` the case of one that is.
-/
import SmartMetServer.Invariant

namespace SmartMet

open ChunkedCoding Exchange

/-- Some of the bytes of a message were sent: in order, and all of them unless an
error was recorded. -/
structure Sends (m : Message) (whole : Bytes) (w : World) (extra : List (Message × Bytes))
    (f : Bool) : Prop where
  message : ∀ p ∈ extra, p.1 = m
  bytes : extra.flatMap Prod.snd <+: whole
  exact : f = false → extra.flatMap Prod.snd = whole ∧ (current w.trace).failed = false
  socket : w.socket ≠ .open → extra = []

namespace AsyncConnection

variable (srv : Server) (a : Answers)

/-- The state after the writes of `sendSimpleReply`. -/
def replied (s : AsyncConnection) (w : World) (e : ErrorCode) (k : Bool) : AsyncConnection :=
  { s with itsFinalStatus := e, itsKeepAlive := k, world := w }

/-- What the writes of a reply leave of the world. -/
structure RepliedIn (m : Message) (r : Response) (head : Bytes) (w w' : World) : Prop where
  outstanding : w'.outstanding = w.outstanding
  waits : w'.waits = w.waits
  shutdownRequested : w'.shutdownRequested = w.shutdownRequested
  socket : w'.socket = w.socket ∨ w.socket = .open ∧ w'.socket = .broken
  past : past w'.trace = past w.trace
  trace : ∃ new, w'.trace = new ++ w.trace ∧ ∀ o ∈ new, ∀ g n, o ≠ .armed g n
  current : ∃ extra f, current w'.trace = (current w.trace).reply m r head extra f ∧
    Sends m (head ++ r.getContent) w extra f

/-- `sendSimpleReply` of a response whose status is set. -/
theorem sendSimpleReply_cases {m : Message} {s : AsyncConnection}
    (h : s.itsResponse.status.isSome) :
    ∃ w e k, RepliedIn m s.itsResponse (srv.spine.headerSection s.itsResponse) s.world w ∧
      (k = true → s.itsKeepAlive = true) ∧
      (s.itsKeepAlive = true → k = true ∨ (current w.trace).failed = true) ∧
      sendSimpleReply srv a m s =
        if k then finishResponse srv (s.replied w e k) else closeSocket (s.replied w e k) := by
  have hh : headersToString srv.spine s.itsResponse
      = some (srv.spine.headerSection s.itsResponse) := by
    unfold headersToString
    rw [if_pos h]
  let head := srv.spine.headerSection s.itsResponse
  let w₀ := s.world.emit (.rendered m s.itsResponse head)
  let w₁ := w₀.write m head a.headerWrite
  let err := w₁.writeFails s.itsResponse.getContent a.contentWrite
  let w₂ := w₁.write m s.itsResponse.getContent a.contentWrite
  have hd : Delivers m (head ++ s.itsResponse.getContent) w₀ w₂ :=
    World.write_write_delivers w₀ m _ _ _ _
  obtain ⟨extra, f, he, ht, hp, hf, hs⟩ := hd.current
  obtain ⟨new, hnew, hev⟩ := hd.trace
  refine ⟨w₂, if err then .other else .success, s.itsKeepAlive && !err, ?_, ?_, ?_, ?_⟩
  · refine ⟨hd.outstanding, hd.waits, hd.shutdownRequested, hd.socket, ?_, ?_, extra, f, ?_, ?_⟩
    · exact hd.past.trans (past_cons (by simp) _)
    · refine ⟨new ++ [.rendered m s.itsResponse head], by rw [hnew, List.append_assoc]; rfl, ?_⟩
      intro o ho g n
      rcases List.mem_append.mp ho with ho | ho
      · rcases hev o ho with ⟨b, rfl⟩ | rfl
        · simp
        · simp
      · rw [List.mem_singleton.mp ho]
        simp
    · exact he
    · exact ⟨ht, hp, hf, hs⟩
  · intro hk
    rw [Bool.and_eq_true] at hk
    exact hk.1
  · intro hk
    cases herr : err with
    | true => exact Or.inr (World.failed_of_writeFails herr)
    | false => exact Or.inl (by rw [hk]; rfl)
  · unfold sendSimpleReply
    rw [hh]
    rfl

theorem stockResponse_status (st : Status) (s : AsyncConnection) :
    (stockResponse srv a st s).itsResponse.status.isSome := by
  rw [(isStock_stockResponse srv a st s).status]
  rfl

/-- The content of a stock response is its page. -/
theorem IsStock.getContent {st : Status} {before r : Response} (h : IsStock srv st before r) :
    r.getContent = srv.spine.stockContent st := by
  unfold Response.getContent
  rw [h.content]

/-- **A stock reply on a connection that is not persistent** is announced as the
last one and closes the socket. -/
theorem sendStockReply_closing (st : Status) {s : AsyncConnection}
    (hk : s.itsKeepAlive = false) :
    ∃ r e w, sendStockReply srv a st s =
        closeSocket { s with
          itsResponse := r, itsFinalStatus := e, itsKeepAlive := false, world := w } ∧
      IsStock srv st s.itsResponse r ∧
      r.getHeader "Connection".toList = some "close".toList ∧
      RepliedIn (.stock st) r (srv.spine.headerSection r) s.world w := by
  have hk' : (stockResponse srv a st s).itsKeepAlive = false := by
    cases h : (stockResponse srv a st s).itsKeepAlive with
    | false => rfl
    | true =>
      rw [keepAlive_of_stockResponse srv a h] at hk
      exact absurd hk (by simp)
  obtain ⟨w, e, k, hw, hkk, -, heq⟩ :=
    sendSimpleReply_cases srv a (m := .stock st) (stockResponse_status srv a st s)
  obtain rfl : k = false := by
    cases k with
    | false => rfl
    | true => exact absurd (hkk rfl) (by rw [hk']; simp)
  refine ⟨(stockResponse srv a st s).itsResponse, e, w, ?_, isStock_stockResponse srv a st s, ?_,
    hw⟩
  · unfold sendStockReply
    rw [heq]
    rfl
  · unfold stockResponse at hk' ⊢
    exact connection_close_of_not_keepAlive srv a hk'

/-! ## The trace under the functions that end an exchange -/

@[simp] theorem closeSocket_outstanding (s : AsyncConnection) :
    (closeSocket s).world.outstanding = s.world.outstanding := rfl

@[simp] theorem closeSocket_waits (s : AsyncConnection) :
    (closeSocket s).world.waits = s.world.waits := rfl

@[simp] theorem closeSocket_socket (s : AsyncConnection) :
    (closeSocket s).world.socket = .closed := rfl

@[simp] theorem closeSocket_past (s : AsyncConnection) :
    past (closeSocket s).world.trace = past s.world.trace := rfl

/-- Closing the socket says nothing about the exchange. -/
@[simp] theorem closeSocket_exchange (s : AsyncConnection) :
    (closeSocket s).exchange = s.exchange := rfl

theorem RepliedIn.closed {m : Message} {r : Response} {head : Bytes} {w w' : World}
    (h : RepliedIn m r head w w') (hs : w.socket = .closed) : w'.socket = .closed := by
  rcases h.socket with h | ⟨h, -⟩
  · exact h.trans hs
  · rw [hs] at h
    cases h

/-- A stock reply where the timer could still have answered. -/
theorem Waiting.reply {t : AsyncConnection} (h : Waiting srv t) {st : Status} {r : Response}
    {head bytes : Bytes} {extra : List (Message × Bytes)} {f : Bool}
    (hx : Sends (.stock st) bytes t.world extra f)
    (hr : r.getHeader "Connection".toList = some "close".toList) :
    Direct srv (t.exchange.reply (.stock st) r head extra f) := by
  refine ⟨h.direct.toPlain.reply srv (Or.inr ⟨st, rfl⟩) hx.message ?_ (fun _ _ _ _ => hr),
    h.direct.dispatched, h.direct.handled⟩
  intro hne
  refine h.live ?_
  intro hc
  exact hne (hx.socket (by rw [hc]; simp))

/-- **The server refuses**: a stock reply that ends a connection on which no
handler was called. -/
theorem inv_refuse {st : Status} {t : AsyncConnection} (hc : Common srv t) (hw : Waiting srv t)
    (hk : t.itsKeepAlive = false) : Inv srv (sendStockReply srv a st t) := by
  obtain ⟨r, e, w, heq, -, hr, hin⟩ := sendStockReply_closing srv a st hk
  obtain ⟨extra, f, hx, hs⟩ := hin.current
  rw [heq]
  have hd : Direct srv (current w.trace) := by
    rw [hx]
    exact hw.reply srv hs hr
  have hc' : Common srv { t with world := w.close } :=
    hc.inWorld srv hin.outstanding hin.waits (fun _ => rfl) hin.past
  exact inv_over srv (hc'.update srv rfl) ⟨hd.sound, hd.complete,
    Or.inl ⟨hd, fun h => absurd rfl h⟩⟩

/-- A new arming cancels the wait before it. -/
theorem Common.armTimer {t : AsyncConnection} (h : Common srv t) (n : ℕ) :
    Common srv (armTimer n t) := by
  refine ⟨h.outstanding, ?_, ?_, h.timedOut, h.connected, h.past⟩
  · intro w hw
    rcases List.mem_cons.mp hw with rfl | hw
    · exact Nat.le_refl _
    · obtain ⟨w', hw', rfl⟩ := List.mem_map.mp hw
      exact Nat.le_succ_of_le (h.stamped w' hw')
  · intro w hw hs
    rcases List.mem_cons.mp hw with rfl | hw
    · rfl
    · obtain ⟨w', hw', rfl⟩ := List.mem_map.mp hw
      simp only [TimerWait.cancel] at hs
      split at hs
      · cases hs
      · contradiction

/-- Nothing is known of the next request: the state `finishResponse` starts it
from is that of a connection that reads. -/
theorem reading_resetRequestState {t : AsyncConnection}
    (hr : t.itsReceivedBytes = t.itsBuffer.length) (hp : t.itsPendingHeaders = []) :
    Reading srv (armForNextRequest srv (resetRequestState t)) := by
  have hx : (armForNextRequest srv (resetRequestState t)).exchange = {} := rfl
  refine ⟨⟨?_, fun _ => ?_⟩, ⟨hr, hp⟩, rfl, rfl, fun _ => ⟨rfl, rfl, rfl, rfl, rfl⟩⟩
  · rw [hx]
    exact direct_empty srv
  · rw [hx]
    exact unanswered_empty

/-- `finishResponse` after an exchange that allows the connection to go on. -/
theorem inv_finishResponse {t : AsyncConnection} (hc : Common srv t)
    (hd : mayReuse t = true → Done srv t.exchange)
    (hr : t.itsReceivedBytes = t.itsBuffer.length) (hp : t.itsPendingHeaders = [])
    (hover : mayReuse t = false → Over srv t) : Inv srv (finishResponse srv t) := by
  unfold finishResponse
  cases hm : mayReuse t with
  | false => exact inv_over srv hc (hover hm)
  | true =>
    have hcr : Common srv (resetRequestState t) := by
      refine ⟨hc.outstanding, hc.stamped, hc.pending, hc.timedOut, hc.connected, ?_⟩
      intro x hx
      rcases List.mem_cons.mp hx with rfl | hx
      · exact hd hm
      · exact hc.past x hx
    have hcu : Common srv (armForNextRequest srv (resetRequestState t)) := hcr.armTimer srv _
    have hread := reading_resetRequestState srv hr hp
    show Inv srv (resumeReading (armForNextRequest srv (resetRequestState t)))
    unfold resumeReading
    split
    · exact inv_await srv hcu hread
    · exact inv_await srv hcu hread

/-! ## The waits of the timer -/

/-- The wait whose handler is called. -/
theorem readyWait_spec {s : AsyncConnection} {g : ℕ} {w : TimerWait}
    (h : s.readyWait g = some w) : w ∈ s.world.waits ∧ w.generation = g ∧ w.status ≠ .pending := by
  unfold readyWait at h
  have hp := List.find?_some h
  simp only [Bool.and_eq_true, beq_iff_eq, bne_iff_ne] at hp
  exact ⟨List.mem_of_find?_eq_some h, hp.1, hp.2⟩

/-- The state with other waits and another shutdown flag. -/
def disturbed (t : AsyncConnection) (ws : List TimerWait) (b : Bool) : AsyncConnection :=
  { t with world := { t.world with waits := ws, shutdownRequested := b } }

theorem Reading.disturbed {t : AsyncConnection} (h : Reading srv t) (ws : List TimerWait)
    (b : Bool) : Reading srv (t.disturbed ws b) :=
  ⟨⟨h.direct, h.live⟩, ⟨h.received, h.pendingHeaders⟩, h.keepAlive, h.requests,
    fun hs => ⟨(h.blank hs).1, (h.blank hs).2, (h.blank hs).3, (h.blank hs).4, (h.blank hs).5⟩⟩

theorem Queued.disturbed {t : AsyncConnection} (h : Queued srv t) (ws : List TimerWait)
    (b : Bool) : Queued srv (t.disturbed ws b) :=
  ⟨⟨h.direct, h.live⟩, ⟨h.received, h.pendingHeaders⟩, h.request,
    fun hs => ⟨(h.blank hs).1, (h.blank hs).2, (h.blank hs).3, (h.blank hs).4, (h.blank hs).5⟩⟩

theorem Answering.disturbed {t : AsyncConnection} (h : Answering t) {ws : List TimerWait}
    {b : Bool} (hw : Unarmed t → Unarmed (t.disturbed ws b)) : Answering (t.disturbed ws b) :=
  ⟨hw h.unarmed, h.received, h.request, h.dispatched, h.handled, h.failed, h.refused, h.wire,
    h.ordered⟩

theorem Writing.disturbed {t : AsyncConnection} {buffer : Bytes} (h : Writing t buffer)
    {ws : List TimerWait} {b : Bool} (hw : Unarmed t → Unarmed (t.disturbed ws b)) :
    Writing (t.disturbed ws b) buffer :=
  ⟨h.toAnswering.disturbed hw, h.pendingHeaders, h.buffer⟩

/-- A phase does not depend on the timer, once the connection is unarmed. -/
theorem Phase.disturbed {t : AsyncConnection} {x : Activity} (h : Phase srv t x)
    {ws : List TimerWait} {b : Bool} (hw : Unarmed t → Unarmed (t.disturbed ws b)) :
    Phase srv (t.disturbed ws b) x := by
  rcases x with _ | _ | bytes | ⟨pool, _ | _ | _⟩ | ⟨_ | _ | _ | _, buffer⟩
  · exact Reading.disturbed srv h ws b
  · exact Reading.disturbed srv h ws b
  · exact Reading.disturbed srv h ws b
  · exact Queued.disturbed srv h ws b
  · obtain ⟨h1, h2, h3⟩ := h
    exact ⟨h1.disturbed hw, h2, h3.1, h3.2, h3.3, h3.4, h3.5, h3.6⟩
  · obtain ⟨h1, h2, h3⟩ := h
    exact ⟨h1.disturbed hw, h2, h3.1, h3.2, h3.3, h3.4, h3.5⟩
  · obtain ⟨h1, h2⟩ := h
    exact ⟨h1.disturbed hw, h2.1, h2.2⟩
  · obtain ⟨h1, h2⟩ := h
    exact ⟨h1.disturbed hw, h2.1, h2.2, h2.3, h2.4, h2.5, h2.6⟩
  · obtain ⟨h1, h2⟩ := h
    exact ⟨h1.disturbed hw, h2.1, h2.2, h2.3, h2.4, h2.5⟩
  · obtain ⟨h1, h2, h3⟩ := h
    exact ⟨h1.disturbed hw, ⟨h2.1, h2.2, h2.3, h2.4, h2.5⟩, h3⟩

/-- Waits may go, and pending waits may end; a shutdown may be requested. -/
theorem Inv.disturbed {s : AsyncConnection} (h : Inv srv s) (ws : List TimerWait) (b : Bool)
    (hw : ∀ w ∈ ws, ∃ w' ∈ s.world.waits, w.generation = w'.generation ∧
      (w.status = .pending → w'.status = .pending)) : Inv srv (s.disturbed ws b) := by
  obtain ⟨hc, hph⟩ := h
  have hu : Unarmed s.bare → Unarmed (s.bare.disturbed ws b) := by
    intro hu w hmem
    obtain ⟨w', hmem', hg, -⟩ := hw w hmem
    show w.generation < s.itsTimerGeneration
    rw [hg]
    exact hu w' hmem'
  refine ⟨⟨rfl, ?_, ?_, hc.timedOut, hc.connected, hc.past⟩, ?_⟩
  · intro w hmem
    obtain ⟨w', hmem', hg, -⟩ := hw w hmem
    show w.generation ≤ s.itsTimerGeneration
    rw [hg]
    exact hc.stamped w' hmem'
  · intro w hmem hs
    obtain ⟨w', hmem', hg, hp⟩ := hw w hmem
    rw [hg]
    exact hc.pending w' hmem' (hp hs)
  · rcases hph with ⟨ho, hov⟩ | ⟨x, ho, hp⟩
    · refine Or.inl ⟨ho, hov.sound, hov.complete, ?_⟩
      rcases hov.quiet with hq | ⟨hq, hd⟩
      · exact Or.inl ⟨hq.direct, hq.live⟩
      · exact Or.inr ⟨hu hq, hd⟩
    · exact Or.inr ⟨x, ho, Phase.disturbed srv hp hu⟩

/-! ## The handler of the timer -/

/-- A request that is not answered by a handler is being read, or queued. -/
theorem Phase.waiting {t : AsyncConnection} {x : Activity} (h : Phase srv t x)
    (hu : ¬ Unarmed t) : Waiting srv t := by
  rcases x with _ | _ | bytes | ⟨pool, _ | _ | _⟩ | ⟨_ | _ | _ | _, buffer⟩
  · exact (show Reading srv t from h).toWaiting
  · exact (show Reading srv t from h).toWaiting
  · exact (show Reading srv t from h).toWaiting
  · exact (show Queued srv t from h).toWaiting
  · exact absurd h.1.unarmed hu
  · exact absurd h.1.unarmed hu
  · exact absurd h.1.unarmed hu
  · exact absurd h.1.unarmed hu
  · exact absurd h.1.unarmed hu
  · exact absurd h.1.unarmed hu

theorem Inv.waiting {s : AsyncConnection} (h : Inv srv s) (hu : ¬ Unarmed s.bare) :
    Waiting srv s.bare := by
  rcases h.2 with ⟨-, hov⟩ | ⟨x, -, hp⟩
  · rcases hov.quiet with hq | ⟨hq, -⟩
    · exact hq
    · exact absurd hq hu
  · exact Phase.waiting srv hp hu

/-- What the timer leaves when it ends a connection. -/
structure TimedOut (s s' : AsyncConnection) : Prop where
  state : ∃ r e k w, s' = { s with
    hasTimedOut := true, itsResponse := r, itsFinalStatus := e, itsKeepAlive := k, world := w }
  keepAlive : s.itsKeepAlive = false → s'.itsKeepAlive = false
  socket : s'.world.socket = .closed
  outstanding : s'.world.outstanding = s.world.outstanding
  waits : ∀ x ∈ s'.world.waits, x ∈ s.world.waits
  past : past s'.world.trace = past s.world.trace
  requests : s'.exchange.requests = s.exchange.requests
  direct : Waiting srv s → Direct srv s'.exchange

/-- The handler of a wait that was not aborted and has the current stamp. -/
theorem timedOut_handleTimer (s : AsyncConnection) {ws : List TimerWait}
    (hws : ∀ x ∈ ws, x ∈ s.world.waits) :
    TimedOut srv s
      (handleTimer srv a .success s.itsTimerGeneration { s with world.waits := ws }) := by
  unfold handleTimer
  rw [if_neg (by simp), if_neg (by simp)]
  dsimp only
  split
  · refine ⟨⟨s.itsResponse, s.itsFinalStatus, s.itsKeepAlive,
      World.close { s.world with waits := ws }, rfl⟩, fun h => h, rfl, rfl, hws, rfl, rfl,
      fun h => h.direct⟩
  · obtain ⟨r, e, w, heq, -, hr, hin⟩ := sendStockReply_closing srv a .requestTimeout
      (s := { s with
        hasTimedOut := true, itsKeepAlive := false, world := { s.world with waits := ws } }) rfl
    obtain ⟨extra, f, hx, hs⟩ := hin.current
    rw [heq]
    have hx' : current w.trace = s.exchange.reply (.stock .requestTimeout) r
        (srv.spine.headerSection r) extra f := hx
    refine ⟨⟨r, e, false, w.close, rfl⟩, fun _ => rfl, rfl, hin.outstanding, ?_, hin.past,
      ?_, ?_⟩
    · show ∀ x ∈ w.waits, _
      rw [hin.waits]
      exact hws
    · show (current w.trace).requests = _
      rw [hx']
      rfl
    · intro hw
      show Direct srv (current w.trace)
      rw [hx']
      exact hw.reply srv ⟨hs.message, hs.bytes, hs.exact, hs.socket⟩ hr

/-- The timer ends the connection: whatever is outstanding stays so. -/
theorem inv_timedOut {s s' : AsyncConnection} (h : Inv srv s) (hu : ¬ Unarmed s.bare)
    (ht : TimedOut srv s s') : Inv srv s' := by
  have hwaiting := h.waiting srv hu
  obtain ⟨hc, hph⟩ := h
  obtain ⟨⟨r, e, k, w, rfl⟩, hk, hsock, hout, hwait, hpast, hreq, hdir⟩ := ht
  have hd : Direct srv (current w.trace) := hdir ⟨hwaiting.direct, hwaiting.live⟩
  have hw : Waiting srv (bare { s with
      hasTimedOut := true, itsResponse := r, itsFinalStatus := e, itsKeepAlive := k, world := w }) :=
    ⟨hd, fun hs => absurd hsock hs⟩
  refine ⟨⟨rfl, ?_, ?_, fun _ => hsock, hc.connected, ?_⟩, ?_⟩
  · exact fun x hx => hc.stamped x (hwait x hx)
  · exact fun x hx => hc.pending x (hwait x hx)
  · show ∀ x ∈ past w.trace, _
    rw [show past w.trace = past s.world.trace from hpast]
    exact hc.past
  · rcases hph with ⟨ho, -⟩ | ⟨x, ho, hp⟩
    · exact Or.inl ⟨hout.trans ho, hd.sound, hd.complete, Or.inl hw⟩
    · refine Or.inr ⟨x, hout.trans ho, ?_⟩
      have hread : Reading srv s.bare → Reading srv (bare { s with
          hasTimedOut := true, itsResponse := r, itsFinalStatus := e, itsKeepAlive := k,
          world := w }) := fun h =>
        ⟨hw, ⟨h.received, h.pendingHeaders⟩, hk h.keepAlive, hreq.trans h.requests,
          fun hs => absurd hsock hs⟩
      rcases x with _ | _ | bytes | ⟨pool, _ | _ | _⟩ | ⟨_ | _ | _ | _, buffer⟩
      · exact hread hp
      · exact hread hp
      · exact hread hp
      · obtain ⟨q, hq, hq'⟩ := (show Queued srv s.bare from hp).request
        exact ⟨hw, ⟨hp.received, hp.pendingHeaders⟩, ⟨q, hreq.trans hq, hq'⟩,
          fun hs => absurd hsock hs⟩
      · exact absurd hp.1.unarmed hu
      · exact absurd hp.1.unarmed hu
      · exact absurd hp.1.unarmed hu
      · exact absurd hp.1.unarmed hu
      · exact absurd hp.1.unarmed hu
      · exact absurd hp.1.unarmed hu

end AsyncConnection

end SmartMet
