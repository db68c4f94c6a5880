/-
# From the socket to the queue of a handler

`handleRead` and what it calls keep the invariant: it goes on reading, refuses,
answers a request itself, or queues its handler.
-/
import SmartMetServer.StockReplies

namespace SmartMet

open ChunkedCoding Exchange

namespace AsyncConnection

variable (srv : Server) (a : Answers)

/-! ## Statuses of routed requests -/

/-- The codes of refusals: some of HTTP's own, and the local one. -/
theorem untrusted_cases {st : Status} (h : st ∈ untrusted srv) :
    st ∈ [Status.badRequest, Status.requestTimeout, Status.requestEntityTooLarge,
      Status.expectationFailed, Status.requestHeaderFieldsTooLarge] ∨ st = srv.spine.shutdown := by
  have h' : st ∈ [Status.badRequest, Status.requestTimeout, Status.requestEntityTooLarge,
      Status.expectationFailed, Status.requestHeaderFieldsTooLarge] ++ [srv.spine.shutdown] := h
  rcases List.mem_append.mp h' with h' | h'
  · exact Or.inl h'
  · exact Or.inr (List.mem_singleton.mp h')

theorem notFound_not_untrusted : Status.notFound ∉ untrusted srv := by
  intro h
  rcases untrusted_cases srv h with h | h
  · exact absurd h (by decide)
  · have hl := srv.spine.shutdown_local
    rw [← h] at hl
    exact absurd hl (by decide)

theorem serviceUnavailable_not_untrusted : Status.serviceUnavailable ∉ untrusted srv := by
  intro h
  rcases untrusted_cases srv h with h | h
  · exact absurd h (by decide)
  · have hl := srv.spine.shutdown_local
    rw [← h] at hl
    exact absurd hl (by decide)

theorem highLoad_not_untrusted : srv.spine.highLoad ∉ untrusted srv := by
  intro h
  rcases untrusted_cases srv h with h | h
  · have hl := srv.spine.highLoad_local
    have hle : ∀ st ∈ [Status.badRequest, Status.requestTimeout, Status.requestEntityTooLarge,
        Status.expectationFailed, Status.requestHeaderFieldsTooLarge], ¬ 599 < st := by
      decide
    exact hle _ h hl
  · exact srv.spine.highLoad_ne_shutdown h

/-! ## A request that was accepted -/

/-- The state in which a request is routed: its persistence was settled while no
shutdown was requested. -/
structure Routing (t : AsyncConnection) : Prop extends Queued srv t where
  socket : t.world.socket ≠ .closed
  shutdown : t.itsKeepAlive = true → t.world.shutdownRequested = false

/-- The bytes of the first reply in an exchange. -/
theorem out_reply {x : Exchange} (hx : Unanswered x) {m : Message} {r : Response}
    {head : Bytes} {extra : List (Message × Bytes)} {f : Bool} (hm : m ≠ .interim)
    (ht : ∀ p ∈ extra, p.1 = m) :
    (x.reply m r head extra f).out = extra.flatMap Prod.snd := by
  have hnil : x.wire.flatMap (fun p => if p.1 = .interim then [] else p.2) = [] :=
    List.flatMap_eq_nil_iff.mpr fun p hp => if_pos (hx.2 p hp)
  have he : extra.flatMap (fun p => if p.1 = .interim then [] else p.2)
      = extra.flatMap Prod.snd := by
    rw [List.flatMap_def, List.flatMap_def]
    congr 1
    refine List.map_congr_left ?_
    intro p hp
    rw [if_neg]
    rw [ht p hp]
    exact hm
  unfold out reply
  rw [List.flatMap_append, hnil, he, List.nil_append]

/-- **A reply of the server's own to a request it has accepted**, before a handler
was called or instead of what the handler has left. -/
theorem inv_serverReply {m : Message} {t : AsyncConnection} {r : Request}
    (hc : Common srv t) (hp : Plain srv t.exchange) (hun : Unanswered t.exchange)
    (hcar : Carried t) (hs : t.world.socket ≠ .closed) (hr : t.exchange.requests = [r])
    (hq : Waiting srv t ∧ (t.itsKeepAlive = true → t.world.shutdownRequested = false) ∧
        (∀ st ∈ untrusted srv, m ≠ .stock st) ∨
      Unarmed t ∧ t.exchange.dispatched ≠ [])
    (hm : m = .options ∨ ∃ st, m = .stock st) (hst : t.itsResponse.status.isSome)
    (hopt : m = .options → t.itsResponse.status = srv.spine.stockOptionsResponse.status)
    (hframes : m ≠ .options →
      (∀ h, t.exchange.handled = some h → h.getHeader "Transfer-Encoding".toList = none) →
      t.itsResponse.Frames t.itsResponse.getContent) :
    Inv srv (sendSimpleReply srv a m t) := by
  obtain ⟨w, e, k, hin, hkk, -, heq⟩ := sendSimpleReply_cases srv a (m := m) hst
  obtain ⟨extra, f, hx, hsend⟩ := hin.current
  have hni : m ≠ .interim := by
    rcases hm with rfl | ⟨st, rfl⟩ <;> simp
  have hplain : Plain srv (current w.trace) := by
    rw [hx]
    refine hp.reply srv hm hsend.message (fun _ => hun) ?_
    intro hdis st hst' hms
    rcases hq with ⟨-, -, hnot⟩ | ⟨-, hd⟩
    · exact absurd hms (hnot st hst')
    · exact absurd hdis hd
  have hc' : Common srv { t with world := w } :=
    hc.inWorld srv hin.outstanding hin.waits hin.closed hin.past
  have hun' : Unarmed t → Unarmed { t with world := w } := by
    intro hu
    show ∀ x ∈ w.waits, _
    rw [hin.waits]
    exact hu
  have hdis : (current w.trace).dispatched = t.exchange.dispatched := by
    rw [hx]
    rfl
  rw [heq]
  cases k with
  | false =>
    have hcl : Common srv { t with world := w.close } :=
      hc.inWorld srv hin.outstanding hin.waits (fun _ => rfl) hin.past
    refine inv_over srv (hcl.update srv rfl) ⟨hplain.sound, hplain.complete, ?_⟩
    rcases hq with ⟨hw, -⟩ | ⟨hu, hd⟩
    · left
      refine ⟨⟨hplain, hdis.trans hw.direct.dispatched, ?_⟩, fun h => absurd rfl h⟩
      show (current w.trace).handled = none
      rw [hx]
      exact hw.direct.handled
    · right
      refine ⟨hun' hu, ?_⟩
      show (current w.trace).dispatched ≠ []
      rw [hdis]
      exact hd
  | true =>
    have hx' : (t.replied w e true).exchange = t.exchange.reply m t.itsResponse
        (srv.spine.headerSection t.itsResponse) extra f := hx
    have hsent : (t.replied w e true).exchange.failed = false →
        (t.replied w e true).exchange.out =
          srv.spine.headerSection t.itsResponse ++ t.itsResponse.getContent := by
      rw [hx']
      exact fun hf => (out_reply hun hni hsend.message).trans (hsend.exact hf).1
    have hheads : (t.replied w e true).exchange.heads =
        [(m, t.itsResponse, srv.spine.headerSection t.itsResponse)] := by
      rw [hx']
      show t.exchange.heads ++ _ = _
      rw [hun.1]
      rfl
    refine inv_finishResponse srv (hc'.update srv rfl) ?_ hcar.received hcar.pendingHeaders ?_
    · intro _
      have hplain' : Plain srv (t.replied w e true).exchange := hplain
      refine ⟨hplain'.sound, hplain'.complete, ?_, hplain'.refused,
        fun _ _ _ hpath => absurd hplain'.path hpath, ?_, ?_, ?_, ?_, ?_, ?_⟩
      · show (current w.trace).requests.length = 1
        rw [hx]
        show t.exchange.requests.length = 1
        rw [hr]
        rfl
      · rintro ⟨hd, st, hst', p, hp, hps⟩
        have hp' : p ∈ (current w.trace).heads := hp
        rw [hx] at hp'
        have hp'' : p ∈ t.exchange.heads ++ [(m, t.itsResponse, _)] := hp'
        rw [hun.1, List.nil_append] at hp''
        obtain rfl := List.mem_singleton.mp hp''
        rcases hq with ⟨-, -, hnot⟩ | ⟨-, hd'⟩
        · exact hnot st hst' hps
        · exact hd' (hdis.symm.trans hd)
      · rw [hplain'.path]
        simp
      · intro hp
        rw [hplain'.path] at hp
        cases hp
      · intro hp
        rw [hplain'.path] at hp
        cases hp
      · intro hf p hp
        rw [hheads] at hp
        rw [List.mem_singleton.mp hp, hsent hf]
        exact List.prefix_append _ _
      · refine ⟨m, t.itsResponse, srv.spine.headerSection t.itsResponse, hheads, hopt, ?_⟩
        intro hprop
        refine ⟨rfl, t.itsResponse.getContent, hsent hprop.failed, hframes hprop.options ?_⟩
        rw [hx'] at hprop
        refine hprop.plain ?_
        show t.exchange.path ≠ _
        rw [hp.path]
        simp
    · intro hmay
      rcases hq with ⟨-, hk, -⟩ | ⟨hu, hd⟩
      · -- nothing else keeps an accepted request from being answered persistently
        have hto : t.hasTimedOut = false := by
          cases h : t.hasTimedOut with
          | false => rfl
          | true => exact absurd (hc.timedOut h) hs
        have hsd : w.shutdownRequested = false := hin.shutdownRequested.trans (hk (hkk rfl))
        unfold mayReuse replied at hmay
        simp [hto, hsd] at hmay
      · refine ⟨hplain.sound, hplain.complete, Or.inr ⟨hun' hu, ?_⟩⟩
        show (current w.trace).dispatched ≠ []
        rw [hdis]
        exact hd

/-- The stock replies of routing. -/
theorem Routing.inv_sendStockReply {t : AsyncConnection} (h : Routing srv t)
    (hc : Common srv t) {st : Status} (hst : st ∉ untrusted srv) :
    Inv srv (sendStockReply srv a st t) := by
  obtain ⟨r, hr, -⟩ := h.request
  have hstock := isStock_stockResponse srv a st t
  have hblank := h.blank h.socket
  refine inv_serverReply srv a (r := r) (hc.update srv rfl) h.direct.toPlain (h.live h.socket)
    ⟨h.received, h.pendingHeaders⟩ h.socket hr ?_ (Or.inr ⟨st, rfl⟩)
    (stockResponse_status srv a st t) (fun hm => by cases hm) ?_
  · refine Or.inl ⟨⟨h.direct, h.live⟩, ?_, ?_⟩
    · exact fun hk => h.shutdown (keepAlive_of_stockResponse srv a hk)
    · intro st' hst' heq
      obtain rfl := Message.stock.inj heq
      exact hst hst'
  · intro _ _
    refine Or.inr ⟨?_, ?_⟩
    · rw [hstock.transferEncoding, hblank.response]
      rfl
    · rw [hstock.contentLength, hstock.getContent]

theorem Routing.agree {t u : AsyncConnection} (h : Routing srv t) (hu : Agree t u) :
    Routing srv u := by
  refine ⟨h.toQueued.agree srv hu, ?_, ?_⟩
  · rw [hu.world]
    exact h.socket
  · rw [hu.world, hu.keepAlive]
    exact h.shutdown

theorem Routing.inv_scheduleRequest {view : HandlerView} {t : AsyncConnection}
    (h : Routing srv t) (hc : Common srv t) :
    Inv srv (scheduleRequest srv a view t) := by
  unfold scheduleRequest
  split
  · dsimp only
    split
    · exact inv_await srv (hc.update srv rfl) (h.toQueued.agree srv (.of rfl))
    · refine Routing.inv_sendStockReply srv a ?_ ?_ (serviceUnavailable_not_untrusted srv)
      · exact h.agree srv (.of rfl)
      · exact hc.update srv rfl
  · dsimp only
    split
    · exact inv_await srv (hc.update srv rfl) (h.toQueued.agree srv (.of rfl))
    · refine Routing.inv_sendStockReply srv a ?_ ?_ (highLoad_not_untrusted srv)
      · exact h.agree srv (.of rfl)
      · exact hc.update srv rfl

theorem Routing.inv_routeRequest {t : AsyncConnection} (h : Routing srv t)
    (hc : Common srv t) : Inv srv (routeRequest srv a t) := by
  unfold routeRequest
  split
  · -- OPTIONS *
    let u := setServerHeaders srv a { t with itsResponse := srv.spine.stockOptionsResponse }
    have hbody := sameBody_setServerHeaders srv a
      { t with itsResponse := srv.spine.stockOptionsResponse }
    have hcu : Common srv u := (hc.update srv rfl)
    cases hst : srv.spine.stockOptionsResponse.status with
    | none =>
      have hnone : headersToString srv.spine u.itsResponse = none := by
        unfold headersToString
        rw [if_neg]
        rw [hbody.status]
        simp [hst]
      show Inv srv (sendSimpleReply srv a .options u)
      unfold sendSimpleReply
      rw [hnone]
      exact inv_over srv hcu ⟨h.direct.sound, h.direct.complete, Or.inl ⟨h.direct, h.live⟩⟩
    | some st =>
      obtain ⟨r, hr, -⟩ := h.request
      refine inv_serverReply srv a (t := u) (r := r) hcu h.direct.toPlain (h.live h.socket)
        ⟨h.received, h.pendingHeaders⟩ h.socket hr ?_ (Or.inl rfl) ?_ (fun _ => hbody.status) ?_
      · refine Or.inl ⟨⟨h.direct, h.live⟩, ?_, fun _ _ hm => by cases hm⟩
        intro hk
        have hk' := keepAlive_of_setServerHeaders srv a hk
        exact h.shutdown hk'
      · rw [hbody.status]
        simp [hst]
      · exact fun hne => absurd rfl hne
  · cases srv.spine.getHandlerView t.itsRequest with
    | none => exact h.inv_sendStockReply srv a hc (notFound_not_untrusted srv)
    | some view =>
      dsimp only
      split
      · refine Routing.inv_sendStockReply srv a ?_ ?_ (highLoad_not_untrusted srv)
        · exact h.agree srv (.of rfl)
        · exact hc.update srv rfl
      · refine Routing.inv_scheduleRequest srv a ?_ ?_
        · exact h.agree srv (.of rfl)
        · exact hc.update srv rfl

/-! ## A parsed request -/

/-- A shutdown, among others, ends the persistence. -/
theorem shutdown_of_evaluateKeepAlive {s : AsyncConnection}
    (h : evaluateKeepAlive srv s = true) : s.world.shutdownRequested = false := by
  unfold evaluateKeepAlive at h
  cases hs : s.world.shutdownRequested with
  | false => rfl
  | true =>
    rw [hs] at h
    split at h
    · cases h
    · simp at h

theorem Reading.inv_handleParsedRequest {t : AsyncConnection} (h : Reading srv t)
    (hc : Common srv t) :
    Inv srv (handleParsedRequest srv a t) := by
  let s := t.emit (.parsed t.itsRequest)
  have hd : Direct srv s.exchange := by
    refine ⟨⟨?_, h.direct.path, h.direct.chunks, h.direct.ended, h.direct.refused,
      h.direct.heads, h.direct.wire, h.direct.ordered, h.direct.closing⟩, h.direct.dispatched,
      h.direct.handled⟩
    show (t.exchange.requests ++ [t.itsRequest]).length ≤ 1
    rw [h.requests]
    exact Nat.le_refl _
  have hr : s.exchange.requests = [t.itsRequest] := by
    show t.exchange.requests ++ [t.itsRequest] = _
    rw [h.requests]
    rfl
  have hw : Waiting srv s := ⟨hd, fun hs => ⟨(h.live hs).1, (h.live hs).2⟩⟩
  have hcs : Common srv s := hc.emit srv (by simp)
  unfold handleParsedRequest
  dsimp only
  cases hip : resolveClientIP srv a s with
  | none =>
    have hdu : Direct srv (s.emit .peerUnknown).exchange :=
      ⟨⟨hd.one_request, hd.path, hd.chunks, hd.ended, hd.refused, hd.heads, hd.wire, hd.ordered,
        hd.closing⟩, hd.dispatched, hd.handled⟩
    have hwu : Waiting srv (s.emit .peerUnknown) :=
      ⟨hdu, fun hs => ⟨(hw.live hs).1, (hw.live hs).2⟩⟩
    exact inv_over srv (hcs.emit srv (by simp)) ⟨hdu.sound, hdu.complete, Or.inl hwu⟩
  | some u =>
    have hsock : t.world.socket ≠ .closed := by
      intro hcl
      unfold resolveClientIP at hip
      rw [if_pos (by exact hcl)] at hip
      cases hip
    obtain ⟨ip, rfl⟩ : ∃ ip, u = { s with itsRequest.clientIP := ip } := by
      unfold resolveClientIP at hip
      rw [if_neg (by exact hsock)] at hip
      cases hp : a.peer with
      | none =>
        rw [hp] at hip
        cases hip
      | some peer =>
        rw [hp] at hip
        exact ⟨_, (Option.some.inj hip).symm⟩
    dsimp only
    split
    · exact inv_refuse srv a (hcs.update srv rfl)
        ⟨hw.direct, hw.live⟩ rfl
    · have hb := h.blank hsock
      refine Routing.inv_routeRequest srv a ?_
        (hcs.update srv rfl)
      refine ⟨⟨⟨hw.direct, hw.live⟩, ⟨h.received, h.pendingHeaders⟩, ⟨t.itsRequest, hr, rfl⟩,
        fun _ => ⟨hb.response, hb.responseString, hb.sentBytes, hb.streamedBytes, hb.failed⟩⟩,
        hsock, ?_⟩
      intro hk
      have hk' := shutdown_of_evaluateKeepAlive srv (show evaluateKeepAlive srv _ = true from hk)
      exact hk'

/-! ## An incomplete request -/

/-- The interim response leaves a connection that reads, unless it fails. -/
theorem Reading.interim {t : AsyncConnection} (h : Reading srv t) (hc : Common srv t)
    (reply : Bytes) (o : WriteOutcome) :
    Common srv (write .interim reply o t) ∧ Waiting srv (write .interim reply o t) ∧
      (t.world.writeFails reply o = false → Reading srv (write .interim reply o t)) := by
  have hdel := t.world.write_delivers .interim reply o
  obtain ⟨extra, f, hx, hm, -, -, hsock⟩ := hdel.current
  have hx' : (write .interim reply o t).exchange = { t.exchange with
      wire := t.exchange.wire ++ extra, failed := f } := hx
  have hcl : t.world.socket = .closed → (write .interim reply o t).world.socket = .closed := by
    intro hcl
    rcases hdel.socket with hw | ⟨hw, -⟩
    · exact hw.trans hcl
    · rw [hcl] at hw
      cases hw
  have hd : Direct srv (write .interim reply o t).exchange := by
    rw [hx']
    refine ⟨⟨h.direct.one_request, h.direct.path, h.direct.chunks, h.direct.ended,
      h.direct.refused, h.direct.heads, ?_, ?_, h.direct.closing⟩, h.direct.dispatched,
      h.direct.handled⟩
    · intro p hp
      rcases List.mem_append.mp hp with hp | hp
      · exact h.direct.wire p hp
      · rw [hm p hp]
        simp
    · by_cases hcl : t.world.socket = .closed
      · show Ordered (t.exchange.wire ++ extra)
        rw [hsock (by rw [hcl]; simp), List.append_nil]
        exact h.direct.ordered
      · refine ordered_of_interim ?_
        intro p hp
        rcases List.mem_append.mp hp with hp | hp
        · exact (h.live hcl).2 p hp
        · exact hm p hp
  have hw : Waiting srv (write .interim reply o t) := by
    refine ⟨hd, ?_⟩
    intro hs
    have hs' : t.world.socket ≠ .closed := fun hs' => hs (hcl hs')
    rw [hx']
    refine ⟨(h.live hs').1, ?_⟩
    intro p hp
    rcases List.mem_append.mp hp with hp | hp
    · exact (h.live hs').2 p hp
    · exact hm p hp
  refine ⟨hc.inWorld srv hdel.outstanding hdel.waits hcl hdel.past, hw, ?_⟩
  · intro herr
    obtain ⟨hf, hsw⟩ := World.failed_of_not_writeFails (m := .interim) herr
    refine ⟨hw, ⟨h.received, h.pendingHeaders⟩, h.keepAlive, ?_, ?_⟩
    · rw [hx']
      exact h.requests
    · intro hs
      have hb := h.blank (fun hs' => hs (hsw.trans hs'))
      exact ⟨hb.response, hb.responseString, hb.sentBytes, hb.streamedBytes, hf.trans hb.failed⟩

/-- More is read, whatever was found of an `Expect` field. -/
theorem Reading.inv_startRead {t : AsyncConnection} (h : Reading srv t)
    (hc : Common srv t) (b : Bool) :
    Inv srv (startRead { t with itsExpectHandled := b }) := by
  exact inv_await srv (hc.update srv rfl) (h.agree srv (.of rfl))

theorem Reading.inv_handleIncompleteRequest {t : AsyncConnection} (h : Reading srv t)
    (hc : Common srv t) :
    Inv srv (handleIncompleteRequest srv a t) := by
  unfold handleIncompleteRequest
  split
  · exact inv_refuse srv a (hc.update srv rfl)
      ⟨h.direct, h.live⟩ rfl
  unfold handleExpectContinue
  split
  · exact h.inv_startRead srv hc t.itsExpectHandled
  dsimp only
  split
  · exact h.inv_startRead srv hc t.itsExpectHandled
  split
  · exact h.inv_startRead srv hc true
  split
  · exact h.inv_startRead srv hc true
  split
  · -- the interim response
    let reply := "HTTP/1.1 100 Continue\r\n\r\n".toList
    obtain ⟨hcw, hw, hread⟩ := h.interim srv hc reply a.interimWrite
    cases herr : t.world.writeFails reply a.interimWrite with
    | true =>
      exact inv_over srv (hcw.update srv rfl)
        ⟨hw.direct.sound, hw.direct.complete, Or.inl ⟨hw.direct, hw.live⟩⟩
    | false =>
      exact (hread herr).inv_startRead srv hcw true
  · exact inv_refuse srv a (hc.update srv rfl)
      ⟨h.direct, h.live⟩ rfl

/-! ## Bytes of the client -/

/-- The swap of the timer at the first bytes of a request. -/
theorem Reading.armTimer {t : AsyncConnection} (h : Reading srv t) (n : ℕ) :
    Reading srv (armTimer n t) :=
  ⟨⟨h.direct, h.live⟩, ⟨h.received, h.pendingHeaders⟩, h.keepAlive, h.requests,
    fun hs => ⟨(h.blank hs).1, (h.blank hs).2, (h.blank hs).3, (h.blank hs).4, (h.blank hs).5⟩⟩

theorem Reading.leaveIdle {t : AsyncConnection} (h : Reading srv t) (hc : Common srv t) :
    Reading srv (leaveIdle srv t) ∧ Common srv (leaveIdle srv t) := by
  have h' : Reading srv { t with itsIdle := false } := h.agree srv (.of rfl)
  have hc' : Common srv { t with itsIdle := false } := hc.update srv rfl
  unfold AsyncConnection.leaveIdle
  split
  · exact ⟨h'.armTimer srv _, hc'.armTimer srv _⟩
  · exact ⟨h', hc'⟩

theorem Reading.inv_parseBuffer {t : AsyncConnection} (h : Reading srv t)
    (hc : Common srv t) : Inv srv (parseBuffer srv a t) := by
  unfold parseBuffer
  split
  · refine Reading.inv_handleParsedRequest srv a ?_
      (hc.update srv rfl)
    exact ⟨⟨h.direct, h.live⟩, ⟨rfl, h.pendingHeaders⟩, h.keepAlive, h.requests,
      fun hs => ⟨(h.blank hs).1, (h.blank hs).2, (h.blank hs).3, (h.blank hs).4, (h.blank hs).5⟩⟩
  · exact inv_refuse srv a hc h.toWaiting h.keepAlive
  · exact h.inv_handleIncompleteRequest srv a hc

theorem Reading.inv_handleReadBytes {bytes : Bytes} {t : AsyncConnection} (h : Reading srv t)
    (hc : Common srv t) :
    Inv srv (handleReadBytes srv a bytes t) := by
  obtain ⟨h', hc'⟩ := h.leaveIdle srv hc
  unfold handleReadBytes
  dsimp only
  split
  · exact inv_refuse srv a
      (hc'.update srv rfl)
      ⟨h'.direct, h'.live⟩ h'.keepAlive
  · refine Reading.inv_parseBuffer srv a ?_
      (hc'.update srv rfl)
    refine ⟨⟨h'.direct, h'.live⟩, ⟨?_, h'.pendingHeaders⟩, h'.keepAlive, h'.requests,
      fun hs => ⟨(h'.blank hs).1, (h'.blank hs).2, (h'.blank hs).3, (h'.blank hs).4,
        (h'.blank hs).5⟩⟩
    show (AsyncConnection.leaveIdle srv t).itsReceivedBytes + bytes.length = _
    rw [h'.received, List.length_append]

theorem Reading.inv_handleRead {e : ErrorCode} {bytes : Bytes} {t : AsyncConnection}
    (h : Reading srv t) (hc : Common srv t) :
    Inv srv (handleRead srv a e bytes t) := by
  have h' : Reading srv { t with itsFinalStatus := e } := h.agree srv (.of rfl)
  have hc' : Common srv { t with itsFinalStatus := e } := hc.update srv rfl
  unfold handleRead
  split
  · exact inv_refuse srv a hc h.toWaiting h.keepAlive
  · dsimp only
    split
    · exact h'.inv_handleReadBytes srv a hc'
    · exact inv_over srv (hc'.emit srv (by simp))
        ⟨h'.direct.sound, h'.direct.complete, Or.inl ⟨h'.direct, h'.live⟩⟩

end AsyncConnection

end SmartMet
