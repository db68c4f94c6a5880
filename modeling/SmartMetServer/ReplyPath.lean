/-
# The reply paths of a handler's response

From the handler to the end of its response: `startReply` chooses a path, the
chunk getters and the completion handlers of the writes alternate until the
response is over, and every function keeps the invariant.

What a path still has to send is the argument `unsent` of its predicate.  It is
the pending header section between two functions, and the buffer of a write.
-/
import SmartMetServer.ReadPath

namespace SmartMet

open ChunkedCoding Exchange

/-! ## Framing fields -/

namespace AsyncConnection

variable (srv : Server) (a : Answers)

/-- The changes of `startRegularReply` before the framing fields are set leave
the status and the transfer coding alone. -/
structure SameFraming (r r' : Response) : Prop where
  status : r'.status = r.status
  transferEncoding : r'.getHeader "Transfer-Encoding".toList
    = r.getHeader "Transfer-Encoding".toList
  content : r.hasStreamContent = false → r'.hasStreamContent = false

/-- Two changes in a row. -/
theorem SameFraming.trans {r₁ r₂ r₃ : Response} (h : SameFraming r₁ r₂)
    (h' : SameFraming r₂ r₃) : SameFraming r₁ r₃ :=
  ⟨h'.status.trans h.status, h'.transferEncoding.trans h.transferEncoding,
    fun hs => h'.content (h.content hs)⟩

/-- Any field but the transfer coding may be set. -/
theorem SameFraming.setHeader (r : Response) {name : Bytes} (v : Bytes)
    (h : asciiToLower "Transfer-Encoding".toList ≠ asciiToLower name) :
    SameFraming r (r.setHeader name v) :=
  ⟨rfl, HeaderMap.get_set_of_ne _ _ h, fun hs => hs⟩

/-- So is the content coding chosen, -/
theorem sameFraming_encodeResponse (request : Request) (r : Response) :
    SameFraming r (encodeResponse srv request r) := by
  have hce : asciiToLower "Transfer-Encoding".toList ≠ asciiToLower "Content-Encoding".toList := by
    decide
  have het : asciiToLower "Transfer-Encoding".toList ≠ asciiToLower "ETag".toList := by decide
  unfold encodeResponse
  split
  · dsimp only
    split
    · exact ⟨rfl, rfl, fun hs => hs⟩
    · unfold compressResponse
      dsimp only
      split
      · refine ⟨rfl, ?_, fun _ => rfl⟩
        exact (HeaderMap.get_set_of_ne _ _ het).trans (HeaderMap.get_set_of_ne _ _ hce)
      · exact ⟨rfl, HeaderMap.get_set_of_ne _ _ hce, fun _ => rfl⟩
  · exact ⟨rfl, rfl, fun hs => hs⟩

/-- and the tag of a 304 put in. -/
theorem sameFraming_echoETag (request : Request) (r : Response) :
    SameFraming r (echoETag srv request r) := by
  have het : asciiToLower "Transfer-Encoding".toList ≠ asciiToLower "ETag".toList := by decide
  unfold echoETag
  split
  · split
    · exact SameFraming.setHeader r _ het
    · exact ⟨rfl, rfl, fun hs => hs⟩
  · exact ⟨rfl, rfl, fun hs => hs⟩

/-- The framing fields are set under the same status. -/
theorem frameResponse_status (head : Bool) (r : Response) :
    (frameResponse srv head r).status = r.status := by
  unfold frameResponse
  split
  · rfl
  · split
    · rfl
    · rfl

/-- The length of a buffered content is that of its bytes. -/
theorem getContentLength_of_buffer {r : Response} (h : r.hasStreamContent = false) :
    r.getContentLength = r.getContent.length := by
  unfold Response.hasStreamContent at h
  unfold Response.getContentLength Response.getContent
  cases hc : r.content with
  | buffer b => rfl
  | stream n =>
    rw [hc] at h
    cases h

/-- A response with a body is framed by its length. -/
theorem frames_frameResponse {r : Response} (hb : statusHasNoBody r.status = false)
    (ht : r.getHeader "Transfer-Encoding".toList = none) (hs : r.hasStreamContent = false) :
    (frameResponse srv false r).Frames (frameResponse srv false r).getContent := by
  have hne : asciiToLower "Transfer-Encoding".toList ≠ asciiToLower "Content-Length".toList := by
    decide
  unfold frameResponse
  rw [if_neg (by rw [hb]; simp), if_neg (by simp)]
  refine Or.inr ⟨(HeaderMap.get_set_of_ne _ _ hne).trans ht, ?_⟩
  refine (HeaderMap.get_set_self _ _ _).trans ?_
  congr 2
  exact getContentLength_of_buffer hs

/-- The header section is that of the response `renderHeaders` settles on. -/
theorem renderHeaders_snd (r : Response) :
    (renderHeaders srv r).2 = srv.spine.headerSection (renderHeaders srv r).1 := by
  unfold renderHeaders headersToString
  cases h : r.status.isSome with
  | true => rfl
  | false => rfl

/-- A response whose status is set is rendered as it is. -/
theorem renderHeaders_fst {r : Response} (h : r.status.isSome) :
    (renderHeaders srv r).1 = r := by
  unfold renderHeaders headersToString
  rw [if_pos h]

/-- A status that was left unset brings the page of 501. -/
theorem renderHeaders_unset {r : Response} (h : r.status = none) :
    (renderHeaders srv r).1 = r.setStatus srv.spine .notImplemented := by
  unfold renderHeaders headersToString
  rw [h]
  rfl

/-- No field of a response is changed. -/
theorem renderHeaders_getHeader (r : Response) (name : Bytes) :
    (renderHeaders srv r).1.getHeader name = r.getHeader name := by
  unfold renderHeaders headersToString
  cases h : r.status.isSome with
  | true => rfl
  | false => rfl

/-! ## What is sent of a response -/

/-- A reply path with the bytes it has still to send. -/
def Body (t : AsyncConnection) (unsent : Bytes) : Prop :=
  Regular srv t unsent ∨ Streaming srv t unsent ∨ Chunking srv t unsent ∨
    Finalizing srv t unsent

/-- What the paths have in common: sent and unsent bytes are the header section
and the body. -/
structure BodyFacts (x : Exchange) (unsent : Bytes) : Prop where
  one_head : ∀ p ∈ x.heads.tail, p.1 ≠ .handler
  headed : Headed x
  gateway : x.path = some .gateway → x.headBytes = []
  streamed : x.path = some .stream ∨ x.path = some .gateway →
    x.handlerBytes ++ unsent = x.headBytes ++ x.chunks.flatten
  chunked : x.path = some .chunked → x.handlerBytes ++ unsent =
    x.headBytes ++ (encode x.chunks ++ if x.ended = some .exitOk then lastChunk else [])
  head : ∀ r ∈ x.requests, r.method = .head → x.handlerBytes ++ unsent = x.headBytes

/-- A request that is not a HEAD. -/
theorem Answering.method_ne {t : AsyncConnection} (h : Answering t)
    (hm : t.itsHeadRequest = false) : ∀ r ∈ t.exchange.requests, r.method ≠ .head := by
  obtain ⟨q, hq, hh⟩ := h.request
  intro r hr
  rw [hq] at hr
  obtain rfl := List.mem_singleton.mp hr
  rw [hm] at hh
  exact of_decide_eq_false hh.symm

/-- Behind the header section of a chunked reply come stock replies only. -/
theorem ChunkedHead.tail {t : AsyncConnection} (h : ChunkedHead srv t) :
    ∀ p ∈ t.exchange.heads.tail, p.1 ≠ .handler := by
  obtain ⟨r, head, hh, -⟩ := h
  rw [hh]
  intro p hp
  cases hp

/-- The reply has its header section. -/
theorem ChunkedHead.headed {t : AsyncConnection} (h : ChunkedHead srv t) :
    Headed t.exchange := by
  obtain ⟨r, head, hh, -⟩ := h
  exact fun _ _ => ⟨r, head, [], hh⟩

/-- Each path with bytes to send has the facts the paths have in common. -/
theorem Body.facts {t : AsyncConnection} {unsent : Bytes} (h : Answering t)
    (hb : Body srv t unsent) : BodyFacts t.exchange unsent := by
  -- one case for each way of sending a body: whole, as a stream, in chunks, at the last chunk
  rcases hb with hr | hs | hc | hf
  · obtain ⟨head, body, hh, hbytes, hhead, -⟩ := hr.bytes
    refine ⟨?_, fun _ _ => ⟨_, head, [], hh⟩, ?_, ?_, ?_, ?_⟩
    · rw [hh]
      intro p hp
      cases hp
    · intro hp
      rw [hr.path] at hp
      cases hp
    · rintro (hp | hp)
      · rw [hr.path] at hp
        cases hp
      · rw [hr.path] at hp
        cases hp
    · intro hp
      rw [hr.path] at hp
      cases hp
    · intro r hrm hm
      obtain ⟨q, hq, hqh⟩ := h.request
      rw [hq] at hrm
      obtain rfl := List.mem_singleton.mp hrm
      rw [hbytes, hhead (by rw [hqh]; exact decide_eq_true hm), List.append_nil,
        headBytes_of_heads hh]
  · refine ⟨?_, ?_, ?_, fun _ => hs.bytes, ?_, ?_⟩
    · rcases hs.path with hp | hp
      · obtain ⟨r, head, hh, -⟩ := hs.stream hp
        rw [hh]
        intro p hp
        cases hp
      · rw [(hs.gateway hp).2]
        intro p hp
        cases hp
    · intro _ hg
      obtain ⟨r, head, hh, -⟩ := hs.stream (hs.path.resolve_right hg)
      exact ⟨r, head, [], hh⟩
    · intro hp
      unfold headBytes
      rw [(hs.gateway hp).2]
      rfl
    · intro hp
      rcases hs.path with hp' | hp'
      · rw [hp'] at hp
        cases hp
      · rw [hp'] at hp
        cases hp
    · intro r hr hm
      exact absurd hm (h.method_ne hs.method r hr)
  · refine ⟨hc.head.tail srv, hc.head.headed srv, ?_, ?_, ?_, ?_⟩
    · intro hp
      rw [hc.path] at hp
      cases hp
    · rintro (hp | hp)
      · rw [hc.path] at hp
        cases hp
      · rw [hc.path] at hp
        cases hp
    · intro _
      rw [if_neg hc.ended, List.append_nil]
      exact hc.bytes
    · intro r hr hm
      exact absurd hm (h.method_ne hc.method r hr)
  · refine ⟨hf.head.tail srv, hf.head.headed srv, ?_, ?_, ?_, ?_⟩
    · intro hp
      rw [hf.path] at hp
      cases hp
    · rintro (hp | hp)
      · rw [hf.path] at hp
        cases hp
      · rw [hf.path] at hp
        cases hp
    · intro _
      rw [hf.ended, if_pos rfl]
      exact hf.bytes
    · intro r hr hm
      exact absurd hm (h.method_ne hf.method r hr)

/-- A prefix of what is unsent keeps the sent bytes a prefix of the whole. -/
theorem prefix_of_unsent {sent extra unsent whole : Bytes} (h : sent ++ unsent = whole)
    (hp : extra <+: unsent) : sent ++ extra <+: whole := by
  rw [← h]
  exact (List.prefix_append_right_inj sent).mpr hp

/-- **Soundness while a response is sent**, and when sending has failed. -/
theorem Answering.sound {t : AsyncConnection} {unsent : Bytes} (h : Answering t)
    (hb : BodyFacts t.exchange unsent) {extra : List (Message × Bytes)} {f : Bool}
    (hx : ∀ p ∈ extra, p.1 = .handler) (hp : extra.flatMap Prod.snd <+: unsent)
    (hf : f = true → t.exchange.path = some .chunked → t.exchange.ended = some .exitOk →
      extra = [] ∧ unsent ≠ []) :
    Sound srv (t.exchange.send extra f) := by
  have hwire : ∀ p ∈ t.exchange.wire ++ extra, p.1 = .handler ∨ p.1 = .interim := by
    intro p hp
    rcases List.mem_append.mp hp with hp | hp
    · exact h.wire p hp
    · exact Or.inl (hx p hp)
  refine ⟨?_, ?_, hb.one_head, hb.headed, fun hr => absurd (h.refused.symm.trans hr) (by simp),
    hb.gateway, ?_, ?_, ?_, ?_, ?_, ?_, ?_⟩
  · obtain ⟨r, hr, -⟩ := h.request
    show t.exchange.requests.length ≤ 1
    rw [hr]
    exact Nat.le_refl _
  · refine h.ordered.append ?_ hx
    intro p hp
    rcases h.wire p hp with hm | hm
    · exact Or.inr hm
    · left
      rw [hm]
      exact Nat.zero_lt_one
  · intro hpath
    rw [handlerBytes_send hx]
    exact prefix_of_unsent (hb.streamed hpath) hp
  · intro hpath
    rw [handlerBytes_send hx]
    exact prefix_of_unsent (hb.chunked hpath) hp
  · intro hpath hfail heq
    rw [handlerBytes_send hx] at heq
    have hpath' : t.exchange.path = some .chunked := hpath
    have hall := hb.chunked hpath'
    by_cases he : t.exchange.ended = some .exitOk
    · -- the last chunk was on its way, and nothing of it was sent
      obtain ⟨rfl, hne⟩ := hf hfail hpath' he
      rw [if_pos he] at hall
      have hl := congrArg List.length heq
      have hl' := congrArg List.length hall
      have hpos := List.length_pos_iff.mpr hne
      simp only [List.flatMap_nil, List.append_nil, headBytes_send, List.length_append] at hl hl'
      have hch : (t.exchange.send [] f).chunks = t.exchange.chunks := rfl
      rw [hch] at hl
      omega
    · rw [if_neg he, List.append_nil] at hall
      have hpre := prefix_of_unsent hall hp
      have hl := congrArg List.length heq
      have hl' := hpre.length_le
      simp only [headBytes_send, List.length_append] at hl hl'
      have hch : (t.exchange.send extra f).chunks = t.exchange.chunks := rfl
      have hlast : lastChunk.length = 5 := rfl
      rw [hch] at hl
      omega
  · intro hr
    exact absurd (h.refused.symm.trans hr) (by simp)
  · intro _ hne
    exact absurd (serverBytes_eq_nil hwire) hne
  · intro r hr hm
    rw [handlerBytes_send hx]
    exact prefix_of_unsent (hb.head r hr hm) hp
  · intro hd
    exact absurd hd h.dispatched

/-- Nothing is sent. -/
theorem send_nil (x : Exchange) : x.send [] x.failed = x := by
  unfold send
  rw [List.append_nil]

/-- What was sent so far is sound. -/
theorem Answering.sound_self {t : AsyncConnection} {unsent : Bytes} (h : Answering t)
    (hb : BodyFacts t.exchange unsent) : Sound srv t.exchange := by
  have hx : ∀ p ∈ ([] : List (Message × Bytes)), p.1 = .handler := by
    intro p hp
    cases hp
  have hs := h.sound srv hb (f := t.exchange.failed) hx List.nil_prefix fun hf _ _ =>
    absurd (h.failed.symm.trans hf) (by simp)
  rwa [send_nil] at hs

/-! ## More bytes are sent -/

/-- The state after some bytes of the response were sent. -/
structure Sent (t u : AsyncConnection) (extra : List (Message × Bytes)) : Prop where
  handler : ∀ p ∈ extra, p.1 = .handler
  exchange : u.exchange = t.exchange.send extra t.exchange.failed
  waits : u.world.waits = t.world.waits
  generation : u.itsTimerGeneration = t.itsTimerGeneration
  buffer : u.itsBuffer = t.itsBuffer
  received : u.itsReceivedBytes = t.itsReceivedBytes
  headRequest : u.itsHeadRequest = t.itsHeadRequest
  keepAlive : u.itsKeepAlive = t.itsKeepAlive
  streamedBytes : u.itsTotalStreamedBytes = t.itsTotalStreamedBytes
  declared : u.itsDeclaredContentLength = t.itsDeclaredContentLength
  response : u.itsResponse = t.itsResponse

section Sent

variable {t u : AsyncConnection} {extra : List (Message × Bytes)} {unsent rest : Bytes}
  (hs : Sent t u extra)
include hs

/-- The exchange is still being answered. -/
theorem Answering.sent (h : Answering t) : Answering u := by
  refine ⟨?_, ?_, ?_, ?_, ?_, ?_, ?_, ?_, ?_⟩
  · show ∀ w ∈ u.world.waits, _
    rw [hs.waits, hs.generation]
    exact h.unarmed
  · rw [hs.received, hs.buffer]
    exact h.received
  · rw [hs.exchange, hs.headRequest]
    exact h.request
  · rw [hs.exchange]
    exact h.dispatched
  · rw [hs.exchange]
    exact h.handled
  · rw [hs.exchange]
    exact h.failed
  · rw [hs.exchange]
    exact h.refused
  · rw [hs.exchange]
    intro p hp
    rcases List.mem_append.mp hp with hp | hp
    · exact h.wire p hp
    · exact Or.inl (hs.handler p hp)
  · rw [hs.exchange]
    refine h.ordered.append ?_ hs.handler
    intro p hp
    rcases h.wire p hp with hm | hm
    · exact Or.inr hm
    · left
      rw [hm]
      exact Nat.zero_lt_one

/-- What is proper of a response does not depend on the bytes sent. -/
theorem Sent.proper {m : Message} {r : Response} (h : Proper u.exchange m r) :
    Proper t.exchange m r := by
  rw [hs.exchange] at h
  exact ⟨h.failed, h.method, h.options, h.body, h.status, h.plain⟩

/-- What was sent and what is left are the same bytes as before. -/
theorem Sent.bytes (he : extra.flatMap Prod.snd ++ rest = unsent) :
    u.exchange.handlerBytes ++ rest = t.exchange.handlerBytes ++ unsent := by
  rw [hs.exchange, handlerBytes_send hs.handler, ← he, List.append_assoc]

/-- A buffered reply has fewer bytes to send, -/
theorem Regular.sent (h : Regular srv t unsent) (he : extra.flatMap Prod.snd ++ rest = unsent) :
    Regular srv u rest := by
  obtain ⟨head, body, hh, hb, hm, hp⟩ := h.bytes
  refine ⟨?_, head, body, ?_, (hs.bytes he).trans hb, ?_, ?_⟩
  · rw [hs.exchange]
    exact h.path
  · rw [hs.exchange, hs.response]
    exact hh
  · rw [hs.headRequest]
    exact hm
  · intro hprop
    have hprop' := hs.proper hprop
    rw [hs.response] at hprop' ⊢
    exact hp hprop'

/-- so has a chunk of a stream, -/
theorem Streaming.sent (h : Streaming srv t unsent)
    (he : extra.flatMap Prod.snd ++ rest = unsent) : Streaming srv u rest := by
  refine ⟨?_, hs.headRequest.trans h.method, ?_, ?_, ?_, ?_⟩
  · rw [hs.exchange]
    exact h.path
  · rw [hs.exchange, hs.streamedBytes]
    exact h.streamedBytes
  · rw [hs.bytes he, hs.exchange]
    exact h.bytes
  · rw [hs.exchange, hs.keepAlive]
    exact h.gateway
  · intro hp
    rw [hs.exchange] at hp
    obtain ⟨r, head, hh, hl, hprop⟩ := h.stream hp
    refine ⟨r, head, ?_, ?_, fun hu => hprop (hs.proper hu)⟩
    · rw [hs.exchange]
      exact hh
    · rw [hs.declared]
      exact hl

/-- a chunked header section stays what it is, -/
theorem ChunkedHead.sent (h : ChunkedHead srv t) : ChunkedHead srv u := by
  obtain ⟨r, head, hh, ht, hl, hprop⟩ := h
  refine ⟨r, head, ?_, ht, hl, fun hu => hprop (hs.proper hu)⟩
  rw [hs.exchange]
  exact hh

/-- a chunk in its coding has fewer bytes to send, -/
theorem Chunking.sent (h : Chunking srv t unsent)
    (he : extra.flatMap Prod.snd ++ rest = unsent) : Chunking srv u rest := by
  refine ⟨?_, hs.headRequest.trans h.method, h.head.sent srv hs, ?_, ?_⟩
  · rw [hs.exchange]
    exact h.path
  · rw [hs.exchange]
    exact h.ended
  · rw [hs.bytes he, hs.exchange]
    exact h.bytes

/-- and so has the last chunk. -/
theorem Finalizing.sent (h : Finalizing srv t unsent)
    (he : extra.flatMap Prod.snd ++ rest = unsent) : Finalizing srv u rest := by
  refine ⟨?_, hs.headRequest.trans h.method, h.head.sent srv hs, ?_, ?_⟩
  · rw [hs.exchange]
    exact h.path
  · rw [hs.exchange]
    exact h.ended
  · rw [hs.bytes he, hs.exchange]
    exact h.bytes

end Sent

/-! ## A response that stops -/

/-- The rest of a handler's response is never sent. -/
theorem Answering.inv_stopped {t u : AsyncConnection} {unsent : Bytes} (h : Answering t)
    (hb : BodyFacts t.exchange unsent) {extra : List (Message × Bytes)} {f : Bool}
    (hx : ∀ p ∈ extra, p.1 = .handler) (hp : extra.flatMap Prod.snd <+: unsent)
    (hend : t.exchange.path = some .chunked → t.exchange.ended ≠ some .exitOk)
    (hu : u.exchange = t.exchange.send extra f) (hc : Common srv u)
    (hw : u.world.waits = t.world.waits) (hg : u.itsTimerGeneration = t.itsTimerGeneration) :
    Inv srv u := by
  refine inv_over srv hc ⟨?_, ?_, Or.inr ⟨?_, ?_⟩⟩
  · rw [hu]
    exact h.sound srv hb hx hp fun _ hpath he => absurd he (hend hpath)
  · rw [hu]
    exact fun hpath he => absurd he (hend hpath)
  · show ∀ w ∈ u.world.waits, _
    rw [hw, hg]
    exact h.unarmed
  · rw [hu]
    exact h.dispatched

/-- The invariant allows a reply to be dropped where it stands. -/
theorem Answering.inv_dropped {t : AsyncConnection} {unsent : Bytes} (h : Answering t)
    (hb : BodyFacts t.exchange unsent) (hc : Common srv t)
    (hend : t.exchange.path = some .chunked → t.exchange.ended ≠ some .exitOk) : Inv srv t :=
  inv_over srv hc ⟨h.sound_self srv hb, fun hpath he => absurd he (hend hpath),
    Or.inr ⟨h.unarmed, h.dispatched⟩⟩

/-! ## Functions that only keep the books -/

/-- Nothing but log events, the completion handler of the response and the
notification of its backend. -/
structure LogOnly (t u : AsyncConnection) : Prop where
  exchange : u.exchange = t.exchange
  past : SmartMet.past u.world.trace = SmartMet.past t.world.trace
  outstanding : u.world.outstanding = t.world.outstanding
  waits : u.world.waits = t.world.waits
  socket : u.world.socket = t.world.socket
  shutdown : u.world.shutdownRequested = t.world.shutdownRequested
  members : ∃ r b w, u =
    { t with itsResponse := r, itsBackendNotified := b, world := w }

/-- Two such parts in a row. -/
theorem LogOnly.trans {t u v : AsyncConnection} (h : LogOnly t u) (h' : LogOnly u v) :
    LogOnly t v := by
  obtain ⟨r, b, w, rfl⟩ := h.members
  obtain ⟨r', b', w', rfl⟩ := h'.members
  exact ⟨h'.exchange.trans h.exchange, h'.past.trans h.past,
    h'.outstanding.trans h.outstanding, h'.waits.trans h.waits, h'.socket.trans h.socket,
    h'.shutdown.trans h.shutdown, r', b', w', rfl⟩

/-- The notification of the backend is such a part, -/
theorem logOnly_notifyBackendFinished (st : StreamerStatus) (t : AsyncConnection) :
    LogOnly t (notifyBackendFinished st t) := by
  unfold notifyBackendFinished
  split
  · exact ⟨rfl, rfl, rfl, rfl, rfl, rfl, t.itsResponse, t.itsBackendNotified, t.world, rfl⟩
  · exact ⟨rfl, rfl, rfl, rfl, rfl, rfl, t.itsResponse, true, _, rfl⟩

/-- and so is the log. -/
theorem logOnly_finalizeStreamLogging (t : AsyncConnection) :
    LogOnly t (finalizeStreamLogging t) := by
  unfold finalizeStreamLogging
  split
  · exact ⟨rfl, rfl, rfl, rfl, rfl, rfl, { t.itsResponse with streamCompletionHandler := false },
      t.itsBackendNotified, _, rfl⟩
  · exact ⟨rfl, rfl, rfl, rfl, rfl, rfl, t.itsResponse, t.itsBackendNotified, t.world, rfl⟩

/-- What the states have in common survives them. -/
theorem Common.logOnly {t u : AsyncConnection} (h : Common srv t) (hl : LogOnly t u) :
    Common srv u := by
  obtain ⟨r, b, w, rfl⟩ := hl.members
  have hc := h.inWorld srv hl.outstanding hl.waits (fun hs => hl.socket.trans hs) hl.past
  exact hc.update srv rfl

/-! ## Scheduling the next chunk -/

/-- A refused getter: the stock reply goes out behind what was sent. -/
theorem Answering.inv_refused {t : AsyncConnection} (h : Answering t)
    (hb : BodyFacts t.exchange []) (hc : Common srv t) (hmethod : t.itsHeadRequest = false)
    (hend : t.exchange.path = some .chunked → t.exchange.ended ≠ some .exitOk) :
    Inv srv (sendStockReply srv a .serviceUnavailable
      { t.emit .refused with itsKeepAlive := false }) := by
  obtain ⟨r, e, w, heq, -, -, hin⟩ := sendStockReply_closing srv a .serviceUnavailable
    (s := { t.emit .refused with itsKeepAlive := false }) rfl
  obtain ⟨extra, f, hx, hs⟩ := hin.current
  rw [heq]
  -- the page of the refusal is written, and the socket is closed
  have hcw : Common srv { t.emit .refused with world := w.close } :=
    (hc.emit srv (by simp)).inWorld srv hin.outstanding hin.waits (fun _ => rfl) hin.past
  let m := Message.stock .serviceUnavailable
  let x := t.exchange.observe .refused
  have hx' : current w.trace = x.reply m r (srv.spine.headerSection r) extra f := hx
  have hne : m ≠ .handler := by simp [m]
  have hbytes : (current w.trace).handlerBytes = t.exchange.handlerBytes := by
    rw [hx']
    exact handlerBytes_reply hne hs.message
  have hhead : (current w.trace).headBytes = t.exchange.headBytes := by
    rw [hx']
    exact headBytes_reply hne
  -- it is the only thing the server itself has sent in this exchange
  have hserver : (current w.trace).serverBytes = extra.flatMap Prod.snd := by
    rw [hx', serverBytes_reply hne (by simp [m]) hs.message,
      show x.serverBytes = [] from serverBytes_eq_nil h.wire]
    rfl
  -- without the end of the stream no last chunk has been sent
  have hsent : t.exchange.path = some .chunked →
      t.exchange.handlerBytes = t.exchange.headBytes ++ encode t.exchange.chunks := by
    intro hp
    have hall := hb.chunked hp
    rw [if_neg (hend hp), List.append_nil, List.append_nil] at hall
    exact hall
  have hpath : (current w.trace).path = t.exchange.path := by
    rw [hx']
    rfl
  have hchunks : (current w.trace).chunks = t.exchange.chunks := by
    rw [hx']
    rfl
  have hended : (current w.trace).ended = t.exchange.ended := by
    rw [hx']
    rfl
  have hdis : (current w.trace).dispatched ≠ [] := by
    rw [hx']
    exact h.dispatched
  refine inv_over srv (hcw.update srv rfl) ⟨?_, ?_, Or.inr ⟨?_, hdis⟩⟩
  · show Sound srv (current w.trace)
    refine ⟨?_, ?_, ?_, ?_, ?_, ?_, ?_, ?_, ?_, ?_, ?_, ?_, fun hd => absurd hd hdis⟩
    · obtain ⟨q, hq, -⟩ := h.request
      rw [hx']
      show t.exchange.requests.length ≤ 1
      rw [hq]
      exact Nat.le_refl _
    · rw [hx']
      refine h.ordered.append ?_ hs.message
      intro p hp
      left
      rcases h.wire p hp with hm | hm
      · rw [hm]
        simp [Message.rank]
      · rw [hm]
        simp [Message.rank]
    · intro p hp
      rw [hx'] at hp
      have hp' : p ∈ (t.exchange.heads ++ [(m, r, srv.spine.headerSection r)]).tail := hp
      cases hheads : t.exchange.heads with
      | nil =>
        rw [hheads] at hp'
        cases hp'
      | cons q l =>
        rw [hheads] at hp'
        rcases List.mem_append.mp hp' with hp' | hp'
        · exact hb.one_head p (by rw [hheads]; exact hp')
        · obtain rfl := List.mem_singleton.mp hp'
          exact hne
    · rw [hx']
      exact Headed.reply (x := x) hb.headed
    · rw [hx']
      exact fun _ => h.method_ne hmethod
    · rw [hpath, hhead]
      exact hb.gateway
    · rw [hpath, hbytes, hhead, hchunks]
      intro hp
      have hall := hb.streamed hp
      rw [List.append_nil] at hall
      exact ⟨[], by rw [hall, List.append_nil]⟩
    · rw [hpath, hbytes, hhead, hchunks, hended]
      intro hp
      have hall := hb.chunked hp
      rw [List.append_nil] at hall
      exact ⟨[], by rw [hall, List.append_nil]⟩
    · rw [hpath, hbytes, hhead, hchunks]
      intro hp _ heq'
      rw [hsent hp] at heq'
      have hl := congrArg List.length heq'
      have hlast : lastChunk.length = 5 := rfl
      simp only [List.length_append] at hl
      omega
    · rw [hpath, hbytes, hhead, hchunks, hended]
      exact fun _ hp => ⟨hend hp, hsent hp⟩
    · intro _ _
      refine ⟨?_, r, r.getContent, ?_⟩
      · rw [hx']
        rfl
      · rw [hserver]
        exact hs.bytes
    · rw [hbytes, hhead]
      intro q hq hm
      rw [hx'] at hq
      have hall := hb.head q hq hm
      rw [List.append_nil] at hall
      exact ⟨[], by rw [hall, List.append_nil]⟩
  · show Complete (current w.trace)
    intro hp he
    rw [hpath] at hp
    rw [hended] at he
    exact absurd he (hend hp)
  · show ∀ x ∈ w.waits, _
    rw [hin.waits]
    exact h.unarmed

/-- A stream whose bytes are all sent goes on with its getter, -/
theorem Answering.inv_scheduleChunkGetter {t : AsyncConnection} (h : Answering t)
    (hp : t.itsPendingHeaders = []) (hb : Streaming srv t []) (hc : Common srv t) :
    Inv srv (scheduleChunkGetter srv a t) := by
  unfold scheduleChunkGetter scheduleGetter
  split
  · exact inv_await srv hc ⟨h, hp, hb⟩
  · refine h.inv_refused srv a (Body.facts srv h (Or.inr (Or.inl hb))) hc hb.method ?_
    intro hp
    rcases hb.path with hp' | hp'
    · rw [hp'] at hp
      cases hp
    · rw [hp'] at hp
      cases hp

/-- and so does a chunked one. -/
theorem Answering.inv_scheduleChunkedChunkGetter {t : AsyncConnection} (h : Answering t)
    (hp : t.itsPendingHeaders = []) (hb : Chunking srv t []) (hc : Common srv t) :
    Inv srv (scheduleChunkedChunkGetter srv a t) := by
  unfold scheduleChunkedChunkGetter scheduleGetter
  split
  · exact inv_await srv hc ⟨h, hp, hb⟩
  · exact h.inv_refused srv a (Body.facts srv h (Or.inr (Or.inr (Or.inl hb)))) hc
      hb.method fun _ => hb.ended

/-! ## The pending header section -/

/-- What `flushPendingHeaders` sends of it. -/
theorem flush_spec (t : AsyncConnection) :
    ∃ extra f, (∀ p ∈ extra, p.1 = .handler) ∧ extra.flatMap Prod.snd <+: t.itsPendingHeaders ∧
      (flushPendingHeaders a t).exchange = t.exchange.send extra f ∧
      (flushPendingHeaders a t).itsPendingHeaders = [] ∧
      (flushPendingHeaders a t).world.waits = t.world.waits ∧
      (Common srv t → Common srv (flushPendingHeaders a t)) ∧
      (flushFails a t = false → t.exchange.failed = false → Sent t (flushPendingHeaders a t) extra ∧
        extra.flatMap Prod.snd = t.itsPendingHeaders) := by
  by_cases hp : t.itsPendingHeaders = []
  · have heq : flushPendingHeaders a t = t := by
      unfold flushPendingHeaders
      rw [hp]
      rfl
    rw [heq]
    refine ⟨[], t.exchange.failed, by simp, List.nil_prefix, (send_nil _).symm, hp, rfl,
      fun hc => hc, ?_⟩
    intro _ _
    refine ⟨⟨by simp, (send_nil _).symm, rfl, rfl, rfl, rfl, rfl, rfl, rfl, rfl, rfl⟩, hp.symm⟩
  · have hdel := t.world.write_delivers .handler t.itsPendingHeaders a.flushWrite
    obtain ⟨extra, f, hx, hm, hpre, hall, -⟩ := hdel.current
    have heq : flushPendingHeaders a t =
        { t with
          world := t.world.write .handler t.itsPendingHeaders a.flushWrite
          itsPendingHeaders := []
          itsFinalStatus := if t.world.writeFails t.itsPendingHeaders a.flushWrite then .other
            else t.itsFinalStatus } := by
      unfold flushPendingHeaders
      rw [if_neg (by simpa using hp)]
      rfl
    rw [heq]
    refine ⟨extra, f, hm, hpre, hx, rfl, hdel.waits, ?_, ?_⟩
    · intro hc
      let w := t.world.write .handler t.itsPendingHeaders a.flushWrite
      have hc' : Common srv { t with world := w } := by
        refine hc.inWorld srv hdel.outstanding hdel.waits ?_ hdel.past
        intro hs
        rcases hdel.socket with hw | ⟨hw, -⟩
        · exact hw.trans hs
        · rw [hs] at hw
          cases hw
      exact hc'.update srv rfl
    · intro hnf hf
      obtain ⟨hf', -⟩ := World.failed_of_not_writeFails (m := .handler) hnf
      have hff : f = t.exchange.failed := by
        rw [hx] at hf'
        exact hf'
      refine ⟨⟨hm, ?_, hdel.waits, rfl, rfl, rfl, rfl, rfl, rfl, rfl, rfl⟩, ?_⟩
      · rw [← hff]
        exact hx
      · exact (hall (hff.trans hf)).1

/-- A header section that cannot be sent ends the connection. -/
theorem Answering.inv_flushFailed {t : AsyncConnection} (h : Answering t)
    (hb : BodyFacts t.exchange t.itsPendingHeaders) (hc : Common srv t)
    (hend : t.exchange.path = some .chunked → t.exchange.ended ≠ some .exitOk) :
    Inv srv (flushPendingHeaders a t) := by
  obtain ⟨extra, f, hm, hpre, hx, -, hw, hcf, -⟩ := flush_spec srv a t
  refine h.inv_stopped srv hb hm hpre hend hx (hcf hc) hw ?_
  unfold flushPendingHeaders
  split
  · rfl
  · rfl

/-! ## Finished responses -/

/-- Everything of the response was sent. -/
theorem out_eq_handlerBytes {t : AsyncConnection} (h : Answering t) :
    t.exchange.out = t.exchange.handlerBytes := by
  rw [out_eq h.ordered, serverBytes_eq_nil h.wire, List.append_nil]

/-- A reply that was sent whole, and how its length was told. -/
theorem Answering.done {t : AsyncConnection} (h : Answering t)
    (hfacts : BodyFacts t.exchange []) (hsound : Sound srv t.exchange)
    (hcomplete : Complete t.exchange) {r : Response} {head : Bytes}
    (hh : t.exchange.heads = [(.handler, r, head)]) (hpath : t.exchange.path ≠ some .gateway)
    (hstream : t.exchange.path = some .stream → r.getHeader "Content-Length".toList
      = some (toDecimal t.exchange.chunks.flatten.length))
    (hended : t.exchange.path = some .chunked → t.exchange.ended = some .exitOk)
    (hbegins : head <+: t.exchange.handlerBytes)
    (hframed : Proper t.exchange .handler r → head = srv.spine.headerSection r ∧
      ∃ body, t.exchange.handlerBytes = head ++ body ∧ r.Frames body) :
    Done srv t.exchange := by
  refine ⟨hsound, hcomplete, ?_, h.refused, ?_, ?_, hpath, ?_, hended, ?_, ?_⟩
  · obtain ⟨q, hq, -⟩ := h.request
    rw [hq]
    rfl
  · intro q hq hm _
    have := hfacts.head q hq hm
    rwa [List.append_nil] at this
  · exact fun hr => h.dispatched hr.1
  · exact fun hs => ⟨r, head, hh, hstream hs⟩
  · intro _ p hp
    rw [hh] at hp
    rw [List.mem_singleton.mp hp, out_eq_handlerBytes h]
    exact hbegins
  · refine ⟨.handler, r, head, hh, (fun hm => by cases hm), ?_⟩
    rw [out_eq_handlerBytes h]
    exact hframed

/-- A buffered reply is done when its bytes are sent, -/
theorem Regular.done {t : AsyncConnection} (h : Regular srv t []) (ha : Answering t) :
    Sound srv t.exchange ∧ Complete t.exchange ∧ Done srv t.exchange := by
  have hfacts := Body.facts srv ha (Or.inl h)
  have hsound := ha.sound_self srv hfacts
  have hcomplete : Complete t.exchange := by
    intro hp
    rw [h.path] at hp
    cases hp
  obtain ⟨head, body, hh, hb, -, hprop⟩ := h.bytes
  rw [List.append_nil] at hb
  refine ⟨hsound, hcomplete, ha.done srv hfacts hsound hcomplete hh ?_ ?_ ?_ ?_ ?_⟩
  · rw [h.path]
    simp
  · intro hp
    rw [h.path] at hp
    cases hp
  · intro hp
    rw [h.path] at hp
    cases hp
  · rw [hb]
    exact List.prefix_append _ _
  · intro hp
    exact ⟨(hprop hp).1, body, hb, (hprop hp).2⟩

/-- a chunked one with its last chunk, -/
theorem Finalizing.done {t : AsyncConnection} (h : Finalizing srv t []) (ha : Answering t) :
    Sound srv t.exchange ∧ Complete t.exchange ∧ Done srv t.exchange := by
  have hfacts := Body.facts srv ha (Or.inr (Or.inr (Or.inr h)))
  have hsound := ha.sound_self srv hfacts
  have hb := h.bytes
  rw [List.append_nil] at hb
  have hcomplete : Complete t.exchange := fun _ _ _ => hb
  obtain ⟨r, head, hh, ht, hl, hprop⟩ := h.head
  refine ⟨hsound, hcomplete, ha.done srv hfacts hsound hcomplete hh ?_ ?_ (fun _ => h.ended) ?_ ?_⟩
  · rw [h.path]
    simp
  · intro hp
    rw [h.path] at hp
    cases hp
  · rw [hb, headBytes_of_heads hh]
    exact List.prefix_append _ _
  · intro hp
    rw [headBytes_of_heads hh] at hb
    refine ⟨hprop hp, _, hb, Or.inl ⟨ht, hl, t.exchange.chunks.flatten, ?_⟩⟩
    have hdec := decode_encode t.exchange.chunks []
    rwa [List.append_nil] at hdec

/-- and a stream when it gave as many bytes as were announced. -/
theorem Streaming.done {t : AsyncConnection} (h : Streaming srv t []) (ha : Answering t)
    (hk : t.itsKeepAlive = true)
    (hl : t.itsTotalStreamedBytes = t.itsDeclaredContentLength) : Done srv t.exchange := by
  have hfacts := Body.facts srv ha (Or.inr (Or.inl h))
  have hsound := ha.sound_self srv hfacts
  have hpath : t.exchange.path = some .stream := by
    rcases h.path with hp | hp
    · exact hp
    · rw [(h.gateway hp).1] at hk
      cases hk
  have hcomplete : Complete t.exchange := by
    intro hp
    rw [hpath] at hp
    cases hp
  obtain ⟨r, head, hh, hcl, hprop⟩ := h.stream hpath
  have hb := h.bytes
  rw [List.append_nil, headBytes_of_heads hh] at hb
  rw [← hl, h.streamedBytes] at hcl
  refine ha.done srv hfacts hsound hcomplete hh ?_ (fun _ => hcl) ?_ ?_ ?_
  · rw [hpath]
    simp
  · intro hp
    rw [hpath] at hp
    cases hp
  · rw [hb]
    exact List.prefix_append _ _
  · intro hp
    exact ⟨(hprop hp).1, _, hb, Or.inr ⟨(hprop hp).2, hcl⟩⟩

/-! ## The next chunk -/

/-- The exchange is still being answered with another chunk. -/
theorem Answering.takeChunk {t : AsyncConnection} (h : Answering t) (c : Bytes) :
    Answering (takeChunk c t) :=
  ⟨h.unarmed, h.received, h.request, h.dispatched, h.handled, h.failed, h.refused, h.wire,
    h.ordered⟩

/-- The chunk's bytes are left to be sent, -/
theorem Streaming.takeChunk {t : AsyncConnection} {unsent : Bytes} (h : Streaming srv t unsent)
    (c : Bytes) : Streaming srv (takeChunk c t) (unsent ++ c) := by
  refine ⟨h.path, h.method, ?_, ?_, h.gateway, ?_⟩
  · show t.itsTotalStreamedBytes + c.length = (t.exchange.chunks ++ [c]).flatten.length
    rw [h.streamedBytes, List.flatten_append, List.length_append, List.flatten_singleton]
  · show t.exchange.handlerBytes ++ (unsent ++ c) =
      t.exchange.headBytes ++ (t.exchange.chunks ++ [c]).flatten
    rw [List.flatten_append, List.flatten_singleton, ← List.append_assoc, h.bytes,
      List.append_assoc]
  · intro hp
    obtain ⟨r, head, hh, hl, hprop⟩ := h.stream hp
    exact ⟨r, head, hh, hl, fun hu =>
      hprop ⟨hu.failed, hu.method, hu.options, hu.body, hu.status, hu.plain⟩⟩

/-- behind the same header section, -/
theorem ChunkedHead.takeChunk {t : AsyncConnection} (h : ChunkedHead srv t) (c : Bytes) :
    ChunkedHead srv (takeChunk c t) := by
  obtain ⟨r, head, hh, ht, hl, hprop⟩ := h
  exact ⟨r, head, hh, ht, hl, fun hu =>
    hprop ⟨hu.failed, hu.method, hu.options, hu.body, hu.status, hu.plain⟩⟩

/-- in the chunked coding too. -/
theorem Chunking.takeChunk {t : AsyncConnection} {unsent : Bytes} (h : Chunking srv t unsent)
    (c : Bytes) : Chunking srv (takeChunk c t) (unsent ++ encode [c]) := by
  refine ⟨h.path, h.method, h.head.takeChunk srv c, h.ended, ?_⟩
  show t.exchange.handlerBytes ++ (unsent ++ encode [c]) =
    t.exchange.headBytes ++ encode (t.exchange.chunks ++ [c])
  rw [encode_append, ← List.append_assoc, h.bytes, List.append_assoc]

/-- What `getNextChunkedChunk` puts on the wire is one chunk of the coding. -/
theorem encode_singleton {c : Bytes} (hc : c ≠ []) :
    convertToHex c.length ++ crlf ++ c ++ crlf = encode [c] := by
  rw [encode_cons hc]
  simp [convertToHex, encodeChunk, encode, crlf]

/-- The state in which a chunk is being written. -/
theorem Writing.sendChunk {t : AsyncConnection} (h : Answering t) (wire : Bytes) :
    ∃ u, (∀ handler, sendChunk handler wire t
        = u.await (.write handler (t.itsPendingHeaders ++ wire))) ∧
      Sent t u [] ∧ Writing u (t.itsPendingHeaders ++ wire) ∧ u.shared = t.shared := by
  let u : AsyncConnection := { t with
    itsResponseString := t.itsPendingHeaders ++ wire
    itsPendingHeaders := []
    itsSentBytes := 0 }
  have hs : Sent t u [] :=
    ⟨by simp, (send_nil _).symm, rfl, rfl, rfl, rfl, rfl, rfl, rfl, rfl, rfl⟩
  exact ⟨u, fun _ => rfl, hs, ⟨h.sent hs, rfl, rfl⟩, rfl⟩

/-- `finishResponse` behind a response of a handler. -/
theorem Answering.inv_finishResponse {t s : AsyncConnection} {k : Bool} (h : Answering t)
    (hp : t.itsPendingHeaders = []) (hc : Common srv t) (hl : LogOnly t s)
    (hsound : Sound srv t.exchange) (hcomplete : Complete t.exchange)
    (hd : k = true → Done srv t.exchange) :
    Inv srv (finishResponse srv { s with itsKeepAlive := k }) := by
  have hcl := hc.logOnly srv hl
  have hexch := hl.exchange
  have hwaits := hl.waits
  obtain ⟨r, b, w, rfl⟩ := hl.members
  have hx : current w.trace = t.exchange := hexch
  refine AsyncConnection.inv_finishResponse srv (hcl.update srv rfl) ?_ h.received hp ?_
  · intro hm
    unfold mayReuse at hm
    simp only [Bool.and_eq_true] at hm
    show Done srv (current w.trace)
    rw [hx]
    exact hd hm.1.1
  · intro _
    refine ⟨?_, ?_, Or.inr ⟨?_, ?_⟩⟩
    · show Sound srv (current w.trace)
      rw [hx]
      exact hsound
    · show Complete (current w.trace)
      rw [hx]
      exact hcomplete
    · show ∀ x ∈ w.waits, _
      rw [show w.waits = t.world.waits from hwaits]
      exact h.unarmed
    · show (current w.trace).dispatched ≠ []
      rw [hx]
      exact h.dispatched

/-- A stream that has ended: its length decides whether the connection goes on. -/
theorem Answering.inv_finishStream {t : AsyncConnection} (h : Answering t)
    (hp : t.itsPendingHeaders = []) (hb : Streaming srv t []) (hc : Common srv t)
    (st : StreamerStatus) : Inv srv (finishStream srv st t) := by
  have hl := (logOnly_finalizeStreamLogging t).trans (logOnly_notifyBackendFinished st _)
  have hsound := h.sound_self srv (Body.facts srv h (Or.inr (Or.inl hb)))
  unfold finishStream
  refine h.inv_finishResponse srv hp hc hl hsound ?_ ?_
  · intro hpath
    rcases hb.path with hp' | hp'
    · rw [hp'] at hpath
      cases hpath
    · rw [hp'] at hpath
      cases hpath
  · intro hk
    obtain ⟨r, b, w, heq⟩ := hl.members
    rw [heq] at hk
    simp only [Bool.and_eq_true, beq_iff_eq] at hk
    exact hb.done srv h hk.1 hk.2

/-- **`getNextChunk`.** -/
theorem Answering.inv_getNextChunk {t : AsyncConnection} (h : Answering t)
    (hb : Streaming srv t t.itsPendingHeaders) (hc : Common srv t) :
    Inv srv (getNextChunk srv a t) := by
  have hfacts := Body.facts srv h (Or.inr (Or.inl hb))
  have hnot : ∀ u : AsyncConnection, u.exchange.path = t.exchange.path →
      u.exchange.path = some .chunked → u.exchange.ended ≠ some .exitOk := by
    intro u hu hp
    rw [hu] at hp
    rcases hb.path with hp' | hp'
    · rw [hp'] at hp
      cases hp
    · rw [hp'] at hp
      cases hp
  unfold getNextChunk
  split
  · split
    · -- `getContent` has thrown
      exact h.inv_dropped srv hfacts hc (hnot t rfl)
    · rename_i content _
      split
      · -- a chunk
        obtain ⟨u, heq, hs, hw, hshared⟩ :=
          Writing.sendChunk (h.takeChunk content) content
        rw [heq]
        have hcu : Common srv u :=
          (hc.emit srv (o := .chunk content t.itsResponse.hasStreamContent) (by simp)).update srv
            hshared
        exact inv_await srv hcu ⟨hw, (hb.takeChunk srv content).sent srv hs rfl⟩
      · -- an empty chunk
        rename_i hempty
        have hnil : content = [] := by
          cases content with
          | nil => rfl
          | cons c cs => exact absurd rfl hempty
        have h' := h.takeChunk content
        have hb' := hb.takeChunk srv content
        rw [hnil, List.append_nil] at hb'
        rw [hnil] at h'
        have hc' : Common srv (AsyncConnection.takeChunk [] t) :=
          (hc.emit srv (o := .chunk [] t.itsResponse.hasStreamContent) (by simp)).update srv rfl
        rw [hnil]
        dsimp only
        split
        · exact h'.inv_flushFailed srv a (Body.facts srv h' (Or.inr (Or.inl hb'))) hc'
            (hnot _ rfl)
        · rename_i hff
          obtain ⟨extra, f, -, -, -, hp, -, hcf, hgood⟩ :=
            flush_spec srv a (AsyncConnection.takeChunk [] t)
          obtain ⟨hs, he⟩ := hgood (by simpa using hff) h'.failed
          refine Answering.inv_scheduleChunkGetter srv a (h'.sent hs) hp ?_ (hcf hc')
          exact hb'.sent srv hs (by rw [he, List.append_nil]; rfl)
  · -- the streamer has stopped
    rename_i status _
    let u := t.emit (.streamEnded (getStreamingStatus a t.itsResponse) t.itsResponse.hasStreamContent)
    have h' : Answering u := ⟨h.unarmed, h.received, h.request, h.dispatched, h.handled, h.failed,
      h.refused, h.wire, h.ordered⟩
    have hb' : Streaming srv u t.itsPendingHeaders := by
      refine ⟨hb.path, hb.method, hb.streamedBytes, hb.bytes, hb.gateway, ?_⟩
      intro hp
      obtain ⟨r, head, hh, hl, hprop⟩ := hb.stream hp
      exact ⟨r, head, hh, hl, fun hu =>
        hprop ⟨hu.failed, hu.method, hu.options, hu.body, hu.status, hu.plain⟩⟩
    have hc' : Common srv u := hc.emit srv (by simp)
    show Inv srv (if flushFails a u then flushPendingHeaders a u
      else finishStream srv (getStreamingStatus a t.itsResponse) (flushPendingHeaders a u))
    split
    · exact h'.inv_flushFailed srv a (Body.facts srv h' (Or.inr (Or.inl hb'))) hc' (hnot _ rfl)
    · rename_i hff
      obtain ⟨extra, f, -, -, -, hp, -, hcf, hgood⟩ := flush_spec srv a u
      obtain ⟨hs, he⟩ := hgood (by simpa using hff) h'.failed
      refine (h'.sent hs).inv_finishStream srv hp ?_ (hcf hc') _
      exact hb'.sent srv hs (by rw [he, List.append_nil]; rfl)

/-- **`getNextChunkedChunk`.** -/
theorem Answering.inv_getNextChunkedChunk {t : AsyncConnection} (h : Answering t)
    (hb : Chunking srv t t.itsPendingHeaders) (hc : Common srv t) :
    Inv srv (getNextChunkedChunk srv a t) := by
  have hfacts := Body.facts srv h (Or.inr (Or.inr (Or.inl hb)))
  unfold getNextChunkedChunk
  split
  · split
    · -- `getContent` has thrown
      exact h.inv_dropped srv hfacts hc fun _ => hb.ended
    · rename_i content _
      split
      · -- a chunk
        rename_i hne
        have hne' : content ≠ [] := by
          intro hnil
          rw [hnil] at hne
          exact absurd hne (by simp)
        obtain ⟨u, heq, hs, hw, hshared⟩ := Writing.sendChunk (h.takeChunk content)
          (convertToHex content.length ++ crlf ++ content ++ crlf)
        rw [heq]
        have hcu : Common srv u :=
          (hc.emit srv (o := .chunk content t.itsResponse.hasStreamContent) (by simp)).update srv
            hshared
        refine inv_await srv hcu ⟨hw, ?_⟩
        rw [encode_singleton hne']
        exact (hb.takeChunk srv content).sent srv hs rfl
      · -- an empty chunk is not sent: it would be the last one
        rename_i hempty
        have hnil : content = [] := by
          cases content with
          | nil => rfl
          | cons c cs => exact absurd rfl hempty
        have h' := h.takeChunk content
        have hb' := hb.takeChunk srv content
        rw [hnil] at h' hb'
        rw [show encode [[]] = [] from encode_empty [], List.append_nil] at hb'
        have hc' : Common srv (AsyncConnection.takeChunk [] t) :=
          (hc.emit srv (o := .chunk [] t.itsResponse.hasStreamContent) (by simp)).update srv rfl
        rw [hnil]
        dsimp only
        split
        · exact h'.inv_flushFailed srv a (Body.facts srv h' (Or.inr (Or.inr (Or.inl hb')))) hc'
            fun _ => hb'.ended
        · rename_i hff
          obtain ⟨extra, f, -, -, -, hp, -, hcf, hgood⟩ :=
            flush_spec srv a (AsyncConnection.takeChunk [] t)
          obtain ⟨hs, he⟩ := hgood (by simpa using hff) h'.failed
          refine Answering.inv_scheduleChunkedChunkGetter srv a (h'.sent hs) hp ?_ (hcf hc')
          exact hb'.sent srv hs (by rw [he, List.append_nil]; rfl)
  · -- the streamer has stopped
    obtain ⟨status, hstatus⟩ : ∃ st, getStreamingStatus a t.itsResponse = st := ⟨_, rfl⟩
    rw [hstatus]
    let u := t.emit (.streamEnded status t.itsResponse.hasStreamContent)
    have hl := logOnly_notifyBackendFinished status u
    have hcu : Common srv u := hc.emit srv (by simp)
    have hcl := hcu.logOnly srv hl
    have hexch := hl.exchange
    have hwaits := hl.waits
    obtain ⟨r, b, w, heq⟩ := hl.members
    rw [heq] at hcl hexch hwaits
    show Inv srv (if status ≠ .exitOk
      then abandonChunked a (notifyBackendFinished status u)
      else sendChunk .finalizeChunkedReply "0\r\n\r\n".toList (notifyBackendFinished status u))
    rw [heq]
    have hx : current w.trace = t.exchange.observe
      (.streamEnded status t.itsResponse.hasStreamContent) := hexch
    have hw : w.waits = t.world.waits := hwaits
    let v : AsyncConnection := { u with itsResponse := r, itsBackendNotified := b, world := w }
    have hv : Answering v := by
      refine ⟨?_, h.received, ?_, ?_, ?_, ?_, ?_, ?_, ?_⟩
      · show ∀ x ∈ w.waits, _
        rw [hw]
        exact h.unarmed
      · show ∃ q, (current w.trace).requests = [q] ∧ _
        rw [hx]
        exact h.request
      · show (current w.trace).dispatched ≠ []
        rw [hx]
        exact h.dispatched
      · show ∃ q, (current w.trace).handled = some q
        rw [hx]
        exact h.handled
      · show (current w.trace).failed = false
        rw [hx]
        exact h.failed
      · show (current w.trace).refused = false
        rw [hx]
        exact h.refused
      · show ∀ p ∈ (current w.trace).wire, _
        rw [hx]
        exact h.wire
      · show Ordered (current w.trace).wire
        rw [hx]
        exact h.ordered
    have hhead : ChunkedHead srv v := by
      obtain ⟨q, head, hh, ht, hcl, hprop⟩ := hb.head
      refine ⟨q, head, ?_, ht, hcl, ?_⟩
      · show (current w.trace).heads = _
        rw [hx]
        exact hh
      · intro hu
        have hu' : Proper (current w.trace) .handler q := hu
        rw [hx] at hu'
        exact hprop ⟨hu'.failed, hu'.method, hu'.options, hu'.body, hu'.status, hu'.plain⟩
    have hpath : v.exchange.path = some .chunked := by
      show (current w.trace).path = _
      rw [hx]
      exact hb.path
    have hended : v.exchange.ended = some status := by
      show (current w.trace).ended = _
      rw [hx]
      rfl
    -- the end of the stream adds no bytes, and the books are no part of the exchange
    have hbytes : v.exchange.handlerBytes ++ v.itsPendingHeaders
        = v.exchange.headBytes ++ encode v.exchange.chunks := by
      show (current w.trace).handlerBytes ++ t.itsPendingHeaders
        = (current w.trace).headBytes ++ encode (current w.trace).chunks
      rw [hx]
      exact hb.bytes
    split
    · -- a failure leaves the body without its last chunk
      rename_i hne
      have hbv : Chunking srv v v.itsPendingHeaders := by
        refine ⟨hpath, hb.method, hhead, ?_, hbytes⟩
        rw [hended]
        exact fun he => hne (Option.some.inj he)
      have hfv := Body.facts srv hv (Or.inr (Or.inr (Or.inl hbv)))
      obtain ⟨extra, f, hm, hpre, hxf, -, hwf, hcf, -⟩ := flush_spec srv a v
      have hl' := logOnly_finalizeStreamLogging (flushPendingHeaders a v)
      have hcl' := (hcf hcl).logOnly srv hl'
      have hexch' := hl'.exchange
      have hwaits' := hl'.waits
      show Inv srv (closeSocket
        { finalizeStreamLogging (flushPendingHeaders a v) with itsKeepAlive := false })
      have hgen : (finalizeStreamLogging (flushPendingHeaders a v)).itsTimerGeneration
          = v.itsTimerGeneration := by
        obtain ⟨r', b', w', heq'⟩ := hl'.members
        rw [heq']
        unfold flushPendingHeaders
        split
        · rfl
        · rfl
      let z := finalizeStreamLogging (flushPendingHeaders a v)
      have hcz : Common srv { z with world := z.world.close } :=
        hcl'.inWorld srv rfl rfl (fun _ => rfl) rfl
      exact hv.inv_stopped srv hfv hm hpre (fun _ => hbv.ended) (hexch'.trans hxf)
        (hcz.update srv rfl) (hwaits'.trans hwf) hgen
    · -- the last chunk
      rename_i hst
      have hst' : status = .exitOk := by
        by_contra hne
        exact hst hne
      obtain ⟨u', heq', hs, hw', hshared⟩ :=
        Writing.sendChunk hv "0\r\n\r\n".toList
      rw [heq']
      have hcu' : Common srv u' := hcl.update srv hshared
      refine inv_await srv hcu' ⟨hw', ?_, ?_⟩
      · have hfin : Finalizing srv v (v.itsPendingHeaders ++ lastChunk) := by
          refine ⟨hpath, hb.method, hhead, ?_, ?_⟩
          · rw [hended, hst']
          · rw [← List.append_assoc, hbytes, List.append_assoc]
        exact hfin.sent srv hs rfl
      · intro hnil
        have hlen := congrArg List.length hnil
        simp at hlen

/-! ## Completed writes -/

/-- **A write has sent `n` bytes**: the rest is written, or the response goes on
with `next`. -/
theorem Writing.inv_continueWrite {t : AsyncConnection} {buffer : Bytes} {n : ℕ}
    (handler : WriteHandler) (path : AsyncConnection → Bytes → Prop)
    (next failed : AsyncConnection → AsyncConnection)
    (hsent : ∀ {t u : AsyncConnection} {extra : List (Message × Bytes)} {unsent rest : Bytes},
      Sent t u extra → path t unsent → extra.flatMap Prod.snd ++ rest = unsent → path u rest)
    (hphase : ∀ {u : AsyncConnection} {rest : Bytes}, Writing u rest → path u rest → rest ≠ [] →
      Phase srv u (.write handler rest))
    (hnext : ∀ {u : AsyncConnection}, Answering u → u.itsPendingHeaders = [] → path u [] →
      Common srv u → Inv srv (next u))
    (h : Writing t buffer) (hb : path t buffer) (hc : Common srv t) :
    Inv srv (continueWrite srv a handler .success n next failed
      (t.emit (.wrote .handler (buffer.take n)))) := by
  let u : AsyncConnection := { t.emit (.wrote .handler (buffer.take n)) with
    itsFinalStatus := .success
    itsSentBytes := t.itsSentBytes + n }
  have hs : Sent t u [(.handler, buffer.take n)] := by
    refine ⟨?_, rfl, rfl, rfl, rfl, rfl, rfl, rfl, rfl, rfl, rfl⟩
    intro p hp
    obtain rfl := List.mem_singleton.mp hp
    rfl
  have hbytes : [(Message.handler, buffer.take n)].flatMap Prod.snd ++ buffer.drop n = buffer := by
    simp
  have hdrop : u.itsResponseString.drop u.itsSentBytes = buffer.drop n := by
    show t.itsResponseString.drop (t.itsSentBytes + n) = _
    rw [← h.buffer, List.drop_drop]
  have hcu : Common srv u :=
    (hc.emit srv (o := .wrote .handler (buffer.take n)) (by simp)).update srv rfl
  have hu : Answering u := h.toAnswering.sent hs
  have hpu : path u (buffer.drop n) := hsent hs hb hbytes
  show Inv srv (if u.itsSentBytes < u.itsResponseString.length
    then asyncWriteSome handler (u.itsResponseString.drop u.itsSentBytes) u else next u)
  split
  · rename_i hlt
    rw [hdrop]
    refine inv_await srv hcu (hphase ⟨hu, h.pendingHeaders, hdrop⟩ hpu ?_)
    rw [← hdrop]
    intro hnil
    have := List.drop_eq_nil_iff.mp hnil
    omega
  · rename_i hge
    have hnil : buffer.drop n = [] := by
      rw [← hdrop]
      exact List.drop_eq_nil_iff.mpr (by omega)
    rw [hnil] at hpu
    exact hnext hu h.pendingHeaders hpu hcu

/-- **A write has failed**: nothing more is delivered. -/
theorem Answering.inv_writeFailed {t : AsyncConnection} {unsent : Bytes} (h : Answering t)
    (hb : BodyFacts t.exchange unsent) (hc : Common srv t)
    (hne : t.exchange.path = some .chunked → t.exchange.ended = some .exitOk → unsent ≠ [])
    (handler : WriteHandler) (next failed : AsyncConnection → AsyncConnection)
    (hl : ∀ s, LogOnly s (failed s)) :
    Inv srv (continueWrite srv a handler .other 0 next failed t.failWrite) := by
  let u : AsyncConnection := { t.failWrite with itsFinalStatus := .other, itsKeepAlive := false }
  obtain ⟨r, e, w, heq, -, -, hin⟩ := sendStockReply_closing srv a .serviceUnavailable (s := u) rfl
  obtain ⟨extra, f, hx, hs⟩ := hin.current
  have hsock : u.world.socket ≠ .open := by
    show (if t.world.socket = .open then SocketState.broken else t.world.socket) ≠ .open
    split
    · simp
    · assumption
  have hextra := hs.socket hsock
  have hux : current u.world.trace = t.exchange.send [] true := by
    show { t.exchange with failed := true } = _
    unfold send
    rw [List.append_nil]
  have hf : f = true := by
    cases f with
    | true => rfl
    | false =>
      have hff := (hs.exact rfl).2
      rw [hux] at hff
      cases hff
  have hsound : Sound srv (t.exchange.send [] true) := by
    refine h.sound srv hb (f := true) ?_ List.nil_prefix fun _ hp he => ⟨rfl, hne hp he⟩
    intro p hp
    cases hp
  have hx' : current w.trace = (t.exchange.send [] true).reply (.stock .serviceUnavailable) r
      (srv.spine.headerSection r) [] true := by
    rw [hx, hux, hextra, hf]
  have hcu : Common srv u := by
    refine (hc.inWorld srv (w := t.world.failWrite) rfl rfl ?_ (past_cons (by simp) _)).update srv rfl
    intro hcl
    show (if t.world.socket = .open then SocketState.broken else t.world.socket) = .closed
    rw [hcl]
    rfl
  have hcw : Common srv { u with world := w.close } :=
    hcu.inWorld srv hin.outstanding hin.waits (fun _ => rfl) hin.past
  show Inv srv (failed (sendStockReply srv a .serviceUnavailable u))
  rw [heq]
  let v := closeSocket { u with
    itsResponse := r, itsFinalStatus := e, itsKeepAlive := false, world := w }
  have hlv := hl v
  have hcv : Common srv (failed v) := (hcw.update srv (u := v) rfl).logOnly srv hlv
  have hvx : (failed v).exchange = (t.exchange.send [] true).reply (.stock .serviceUnavailable) r
      (srv.spine.headerSection r) [] true := hlv.exchange.trans hx'
  refine inv_over srv hcv ⟨?_, ?_, Or.inr ⟨?_, ?_⟩⟩
  · rw [hvx]
    exact hsound.reply_undelivered srv h.dispatched fun _ hp => hsound.truncated hp rfl
  · rw [hvx]
    intro _ _ hff
    cases hff
  · show ∀ x ∈ (failed v).world.waits, _
    rw [hlv.waits]
    obtain ⟨r', b', w', heq'⟩ := hlv.members
    rw [heq']
    show ∀ x ∈ w.waits, _
    rw [hin.waits]
    exact h.unarmed
  · rw [hvx]
    exact h.dispatched

/-! ## Starting a response -/

/-- A handler has left a response. -/
structure Called (t : AsyncConnection) : Prop extends Carried t where
  unarmed : Unarmed t
  plain : Plain srv t.exchange
  unanswered : Unanswered t.exchange
  request : ∃ r, t.exchange.requests = [r] ∧ t.itsHeadRequest = decide (r.method = .head)
  dispatched : t.exchange.dispatched ≠ []
  handled : t.exchange.handled = some t.itsResponse
  responseString : t.itsResponseString = []
  sentBytes : t.itsSentBytes = 0
  streamedBytes : t.itsTotalStreamedBytes = 0
  failed : t.exchange.failed = false
  socket : t.world.socket ≠ .closed

/-- A path was chosen, and the headers of the server are set. -/
structure Starting (p : ReplyPath) (response : Response) (t : AsyncConnection) : Prop
    extends Answering t, Carried t where
  path : t.exchange.path = some p
  heads : t.exchange.heads = []
  chunks : t.exchange.chunks = []
  ended : t.exchange.ended = none
  wireInterim : ∀ q ∈ t.exchange.wire, q.1 = .interim
  handledBy : t.exchange.handled = some response
  same : SameBody response t.itsResponse
  responseString : t.itsResponseString = []
  sentBytes : t.itsSentBytes = 0
  streamedBytes : t.itsTotalStreamedBytes = 0

/-- A path is chosen, with or without the server's fields. -/
theorem Called.start {t : AsyncConnection} (h : Called srv t) (p : ReplyPath) :
    Starting p t.itsResponse (setServerHeaders srv a (t.emit (.started p))) ∧
      Starting p t.itsResponse (t.emit (.started p)) := by
  have hans : Answering (t.emit (.started p)) :=
    ⟨h.unarmed, h.received, h.request, h.dispatched, ⟨_, h.handled⟩, h.failed, h.plain.refused,
      fun q hq => Or.inr (h.unanswered.2 q hq), h.plain.ordered⟩
  refine ⟨?_, ?_⟩
  · exact ⟨⟨hans.unarmed, hans.received, hans.request, hans.dispatched, hans.handled, hans.failed,
      hans.refused, hans.wire, hans.ordered⟩, h.pendingHeaders, rfl, h.unanswered.1,
      h.plain.chunks, h.plain.ended, h.unanswered.2, h.handled,
      sameBody_setServerHeaders srv a (t.emit (.started p)), h.responseString, h.sentBytes,
      h.streamedBytes⟩
  · exact ⟨hans, h.pendingHeaders, rfl, h.unanswered.1, h.plain.chunks, h.plain.ended,
      h.unanswered.2, h.handled, SameBody.refl _, h.responseString, h.sentBytes, h.streamedBytes⟩

/-- Nothing was sent yet. -/
theorem Starting.handlerBytes {p : ReplyPath} {response : Response} {t : AsyncConnection}
    (h : Starting p response t) : t.exchange.handlerBytes = [] := by
  refine handlerBytes_eq_nil ?_
  intro q hq
  rw [h.wireInterim q hq]
  simp

/-- A response whose content is at hand. -/
theorem Starting.inv_startRegularReply {response : Response} {t : AsyncConnection}
    (h : Starting .regular response t) (hc : Common srv t)
    (hs : t.itsHeadRequest = false → response.hasStreamContent = false) :
    Inv srv (startRegularReply srv t) := by
  let r := frameResponse srv t.itsHeadRequest
    (echoETag srv t.itsRequest (encodeResponse srv t.itsRequest t.itsResponse))
  let q := renderHeaders srv r
  let body := if t.itsHeadRequest then [] else q.1.getContent
  let u : AsyncConnection := { { t with itsResponse := q.1 }.emit (.rendered .handler q.1 q.2) with
    itsResponseString := q.2 ++ body }
  -- to a HEAD only the header section is sent
  have hwire : (if t.itsHeadRequest then q.2 else q.2 ++ q.1.getContent) = q.2 ++ body := by
    show _ = q.2 ++ (if t.itsHeadRequest then [] else q.1.getContent)
    split
    · exact (List.append_nil _).symm
    · rfl
  let sendWire (wire : Bytes) : AsyncConnection :=
    asyncWriteSome .writeRegularReply wire
      { { t with itsResponse := q.1 }.emit (.rendered .handler q.1 q.2) with
        itsResponseString := wire }
  have heq : startRegularReply srv t = u.await (.write .writeRegularReply (q.2 ++ body)) := by
    show sendWire (if t.itsHeadRequest then q.2 else q.2 ++ q.1.getContent) = sendWire (q.2 ++ body)
    rw [hwire]
  have hcu : Common srv u := (hc.emit srv (o := .rendered .handler q.1 q.2) (by simp)).update srv rfl
  have hu : Answering u := ⟨h.unarmed, h.received, h.request, h.dispatched, h.handled, h.failed,
    h.refused, h.wire, h.ordered⟩
  rw [heq]
  refine inv_await srv hcu ⟨⟨hu, h.pendingHeaders, ?_⟩, h.path, q.2, body, ?_, ?_, ?_, ?_⟩
  · show (q.2 ++ body).drop t.itsSentBytes = _
    rw [h.sentBytes]
    rfl
  · show t.exchange.heads ++ [(Message.handler, q.1, q.2)] = _
    rw [h.heads]
    rfl
  · show t.exchange.handlerBytes ++ (q.2 ++ body) = _
    rw [h.handlerBytes]
    rfl
  · intro hh
    exact if_pos hh
  · intro hprop
    have hhead : t.itsHeadRequest = false := by
      obtain ⟨m, hm, hmh⟩ := h.request
      rw [hmh]
      exact decide_eq_false (hprop.method m (by
        show m ∈ t.exchange.requests
        rw [hm]
        exact List.mem_singleton_self m))
    have hframing := (sameFraming_encodeResponse srv t.itsRequest t.itsResponse).trans
      (sameFraming_echoETag srv t.itsRequest _)
    have hst : response.status.isSome := hprop.status rfl response h.handledBy
    have hrst : r.status = response.status :=
      (frameResponse_status srv _ _).trans (hframing.status.trans h.same.status)
    -- with a status set the header section is made at once, without the fallback
    have hq : q.1 = r := renderHeaders_fst srv (by rw [hrst]; exact hst)
    have hbody : statusHasNoBody response.status = false := by
      have hb : statusHasNoBody q.1.status = false := hprop.body
      rw [hq, hrst] at hb
      exact hb
    refine ⟨renderHeaders_snd srv r, ?_⟩
    have hbody' : body = r.getContent := by
      show (if t.itsHeadRequest then [] else q.1.getContent) = _
      rw [hhead, hq]
      rfl
    show q.1.Frames body
    rw [hq, hbody']
    show Response.Frames (frameResponse srv t.itsHeadRequest _)
      (frameResponse srv t.itsHeadRequest _).getContent
    rw [hhead]
    refine frames_frameResponse srv ?_ ?_ ?_
    · rw [hframing.status, h.same.status]
      exact hbody
    · rw [hframing.transferEncoding, h.same.field _ transferEncoding_not_mem]
      refine hprop.plain ?_ response h.handledBy
      show t.exchange.path ≠ _
      rw [h.path]
      simp
    · refine hframing.content ?_
      rw [h.same.hasStreamContent]
      exact hs hhead

/-- A response of announced length: its header section goes out with its first chunk. -/
theorem Starting.inv_startStreamReply {response : Response} {t : AsyncConnection}
    (h : Starting .stream response t) (hc : Common srv t) (hm : t.itsHeadRequest = false) :
    Inv srv (startStreamReply srv a t) := by
  have hne : asciiToLower "Transfer-Encoding".toList ≠ asciiToLower "Content-Length".toList := by
    decide
  let declared := t.itsResponse.getContentLength
  let r := t.itsResponse.setHeader "Content-Length".toList (toDecimal declared)
  let u : AsyncConnection := { t with itsDeclaredContentLength := declared, itsResponse := r }
  let v := preparePendingHeaders srv u
  have hcv : Common srv v :=
    ((hc.update srv (u := u) rfl).emit srv (o := .rendered .handler _ _) (by simp)).update srv rfl
  have hv : Answering v := ⟨h.unarmed, h.received, h.request, h.dispatched, h.handled, h.failed,
    h.refused, h.wire, h.ordered⟩
  have hheads : v.exchange.heads = [(.handler, (renderHeaders srv r).1, v.itsPendingHeaders)] := by
    show t.exchange.heads ++ [_] = _
    rw [h.heads]
    rfl
  refine hv.inv_getNextChunk srv a ?_ hcv
  refine ⟨Or.inl h.path, hm, ?_, ?_, ?_, ?_⟩
  · show t.itsTotalStreamedBytes = t.exchange.chunks.flatten.length
    rw [h.streamedBytes, h.chunks]
    rfl
  · rw [headBytes_of_heads hheads]
    show t.exchange.handlerBytes ++ v.itsPendingHeaders
      = v.itsPendingHeaders ++ t.exchange.chunks.flatten
    rw [h.handlerBytes, h.chunks]
    simp
  · intro hp
    have hp' : t.exchange.path = some .gateway := hp
    rw [h.path] at hp'
    cases hp'
  · intro _
    refine ⟨_, _, hheads, ?_, ?_⟩
    · rw [renderHeaders_getHeader]
      exact HeaderMap.get_set_self _ _ _
    · intro hprop
      refine ⟨renderHeaders_snd srv r, ?_⟩
      rw [renderHeaders_getHeader]
      refine (HeaderMap.get_set_of_ne _ _ hne).trans ?_
      refine (h.same.field _ transferEncoding_not_mem).trans ?_
      refine hprop.plain ?_ response h.handledBy
      show t.exchange.path ≠ _
      rw [h.path]
      simp

/-- The start of a chunked reply, -/
theorem Starting.inv_startChunkedReply {response : Response} {t : AsyncConnection}
    (h : Starting .chunked response t) (hc : Common srv t) (hm : t.itsHeadRequest = false) :
    Inv srv (startChunkedReply srv a t) := by
  have hne : asciiToLower "Transfer-Encoding".toList ≠ asciiToLower "Content-Length".toList := by
    decide
  let r := (t.itsResponse.setHeader "Transfer-Encoding".toList "chunked".toList).removeHeader
    "Content-Length".toList
  let u : AsyncConnection := { t with itsResponse := r }
  let v := preparePendingHeaders srv u
  have hcv : Common srv v :=
    ((hc.update srv (u := u) rfl).emit srv (o := .rendered .handler _ _) (by simp)).update srv rfl
  have hv : Answering v := ⟨h.unarmed, h.received, h.request, h.dispatched, h.handled, h.failed,
    h.refused, h.wire, h.ordered⟩
  have hheads : v.exchange.heads = [(.handler, (renderHeaders srv r).1, v.itsPendingHeaders)] := by
    show t.exchange.heads ++ [_] = _
    rw [h.heads]
    rfl
  refine hv.inv_getNextChunkedChunk srv a ?_ hcv
  refine ⟨h.path, hm, ⟨_, _, hheads, ?_, ?_, fun _ => renderHeaders_snd srv r⟩, ?_, ?_⟩
  · rw [renderHeaders_getHeader]
    exact (HeaderMap.get_remove_of_ne _ hne).trans (HeaderMap.get_set_self _ _ _)
  · rw [renderHeaders_getHeader]
    exact HeaderMap.get_remove_self _ _
  · show t.exchange.ended ≠ _
    rw [h.ended]
    simp
  · rw [headBytes_of_heads hheads]
    show t.exchange.handlerBytes ++ v.itsPendingHeaders
      = v.itsPendingHeaders ++ encode t.exchange.chunks
    rw [h.handlerBytes, h.chunks]
    simp

/-- of a gateway's -/
theorem Starting.inv_startGatewayReply {response : Response} {t : AsyncConnection}
    (h : Starting .gateway response t) (hc : Common srv t) (hm : t.itsHeadRequest = false) :
    Inv srv (startGatewayReply srv a t) := by
  let u : AsyncConnection := { t with itsKeepAlive := false }
  have hu : Answering u := ⟨h.unarmed, h.received, h.request, h.dispatched, h.handled, h.failed,
    h.refused, h.wire, h.ordered⟩
  refine hu.inv_getNextChunk srv a ?_ (hc.update srv rfl)
  refine ⟨Or.inr h.path, hm, ?_, ?_, fun _ => ⟨rfl, h.heads⟩, ?_⟩
  · show t.itsTotalStreamedBytes = t.exchange.chunks.flatten.length
    rw [h.streamedBytes, h.chunks]
    rfl
  · show t.exchange.handlerBytes ++ t.itsPendingHeaders
      = t.exchange.headBytes ++ t.exchange.chunks.flatten
    have hhead : t.exchange.headBytes = [] := by
      refine headBytes_of_ne ?_
      rw [h.heads]
      intro q hq
      cases hq
    rw [h.handlerBytes, h.pendingHeaders, h.chunks, hhead]
    rfl
  · intro hp
    have hp' : t.exchange.path = some .stream := hp
    rw [h.path] at hp'
    cases hp'

/-- and of any other keeps the invariant. -/
theorem Called.inv_startReply {t : AsyncConnection} (h : Called srv t) (hc : Common srv t) :
    Inv srv (startReply srv a t) := by
  have hcs : ∀ p, Common srv (setServerHeaders srv a (t.emit (.started p))) := fun p =>
    (hc.emit srv (o := .started p) (by simp)).update srv rfl
  unfold startReply
  split
  · rename_i hhead
    refine (h.start srv a .regular).1.inv_startRegularReply srv (hcs _) ?_
    intro hm
    have hm' : t.itsHeadRequest = false := hm
    rw [hhead] at hm'
    cases hm'
  · rename_i hhead
    have hm : t.itsHeadRequest = false := by simpa using hhead
    split
    · split
      · exact (h.start srv a .gateway).2.inv_startGatewayReply srv a
          (hc.emit srv (by simp)) hm
      · split
        · exact (h.start srv a .chunked).1.inv_startChunkedReply srv a (hcs _) hm
        · exact (h.start srv a .stream).1.inv_startStreamReply srv a (hcs _) hm
    · rename_i hs
      refine (h.start srv a .regular).1.inv_startRegularReply srv (hcs _) ?_
      intro _
      simpa using hs

/-! ## The handler -/

/-- The stock reply instead of a response the handler calls a failure. -/
theorem Called.inv_sendStockReply {t : AsyncConnection} (h : Called srv t)
    (hc : Common srv t) (st : Status) : Inv srv (sendStockReply srv a st t) := by
  obtain ⟨r, hr, -⟩ := h.request
  have hstock := isStock_stockResponse srv a st t
  refine inv_serverReply srv a (r := r) (hc.update srv rfl) h.plain h.unanswered
    ⟨h.received, h.pendingHeaders⟩ h.socket hr (Or.inr ⟨h.unarmed, h.dispatched⟩)
    (Or.inr ⟨st, rfl⟩) (stockResponse_status srv a st t) (fun hm => by cases hm) ?_
  intro _ hplain
  refine Or.inr ⟨?_, ?_⟩
  · rw [hstock.transferEncoding]
    exact hplain _ h.handled
  · rw [hstock.contentLength, hstock.getContent]

/-- Cancelling the timer keeps what the states have in common. -/
theorem Common.cancelTimer {t : AsyncConnection} (h : Common srv t) :
    Common srv (cancelTimer t) ∧ Unarmed (cancelTimer t) := by
  have hlt : Unarmed (AsyncConnection.cancelTimer t) := by
    intro w hw
    obtain ⟨w', hw', rfl⟩ := List.mem_map.mp hw
    exact Nat.lt_succ_of_le (h.stamped w' hw')
  refine ⟨⟨h.outstanding, fun w hw => Nat.le_of_lt (hlt w hw), ?_, h.timedOut, h.connected,
    h.past⟩, hlt⟩
  intro w hw hs
  obtain ⟨w', hw', rfl⟩ := List.mem_map.mp hw
  simp only [TimerWait.cancel] at hs
  split at hs
  · cases hs
  · contradiction

/-- The handler of a queued request has left a response. -/
theorem Queued.called {t : AsyncConnection} (h : Queued srv t) (hc : Common srv t)
    (hs : t.world.socket ≠ .closed) (response : Response) :
    Called srv
      { (((cancelTimer t).emit (.clientStarted t.itsRequest.clientIP)).emit
          (.dispatched t.itsRequest)).emit (.handled response) with
        itsResponse := response } := by
  have hb := h.blank hs
  have hlive := h.live hs
  have hdis : t.exchange.dispatched ++ [t.itsRequest] ≠ [] := by simp
  refine ⟨⟨h.received, h.pendingHeaders⟩, (hc.cancelTimer srv).2, ?_, ⟨hlive.1, hlive.2⟩,
    h.request, hdis, rfl, hb.responseString, hb.sentBytes, hb.streamedBytes, hb.failed, hs⟩
  exact ⟨h.direct.one_request, h.direct.path, h.direct.chunks, h.direct.ended, h.direct.refused,
    h.direct.heads, h.direct.wire, h.direct.ordered, fun hd => absurd hd hdis⟩

/-- **`handleCompletedRead`.** -/
theorem Queued.inv_handleCompletedRead {t : AsyncConnection} (h : Queued srv t)
    (hc : Common srv t) : Inv srv (handleCompletedRead srv a t) := by
  obtain ⟨hcc, hun⟩ := hc.cancelTimer srv
  unfold handleCompletedRead
  dsimp only
  split
  · rename_i hd
    have hd' : t.itsPrematurelyDisconnected = true := hd
    rw [hc.connected] at hd'
    cases hd'
  · split
    · exact inv_over srv hcc ⟨h.direct.sound, h.direct.complete, Or.inl ⟨h.direct, h.live⟩⟩
    · rename_i hsock
      have hs : t.world.socket ≠ .closed := hsock
      let s := ((cancelTimer t).emit (.clientStarted t.itsRequest.clientIP)).emit
        (.dispatched t.itsRequest)
      have hcs : Common srv s := (hcc.emit srv (by simp)).emit srv (by simp)
      have hdis : s.exchange.dispatched ≠ [] := by
        show t.exchange.dispatched ++ [t.itsRequest] ≠ []
        simp
      have hplain : Plain srv s.exchange :=
        ⟨h.direct.one_request, h.direct.path, h.direct.chunks, h.direct.ended, h.direct.refused,
          h.direct.heads, h.direct.wire, h.direct.ordered, fun hd => absurd hd hdis⟩
      unfold callHandler
      dsimp only
      cases hh : a.handler with
      | threw =>
        exact inv_over srv hcs ⟨hplain.sound, hplain.complete, Or.inr ⟨hun, hdis⟩⟩
      | returned success response disconnected =>
        dsimp only
        let u : AsyncConnection := { s.emit (.handled response) with itsResponse := response }
        have hcu : Common srv u := (hcs.emit srv (o := .handled response) (by simp)).update srv rfl
        have hu : Called srv u := h.called srv hc hs response
        split
        · exact inv_over srv hcu ⟨hu.plain.sound, hu.plain.complete, Or.inr ⟨hun, hdis⟩⟩
        · split
          · exact hu.inv_sendStockReply srv a hcu _
          · exact hu.inv_startReply srv a hcu

end AsyncConnection

end SmartMet
