/-
# A HEAD and the GET it describes

The same request, once as a GET and once as a HEAD, is answered with the same header
section, but for the date and for the transfer coding of a response in chunks, unless
the content is at hand and the response is nevertheless marked chunked.
-/
import SmartMetServer.MinimalSpine
import SmartMetServer.Pulls
import SmartMetServer.Terms

namespace SmartMet

open Exchange

/-- The negotiation of a content coding reads the field `Accept-Encoding` only. -/
def Spine.NegotiatesByAcceptEncoding (sp : Spine) : Prop :=
  ∀ q q' : Request, q'.headers.get "Accept-Encoding".toList = q.headers.get "Accept-Encoding".toList →
    sp.selectContentEncoding q' = sp.selectContentEncoding q

namespace HeaderMap

theorem lookup_set (m : HeaderMap) (n v k : Bytes) :
    (m.set n v).lookup k = if k = asciiToLower n then some (n, v) else m.lookup k := by
  unfold set
  split
  · rename_i h
    rw [h, AList.lookup_insert]
  · rename_i h
    exact AList.lookup_insert_ne h

end HeaderMap

/-! ## Responses that differ in a few fields -/

/-- Two responses with the same members and fields, but for the fields with a key in
`keys`. -/
structure Alike (keys : List Bytes) (r r' : Response) : Prop where
  status : r'.status = r.status
  version : r'.version = r.version
  content : r'.content = r.content
  chunked : r'.chunked = r.chunked
  lookup : ∀ k, k ∉ keys → r'.headers.lookup k = r.headers.lookup k

/-- The header sections of two responses are the same, but for the fields with a key
in `keys`. -/
structure SameSection (keys : List Bytes) (r r' : Response) : Prop where
  status : r'.status = r.status
  version : r'.version = r.version
  lookup : ∀ k, k ∉ keys → r'.headers.lookup k = r.headers.lookup k

namespace Alike

variable {keys : List Bytes} {r r' : Response}

theorem refl (r : Response) : Alike keys r r := ⟨rfl, rfl, rfl, rfl, fun _ _ => rfl⟩

theorem sameSection (h : Alike keys r r') : SameSection keys r r' := ⟨h.status, h.version, h.lookup⟩

theorem getHeader (h : Alike keys r r') {n : Bytes} (hn : asciiToLower n ∉ keys) :
    r'.getHeader n = r.getHeader n :=
  congrArg (Option.map Prod.snd) (h.lookup _ hn)

/-- The same value is set in both, or the field may differ. -/
theorem setHeader (h : Alike keys r r') (n : Bytes) {v v' : Bytes}
    (hv : v' = v ∨ asciiToLower n ∈ keys) : Alike keys (r.setHeader n v) (r'.setHeader n v') := by
  refine ⟨h.status, h.version, h.content, h.chunked, fun k hk => ?_⟩
  show (r'.headers.set n v').lookup k = (r.headers.set n v).lookup k
  rw [HeaderMap.lookup_set, HeaderMap.lookup_set, h.lookup k hk]
  split
  · rename_i hkn
    rw [hv.resolve_right (hkn ▸ hk)]
  · rfl

theorem removeHeader (h : Alike keys r r') (n : Bytes) :
    Alike keys (r.removeHeader n) (r'.removeHeader n) := by
  refine ⟨h.status, h.version, h.content, h.chunked, fun k hk => ?_⟩
  show (r'.headers.remove n).lookup k = (r.headers.remove n).lookup k
  rw [HeaderMap.lookup_remove, HeaderMap.lookup_remove, h.lookup k hk]

theorem setVersion (h : Alike keys r r') (v : Bytes) :
    Alike keys (r.setVersion v) (r'.setVersion v) :=
  ⟨h.status, rfl, h.content, h.chunked, h.lookup⟩

theorem setContent (h : Alike keys r r') (sp : Spine) (c : Bytes) :
    Alike keys (r.setContent sp c) (r'.setContent sp c) := by
  refine ⟨h.status, h.version, rfl, ?_, h.lookup⟩
  show sp.chunkedAfterSetContent r'.chunked = sp.chunkedAfterSetContent r.chunked
  rw [h.chunked]

theorem getContentLength (h : Alike keys r r') : r'.getContentLength = r.getContentLength := by
  unfold Response.getContentLength
  rw [h.content]

theorem hasStreamContent (h : Alike keys r r') : r'.hasStreamContent = r.hasStreamContent := by
  unfold Response.hasStreamContent
  rw [h.content]

theorem getContent (h : Alike keys r r') : r'.getContent = r.getContent := by
  unfold Response.getContent
  rw [h.content]

end Alike

namespace AsyncConnection

variable (srv : Server)

/-! ## The fields of the server -/

/-- The key of the field that tells the time. -/
def dateKey : Bytes := asciiToLower "Date".toList

theorem alike_announce {r r' : Response} (h : Alike [dateKey] r r') (keepAlive : Bool)
    (version : HttpVersion) (field : Bytes) :
    Alike [dateKey] (announce keepAlive version field r) (announce keepAlive version field r') := by
  unfold announce
  split
  · exact (h.setHeader _ (Or.inl rfl)).removeHeader _
  split
  · exact (h.removeHeader _).removeHeader _
  · exact (h.setHeader _ (Or.inl rfl)).setHeader _ (Or.inl rfl)

theorem alike_appendStaleDirectives {r r' : Response} (h : Alike [dateKey] r r') :
    Alike [dateKey] (appendStaleDirectives srv r) (appendStaleDirectives srv r') := by
  have hcc : asciiToLower "Cache-Control".toList ∉ [dateKey] := by decide
  unfold appendStaleDirectives
  rw [h.getHeader hcc]
  split
  · split
    · split
      · exact h.setHeader _ (Or.inl rfl)
      · exact h
    · exact h
  · exact h

/-- The members a reply is built from agree. -/
structure SameState (s t : AsyncConnection) : Prop where
  keepAlive : t.itsKeepAlive = s.itsKeepAlive
  version : t.itsResponseVersion = s.itsResponseVersion
  count : t.itsRequestCount = s.itsRequestCount

/-- **The fields of the server** are the same in the same state, but for the date. -/
theorem alike_setServerHeaders {s t : AsyncConnection} (h : SameState s t)
    (hr : t.itsResponse = s.itsResponse) (a b : Answers) :
    Alike [dateKey] (setServerHeaders srv a s).itsResponse (setServerHeaders srv b t).itsResponse := by
  have hconnection : asciiToLower "Connection".toList ∉ [dateKey] := by decide
  have hdated : Alike [dateKey] (dated srv a s).itsResponse (dated srv b t).itsResponse := by
    show Alike [dateKey] (Response.setHeader _ _ a.date) (Response.setHeader _ _ b.date)
    rw [hr]
    exact (Alike.refl _).setHeader _ (Or.inr (List.mem_singleton_self _))
  have hfield : keepAliveField srv t = keepAliveField srv s := by
    unfold keepAliveField
    rw [h.count]
  have hkeep : negotiatedKeepAlive (dated srv b t) = negotiatedKeepAlive (dated srv a s) := by
    have h1 : (dated srv b t).itsKeepAlive = (dated srv a s).itsKeepAlive := h.keepAlive
    have h2 : (dated srv b t).itsResponseVersion = (dated srv a s).itsResponseVersion := h.version
    unfold negotiatedKeepAlive
    rw [h1, h2, hdated.chunked, hdated.getHeader hconnection]
  refine alike_appendStaleDirectives srv ?_
  show Alike [dateKey]
    (announce (negotiatedKeepAlive (dated srv a s)) s.itsResponseVersion (keepAliveField srv s)
      (if (dated srv a s).itsResponse.chunked then (dated srv a s).itsResponse
        else (dated srv a s).itsResponse.setVersion s.itsResponseVersion.text))
    (announce (negotiatedKeepAlive (dated srv b t)) t.itsResponseVersion (keepAliveField srv t)
      (if (dated srv b t).itsResponse.chunked then (dated srv b t).itsResponse
        else (dated srv b t).itsResponse.setVersion t.itsResponseVersion.text))
  rw [hkeep, hfield, h.version, hdated.chunked]
  refine alike_announce ?_ _ _ _
  split
  · exact hdated
  · exact hdated.setVersion _

/-! ## The reply paths -/

theorem alike_encodeResponse {q q' : Request} {r r' : Response} (h : Alike [dateKey] r r')
    (hparams : q'.parameters = q.parameters)
    (hselect : srv.spine.selectContentEncoding q' = srv.spine.selectContentEncoding q) :
    Alike [dateKey] (encodeResponse srv q r) (encodeResponse srv q' r') := by
  have hencoding : asciiToLower "Content-Encoding".toList ∉ [dateKey] := by decide
  have htype : asciiToLower "Content-Type".toList ∉ [dateKey] := by decide
  have htag : asciiToLower "ETag".toList ∉ [dateKey] := by decide
  have hcoding : selectContentEncoding srv.spine q' r' srv.itsCompressLimit srv.contentCodings
      = selectContentEncoding srv.spine q r srv.itsCompressLimit srv.contentCodings := by
    unfold selectContentEncoding Request.getParameter
    rw [h.getHeader hencoding, h.getHeader htype, h.getContentLength, hparams, hselect]
  have hcompress : ∀ coding, Alike [dateKey] (compressResponse srv.spine r coding)
      (compressResponse srv.spine r' coding) := by
    intro coding
    have hset : Alike [dateKey]
        ((r.setContent srv.spine (srv.spine.compress coding r.getContent)).setHeader
          "Content-Encoding".toList coding)
        ((r'.setContent srv.spine (srv.spine.compress coding r'.getContent)).setHeader
          "Content-Encoding".toList coding) := by
      rw [h.getContent]
      exact (h.setContent _ _).setHeader _ (Or.inl rfl)
    unfold compressResponse
    dsimp only
    rw [hset.getHeader htag]
    split
    · exact hset.setHeader _ (Or.inl rfl)
    · exact hset
  unfold encodeResponse
  rw [h.hasStreamContent, hcoding]
  split
  · dsimp only
    split
    · exact h
    · exact hcompress _
  · exact h

/-! ## The header section a handler's response goes out with -/

/-- Between `s` and `t` the header section of `r` goes out, and no other one of a
handler's response. -/
def Emits (s t : AsyncConnection) (r : Response) : Prop :=
  ∃ new, t.world.trace = new ++ s.world.trace ∧
    ∀ r' head, .rendered .handler r' head ∈ new ↔ r' = r ∧ head = srv.spine.headerSection r

/-- No header section of a handler's response. -/
def Headless (o : Obs) : Prop := ∀ r head, o ≠ .rendered .handler r head

theorem headless_of_chunkEvent {p : Prop} {o : Obs} (h : ChunkEvent p o) : Headless o := by
  rintro r head rfl
  rcases h with h | ⟨h, -⟩
  · exact h
  · cases h

/-- The last call. -/
theorem trail_headless {s : AsyncConnection} {e : Event} {x : Outcome}
    (hx : Tail.step srv s e = some x) : Trail Headless x.state (x.run srv e.answers) := by
  have hfinish : ∀ {o}, FinishEvent o → Headless o := by
    rintro o (rfl | ⟨g, n, rfl⟩)
    all_goals exact fun _ _ => (by simp)
  cases x with
  | stop t => exact Trail.refl t
  | finish t => exact (trail_finishResponse srv t).mono fun _ => hfinish
  | reply m t books =>
    have hm := (own_message hx).1
    refine ((trail_sendSimpleReply srv e.answers m t).mono ?_).trans
      ((stretch_keep books _).toTrail.mono fun o ho =>
        headless_of_chunkEvent (p := False) (Or.inl ho))
    rintro o (⟨r, rfl⟩ | ⟨b, rfl⟩ | rfl | rfl | ho) r' head
    · intro heq
      obtain ⟨rfl, -⟩ := Obs.rendered.inj heq
      exact hm rfl
    · rintro ⟨⟩
    · rintro ⟨⟩
    · rintro ⟨⟩
    · exact hfinish ho r' head

theorem emits_of_trail {s u t : AsyncConnection} {r : Response} {old : List Obs}
    (hu : u.world.trace = .rendered .handler r (srv.spine.headerSection r) :: old ++ s.world.trace)
    (hold : ∀ o ∈ old, Headless o) (ht : Trail Headless u t) : Emits srv s t r := by
  obtain ⟨new, hnew, hev⟩ := ht.events
  refine ⟨new ++ .rendered .handler r (srv.spine.headerSection r) :: old, ?_, fun r' head => ?_⟩
  · rw [hnew, hu, List.append_assoc]
  · refine ⟨fun hmem => ?_, ?_⟩
    · rcases List.mem_append.mp hmem with hmem | hmem
      · exact absurd rfl ((hev _ hmem).1 r' head)
      · rcases List.mem_cons.mp hmem with heq | hmem
        · obtain ⟨-, rfl, rfl⟩ := Obs.rendered.inj heq
          exact ⟨rfl, rfl⟩
        · exact absurd rfl (hold _ hmem r' head)
    · rintro ⟨rfl, rfl⟩
      exact List.mem_append_right _ (List.mem_cons_self ..)

/-- **The header section of a handler's response** that goes out when the pool thread
runs the task of its request. -/
theorem emits_runTask {s s' : AsyncConnection} (hinv : Inv srv s) {i : ℕ} {a : Answers}
    (hstep : step srv s (.runTask i a) = some s') {pool : Pool} {view : HandlerView}
    (hi : s.world.outstanding[i]? = some (.task pool (.handleCompletedRead view)))
    (hopen : s.world.socket ≠ .closed) {h : Response} (ha : a.handler = .returned true h false)
    (hpath : replyPath s.itsHeadRequest h ≠ .gateway) :
    Emits srv s s' (sentResponse srv (replyPath s.itsHeadRequest h)
      (setServerHeaders srv a { s with itsResponse := h })) := by
  obtain ⟨x, hx, rfl⟩ := exists_outcome srv hstep
  have hrun := trail_headless srv hx
  obtain ⟨hrel, hc, -⟩ := hinv.released srv hi
  let t := cancelTimer s.bare
  let u := (t.emit (.clientStarted t.itsRequest.clientIP)).emit (.dispatched t.itsRequest)
  let w : AsyncConnection := { u.emit (.handled h) with itsResponse := h }
  -- the task goes straight to the reply: the socket is open, the handler returns
  have hw : x = Tail.startReply srv a w := by
    simp only [Tail.step, hi, hrel] at hx
    rw [← Option.some.inj hx]
    show Tail.handleCompletedRead srv a t = _
    unfold Tail.handleCompletedRead
    have hcon : t.itsPrematurelyDisconnected = false := hc.connected
    have ht : t.world.socket ≠ .closed := hopen
    rw [if_neg (by rw [hcon]; simp), if_neg ht, Tail.callHandler_eq]
    unfold Tail.returnFromHandler
    rw [ha]
    rfl
  have hold : ∀ path, ∀ o ∈ ([.started path, .handled h, .dispatched t.itsRequest,
      .clientStarted t.itsRequest.clientIP] : List Obs), Headless o := by
    intro path o ho r head
    simp only [List.mem_cons, List.not_mem_nil, or_false] at ho
    rcases ho with rfl | rfl | rfl | rfl
    all_goals rintro ⟨⟩
  rw [startReply_path] at hw
  rw [hw] at hrun ⊢
  cases hp : replyPath s.itsHeadRequest h with
  | gateway => exact absurd hp hpath
  | regular =>
    have hroute : replyPath w.itsHeadRequest w.itsResponse = .regular := hp
    rw [hroute] at hrun ⊢
    refine emits_of_trail srv ?_ (hold .regular) hrun
    show Obs.rendered .handler (renderHeaders srv _).1 (renderHeaders srv _).2 :: _ = _
    rw [renderHeaders_snd]
    rfl
  | stream =>
    have hroute : replyPath w.itsHeadRequest w.itsResponse = .stream := hp
    rw [hroute] at hrun ⊢
    let v := setServerHeaders srv a (w.emit (.started .stream))
    let p : AsyncConnection := preparePendingHeaders srv { v with
      itsDeclaredContentLength := v.itsResponse.getContentLength
      itsResponse := v.itsResponse.setHeader "Content-Length".toList
        (toDecimal v.itsResponse.getContentLength) }
    refine emits_of_trail srv (u := p) ?_ (hold .stream)
      (((stretch_getNextChunk srv a p).toTrail.mono fun o => headless_of_chunkEvent).trans hrun)
    show Obs.rendered .handler (renderHeaders srv _).1 (renderHeaders srv _).2 :: _ = _
    rw [renderHeaders_snd]
    rfl
  | chunked =>
    have hroute : replyPath w.itsHeadRequest w.itsResponse = .chunked := hp
    rw [hroute] at hrun ⊢
    let v := setServerHeaders srv a (w.emit (.started .chunked))
    let p : AsyncConnection := preparePendingHeaders srv { v with
      itsResponse := (v.itsResponse.setHeader "Transfer-Encoding".toList
        "chunked".toList).removeHeader "Content-Length".toList }
    refine emits_of_trail srv (u := p) ?_ (hold .chunked)
      (((stretch_getNextChunkedChunk srv a p).toTrail.mono fun o => headless_of_chunkEvent).trans
        hrun)
    show Obs.rendered .handler (renderHeaders srv _).1 (renderHeaders srv _).2 :: _ = _
    rw [renderHeaders_snd]
    rfl

/-! ## The two header sections -/

/-- The key of the field that names the transfer coding. -/
def codingKey : Bytes := asciiToLower "Transfer-Encoding".toList

/-- The fields in which the answer to a HEAD may differ from that to a GET sent on
`path`. -/
def twinKeys (path : ReplyPath) : List Bytes :=
  if path = .chunked then [dateKey, codingKey] else [dateKey]

variable {srv}

/-- A response with a status that permits content is encoded and framed. -/
theorem sentResponse_regular {t : AsyncConnection} (hset : t.itsResponse.status.isSome)
    (hbody : statusHasNoBody t.itsResponse.status = false) :
    sentResponse srv .regular t = frameResponse srv t.itsHeadRequest (encoded srv t) := by
  have hst : (encoded srv t).status = t.itsResponse.status :=
    (sameFraming_encodeResponse srv t.itsRequest t.itsResponse).status
  have hecho : echoETag srv t.itsRequest (encoded srv t) = encoded srv t := by
    unfold echoETag
    rw [if_neg]
    intro hn
    rw [hst] at hn
    rw [hn] at hbody
    cases hbody
  show (renderHeaders srv (frameResponse srv t.itsHeadRequest
    (echoETag srv t.itsRequest (encoded srv t)))).1 = _
  rw [hecho]
  exact renderHeaders_fst srv (by rw [frameResponse_status, hst]; exact hset)

/-- A streamed response is not encoded. -/
theorem encoded_of_stream {t : AsyncConnection} (h : t.itsResponse.hasStreamContent = true) :
    encoded srv t = t.itsResponse := by
  unfold encoded encodeResponse
  rw [h, if_neg (by simp)]

/-- The fields of two framed responses are the same unless one of them loses its
length. -/
theorem alike_frameResponse {r r' : Response} (h : Alike [dateKey] r r')
    (hbody : statusHasNoBody r.status = false) (hc : r.chunked = false) :
    Alike [dateKey] (frameResponse srv false r) (frameResponse srv true r') := by
  have hb : ¬ statusHasNoBody r.status = true := by rw [hbody]; simp
  unfold frameResponse
  rw [h.status, h.chunked, hc, if_neg hb, if_neg hb, if_neg (by simp), if_neg (by simp),
    h.getContentLength]
  exact h.setHeader _ (Or.inl rfl)

/-- The answer to a HEAD says nothing of the length of a response that is marked
chunked, and that to a GET of a response at hand does. -/
theorem frameResponse_differs {keys : List Bytes} {r r' : Response}
    (hbody : statusHasNoBody r.status = false) (hst : r'.status = r.status)
    (hc : r'.chunked = true) (hk : asciiToLower "Content-Length".toList ∉ keys) :
    ¬ SameSection keys (frameResponse srv false r) (frameResponse srv true r') := by
  have hb : ¬ statusHasNoBody r.status = true := by rw [hbody]; simp
  intro h
  have hget := congrArg (Option.map Prod.snd) (h.lookup _ hk)
  change (frameResponse srv true r').getHeader _ = (frameResponse srv false r).getHeader _ at hget
  unfold frameResponse at hget
  rw [hst, hc, if_neg hb, if_neg hb, if_pos (by simp), if_neg (by simp)] at hget
  have hlength : (r.setHeader "Content-Length".toList (toDecimal r.getContentLength)).getHeader
      "Content-Length".toList = some _ := HeaderMap.get_set_self _ _ _
  have hnone : ((r'.removeHeader "Content-Length".toList).removeHeader
      "Transfer-Encoding".toList).getHeader "Content-Length".toList = none :=
    (HeaderMap.get_remove_of_ne _ coding_ne_length.symm).trans (HeaderMap.get_remove_self _ _)
  rw [hlength, hnone] at hget
  cases hget

/-- A response in chunks, and the answer to the HEAD. -/
theorem sameSection_chunked {r r' : Response} (h : Alike [dateKey] r r') :
    SameSection [dateKey, codingKey]
      ((r.setHeader "Transfer-Encoding".toList "chunked".toList).removeHeader
        "Content-Length".toList)
      ((r'.removeHeader "Content-Length".toList).removeHeader "Transfer-Encoding".toList) := by
  refine ⟨h.status, h.version, fun k hk => ?_⟩
  simp only [List.mem_cons, List.not_mem_nil, or_false, not_or] at hk
  obtain ⟨hdate, hcoding⟩ := hk
  change ¬ k = asciiToLower "Transfer-Encoding".toList at hcoding
  show ((r'.headers.remove _).remove _).lookup k = ((r.headers.set _ _).remove _).lookup k
  rw [HeaderMap.lookup_remove, HeaderMap.lookup_remove, HeaderMap.lookup_remove,
    HeaderMap.lookup_set, if_neg hcoding, if_neg hcoding, h.lookup k (by simpa using hdate)]

/-- The members of a request that was taken up. -/
theorem Traced.taken {s : AsyncConnection} (h : Traced srv s) {q : Request}
    (hq : s.exchange.requests = [q]) (ho : s.world.outstanding ≠ []) :
    (∃ ip, s.itsRequest = handedOn q ip) ∧ s.itsRequestCount = (past s.world.trace).length + 1 ∧
      s.itsResponseVersion = negotiateVersion srv.spine q.version := by
  rcases h.stage with hl | hl
  · cases hl with
    | reading hr hc hk hv =>
      rw [hr] at hq
      cases hq
    | taken q' ip hr hi hc hv hk =>
      obtain rfl := List.singleton_inj.mp (hr.symm.trans hq)
      exact ⟨⟨ip, hi⟩, hc, hv⟩
  · exact absurd hl.outstanding ho

/-- The negotiation of the content coding does not depend on the method. -/
theorem selectContentEncoding_twin {sp : Spine} (hsp : sp.NegotiatesByAcceptEncoding) (q : Request)
    (ip ip' : Bytes) : sp.selectContentEncoding (handedOn { q with method := .head } ip')
      = sp.selectContentEncoding (handedOn q ip) := by
  refine hsp _ _ ?_
  have hne : asciiToLower "Accept-Encoding".toList ≠ asciiToLower originalMethod := by decide
  unfold HeaderMap.get
  rw [lookup_handedOn, lookup_handedOn, if_neg hne, if_neg hne]

/-- The header sections of the two responses, compared. -/
theorem sameSection_sentResponse {s t : AsyncConnection} {h : Response} {q : Request}
    {ip ip' : Bytes} (halike : Alike [dateKey] s.itsResponse t.itsResponse)
    (hsame : SameBody h s.itsResponse) (hset : h.status.isSome)
    (hbody : statusHasNoBody h.status = false) (hgateway : h.isGatewayResponse = false)
    (hs : s.itsRequest = handedOn q ip) (ht : t.itsRequest = handedOn { q with method := .head } ip')
    (hms : s.itsHeadRequest = false) (hmt : t.itsHeadRequest = true)
    (hsp : srv.spine.NegotiatesByAcceptEncoding) :
    SameSection (twinKeys (replyPath false h)) (sentResponse srv (replyPath false h) s)
        (sentResponse srv .regular t) ↔
      h.hasStreamContent = true ∨ (encoded srv s).chunked = false := by
  have hset' : s.itsResponse.status.isSome := by rw [hsame.status]; exact hset
  have hbody' : statusHasNoBody s.itsResponse.status = false := by rw [hsame.status]; exact hbody
  have hstream : s.itsResponse.hasStreamContent = h.hasStreamContent := by
    unfold Response.hasStreamContent
    rw [hsame.content]
  have hright : sentResponse srv .regular t = frameResponse srv true (encoded srv t) := by
    rw [sentResponse_regular (by rw [halike.status]; exact hset')
      (by rw [halike.status]; exact hbody'), hmt]
  -- the coding is chosen by the fields of the request, not by its method
  have hencoded : Alike [dateKey] (encoded srv s) (encoded srv t) := by
    refine alike_encodeResponse srv halike ?_ ?_
    · rw [hs, ht, (handsOn_handedOn q ip).rest.2.2.2, (handsOn_handedOn _ ip').rest.2.2.2]
    · rw [hs, ht]
      exact selectContentEncoding_twin hsp q ip ip'
  have hstatus : (encoded srv s).status = s.itsResponse.status :=
    (sameFraming_encodeResponse srv s.itsRequest s.itsResponse).status
  have hencbody : statusHasNoBody (encoded srv s).status = false := by rw [hstatus]; exact hbody'
  cases hc : h.hasStreamContent with
  | false =>
    have hroute : replyPath false h = .regular := replyPath_regular.mpr (Or.inr hc)
    have hleft : sentResponse srv .regular s = frameResponse srv false (encoded srv s) := by
      rw [sentResponse_regular hset' hbody', hms]
    rw [hroute, hleft, hright]
    cases hch : (encoded srv s).chunked with
    | false =>
      refine iff_of_true ?_ (Or.inr rfl)
      exact (alike_frameResponse hencoded hencbody hch).sameSection
    | true =>
      -- a response marked as chunked loses its length for HEAD only
      refine iff_of_false ?_ (by simp)
      exact frameResponse_differs hencbody hencoded.status (hencoded.chunked.trans hch) (by decide)
  | true =>
    refine iff_of_true ?_ (Or.inl rfl)
    have hes : encoded srv s = s.itsResponse := encoded_of_stream (hstream.trans hc)
    have het : encoded srv t = t.itsResponse :=
      encoded_of_stream (halike.hasStreamContent.trans (hstream.trans hc))
    rw [hright, het]
    rw [hes] at hencbody
    rw [hes, het] at hencoded
    have hbt : ¬ statusHasNoBody t.itsResponse.status = true := by
      rw [halike.status, hbody']
      simp
    cases hch : h.chunked with
    | true =>
      have hroute : replyPath false h = .chunked := by
        unfold replyPath
        rw [hc, hgateway, hch]
        rfl
      have hcht : t.itsResponse.chunked = true :=
        halike.chunked.trans (hsame.chunked.trans hch)
      have hleft : sentResponse srv .chunked s = (s.itsResponse.setHeader "Transfer-Encoding".toList
          "chunked".toList).removeHeader "Content-Length".toList := renderHeaders_fst srv hset'
      rw [hroute, hleft]
      unfold frameResponse
      rw [if_neg hbt, if_pos (by rw [hcht]; rfl)]
      exact sameSection_chunked hencoded
    | false =>
      have hroute : replyPath false h = .stream := by
        unfold replyPath
        rw [hc, hgateway, hch]
        rfl
      have hleft : sentResponse srv .stream s = frameResponse srv false s.itsResponse := by
        unfold frameResponse
        rw [if_neg (by rw [hbody']; simp), if_neg (by simp)]
        exact renderHeaders_fst srv hset'
      rw [hroute, hleft]
      exact (alike_frameResponse hencoded hencbody (hsame.chunked.trans hch)).sameSection

/-- **A HEAD is answered with the header section of the GET.**  In the same state of the
connection, and for a response of the handler with a status that permits content, the
two differ in the date and, for a response in chunks, in the transfer coding only,
exactly when the content is a stream or is no longer marked chunked once it is encoded.
The streamer of the answer to the HEAD is never asked. -/
theorem head_like_get {s t s' t' : AsyncConnection} (hs : Reachable srv s) (ht : Reachable srv t)
    {q : Request} (hq : s.exchange.requests = [q]) (hm : q.method ≠ .head)
    (hq' : t.exchange.requests = [{ q with method := .head }])
    (hkeep : t.itsKeepAlive = s.itsKeepAlive)
    (hpast : (past t.world.trace).length = (past s.world.trace).length)
    {i j : ℕ} {pool pool' : Pool} {view view' : HandlerView}
    (hi : s.world.outstanding[i]? = some (.task pool (.handleCompletedRead view)))
    (hj : t.world.outstanding[j]? = some (.task pool' (.handleCompletedRead view')))
    (hopen : s.world.socket ≠ .closed) (hopen' : t.world.socket ≠ .closed)
    {a b : Answers} {h : Response} (ha : a.handler = .returned true h false)
    (hb : b.handler = .returned true h false)
    (hstep : step srv s (.runTask i a) = some s') (hstep' : step srv t (.runTask j b) = some t')
    (hgateway : h.isGatewayResponse = false) (hset : h.status.isSome)
    (hbody : statusHasNoBody h.status = false) (hsp : srv.spine.NegotiatesByAcceptEncoding) :
    (∃ r r', Emits srv s s' r ∧ Emits srv t t' r' ∧
      (SameSection (twinKeys (replyPath false h)) r r' ↔
        h.hasStreamContent = true ∨
          (encoded srv (setServerHeaders srv a { s with itsResponse := h })).chunked = false)) ∧
    ∀ es v, runFrom srv t' es = some v → ∀ x ∈ exchanges v.world.trace,
      x.requests = [{ q with method := .head }] → x.chunks = [] ∧ x.ended = none := by
  obtain ⟨hinv, htr⟩ := traced_reachable srv hs
  obtain ⟨hinv', htr'⟩ := traced_reachable srv ht
  have ho : s.world.outstanding ≠ [] := fun hn => by simp [hn] at hi
  have ho' : t.world.outstanding ≠ [] := fun hn => by simp [hn] at hj
  obtain ⟨⟨ip, hreq⟩, hcount, hversion⟩ := htr.taken hq ho
  obtain ⟨⟨ip', hreq'⟩, hcount', hversion'⟩ := htr'.taken hq' ho'
  have hhead : s.itsHeadRequest = false := by
    obtain ⟨q₁, hq₁, hhead⟩ := (show Queued srv s.bare from (hinv.released srv hi).2.2).request
    obtain rfl := List.singleton_inj.mp (hq₁.symm.trans hq)
    exact hhead.trans (decide_eq_false hm)
  have hhead' : t.itsHeadRequest = true := by
    obtain ⟨q₁, hq₁, hhead⟩ := (show Queued srv t.bare from (hinv'.released srv hj).2.2).request
    obtain rfl := List.singleton_inj.mp (hq₁.symm.trans hq')
    exact hhead.trans (decide_eq_true rfl)
  -- the reply to the GET is no gateway's, as the response is none
  have hnot : replyPath s.itsHeadRequest h ≠ .gateway := by
    rw [hhead]
    unfold replyPath
    rw [hgateway]
    cases h.hasStreamContent with
    | false => simp
    | true =>
      cases h.chunked with
      | false => simp
      | true => simp
  have hroute₀ : replyPath s.itsHeadRequest h = replyPath false h := by rw [hhead]
  have hroute : replyPath t.itsHeadRequest h = .regular := by rw [hhead']; rfl
  have hemits := emits_runTask srv hinv hstep hi hopen ha hnot
  have hemits' := emits_runTask srv hinv' hstep' hj hopen' hb (by rw [hroute]; simp)
  rw [hroute₀] at hemits
  rw [hroute] at hemits'
  refine ⟨⟨_, _, hemits, hemits', ?_⟩, ?_⟩
  · -- the two connections have counted as many requests, and persist alike
    have hsame : SameState { s with itsResponse := h } { t with itsResponse := h } :=
      ⟨hkeep, by rw [hversion, hversion'], by rw [hcount, hcount', hpast]⟩
    exact sameSection_sentResponse (alike_setServerHeaders srv hsame rfl a b)
      (sameBody_setServerHeaders srv a { s with itsResponse := h }) hset hbody hgateway
      hreq hreq' hhead hhead' hsp
  · intro es v hrun x hx hqx
    obtain ⟨es₀, hrun₀⟩ := ht
    exact head_unpulled srv ⟨es₀ ++ .runTask j b :: es, Transition.run_append hrun₀
      (Transition.run_cons.mpr ⟨t', hstep', hrun⟩)⟩ hx hqx rfl

/-- A request for `/x` that waits for a pool thread. -/
def waitingRun (method : String) : List Event :=
  [.receive 0 (method.toList ++ " /x HTTP/1.1\r\nHost: h\r\n\r\n".toList),
    .runRead 0 MinimalSpine.answers]

/-- The handler leaves the response `h`. -/
def leaving (h : Response) : Answers :=
  { MinimalSpine.answers with handler := .returned true h false }

/-- Two requests that differ in the method, computed. -/
def differInMethod (q q' : Request) : Bool :=
  q.method == .get && q'.method == .head && q'.resource == q.resource && q'.version == q.version &&
    q'.headers.entries == q.headers.entries && q'.content == q.content &&
    q'.parameters == q.parameters && q'.clientIP == q.clientIP

theorem eq_of_differInMethod {q q' : Request} (h : differInMethod q q' = true) :
    q.method = .get ∧ q' = { q with method := .head } := by
  simp only [differInMethod, Bool.and_eq_true, beq_iff_eq] at h
  obtain ⟨⟨⟨⟨⟨⟨⟨hm, hm'⟩, hr⟩, hv⟩, hh⟩, hc⟩, hp⟩, hip⟩ := h
  refine ⟨hm, ?_⟩
  cases q
  cases q'
  simp only [Request.mk.injEq]
  exact ⟨hm', hr, hv, AList.ext hh, hc, hp, hip⟩

/-- The handler view of the path that is served. -/
def servedView : HandlerView := { isCatchNoMatch := false, isAdminQuery := false, queryIsFast := true }

/-- Two connections in the same state, but for the method of the request that waits,
computed. -/
def waitAlike (s t : AsyncConnection) : Bool :=
  s.exchange.requests.length == 1 && t.exchange.requests.length == 1 &&
    (s.exchange.requests.zip t.exchange.requests).all (fun p => differInMethod p.1 p.2) &&
    t.itsKeepAlive == s.itsKeepAlive &&
    (past t.world.trace).length == (past s.world.trace).length &&
    s.world.outstanding == [.task .fast (.handleCompletedRead servedView)] &&
    t.world.outstanding == [.task .fast (.handleCompletedRead servedView)] &&
    s.world.socket == .open && t.world.socket == .open

/-- A GET and a HEAD that wait for a pool thread in the same state of the connection. -/
theorem waiting_twins (P : AsyncConnection → AsyncConnection → Bool)
    (hP : (runFrom MinimalSpine.server (start MinimalSpine.server) (waitingRun "GET")).any
      (fun s => (runFrom MinimalSpine.server (start MinimalSpine.server) (waitingRun "HEAD")).any
        fun t => waitAlike s t && P s t) = true) :
    ∃ s t q, runFrom MinimalSpine.server (start MinimalSpine.server) (waitingRun "GET") = some s ∧
      runFrom MinimalSpine.server (start MinimalSpine.server) (waitingRun "HEAD") = some t ∧
      s.exchange.requests = [q] ∧ q.method ≠ .head ∧
      t.exchange.requests = [{ q with method := .head }] ∧ t.itsKeepAlive = s.itsKeepAlive ∧
      (past t.world.trace).length = (past s.world.trace).length ∧
      s.world.outstanding[0]? = some (.task .fast (.handleCompletedRead servedView)) ∧
      t.world.outstanding[0]? = some (.task .fast (.handleCompletedRead servedView)) ∧
      s.world.socket ≠ .closed ∧ t.world.socket ≠ .closed ∧ P s t = true := by
  obtain ⟨s, hs, hall⟩ := (Option.any_eq_true _ _).mp hP
  obtain ⟨t, ht, hall⟩ := (Option.any_eq_true _ _).mp hall
  obtain ⟨hall, hst⟩ := Bool.and_eq_true _ _ |>.mp hall
  simp only [waitAlike, Bool.and_eq_true, beq_iff_eq] at hall
  obtain ⟨⟨⟨⟨⟨⟨⟨⟨hlen, hlen'⟩, hzip⟩, hkeep⟩, hpast⟩, hout⟩, hout'⟩, hopen⟩, hopen'⟩ := hall
  obtain ⟨q, hq⟩ := List.length_eq_one_iff.mp hlen
  obtain ⟨q', hq'⟩ := List.length_eq_one_iff.mp hlen'
  rw [hq, hq'] at hzip
  obtain ⟨hm, rfl⟩ := eq_of_differInMethod (by simpa using hzip)
  exact ⟨s, t, q, hs, ht, hq, by rw [hm]; simp, hq', hkeep, hpast, by rw [hout]; rfl,
    by rw [hout']; rfl, by rw [hopen]; simp, by rw [hopen']; simp, hst⟩

/-- Content at hand, and the mark of a response in chunks. -/
def markedResponse : Response :=
  { status := some 200, content := .buffer "a".toList, chunked := true }

/-- A stream of announced length. -/
theorem head_like_get_stream :
    ∃ s t s' t' q, s.exchange.requests = [q] ∧
      t.exchange.requests = [{ q with method := .head }] ∧
      step MinimalSpine.server s (.runTask 0 (leaving { status := some 200, content := .stream 1 }))
        = some s' ∧
      step MinimalSpine.server t (.runTask 0 (leaving { status := some 200, content := .stream 1 }))
        = some t' ∧
      ∃ r r', Emits MinimalSpine.server s s' r ∧ Emits MinimalSpine.server t t' r' ∧
        SameSection [dateKey] r r' := by
  obtain ⟨s, t, q, hs, ht, hq, hm, hq', hkeep, hpast, hi, hj, hopen, hopen', -⟩ :=
    waiting_twins (fun _ _ => true) (by decide +kernel)
  let h : Response := { status := some 200, content := .stream 1 }
  obtain ⟨s', hs'⟩ : ∃ s', step MinimalSpine.server s (.runTask 0 (leaving h)) = some s' := by
    simp only [step, hi]
    exact ⟨_, rfl⟩
  obtain ⟨t', ht'⟩ : ∃ t', step MinimalSpine.server t (.runTask 0 (leaving h)) = some t' := by
    simp only [step, hj]
    exact ⟨_, rfl⟩
  obtain ⟨⟨r, r', hr, hr', hiff⟩, -⟩ := head_like_get ⟨_, hs⟩ ⟨_, ht⟩ hq hm hq' hkeep hpast hi hj
    hopen hopen' (h := h) rfl rfl hs' ht' rfl rfl (by decide) fun _ _ _ => rfl
  exact ⟨s, t, s', t', q, hq, hq', hs', ht', r, r', hr, hr', hiff.mpr (Or.inl rfl)⟩

/-- One header section of a handler's response, and the length it announces, computed. -/
def headed (length : Option Bytes) (s : AsyncConnection) : Bool :=
  s.exchange.heads.length == 1 && s.exchange.heads.all fun p => p.1 == .handler &&
    p.2.1.getHeader "Content-Length".toList == length

theorem head_of_headed {length : Option Bytes} {s : AsyncConnection} (h : headed length s = true) :
    ∃ r head, s.exchange.heads = [(.handler, r, head)] ∧
      r.getHeader "Content-Length".toList = length := by
  simp only [headed, Bool.and_eq_true, beq_iff_eq, List.all_eq_true] at h
  obtain ⟨hlen, hall⟩ := h
  obtain ⟨⟨m, r, head⟩, hheads⟩ := List.length_eq_one_iff.mp hlen
  obtain ⟨hm, hl⟩ := hall (m, r, head) (by rw [hheads]; exact List.mem_singleton_self _)
  exact ⟨r, head, by rw [hheads, show m = .handler from hm], hl⟩

/-- Content at hand, and the mark of a response in chunks: the GET is told of its
length, the HEAD is not. -/
theorem head_unlike_get :
    ∃ s t s' t', Reachable MinimalSpine.server s ∧ Reachable MinimalSpine.server t ∧
      (∃ q, s.exchange.requests = [q] ∧ q.method ≠ .head ∧
        t.exchange.requests = [{ q with method := .head }]) ∧
      step MinimalSpine.server s (.runTask 0 (leaving markedResponse)) = some s' ∧
      step MinimalSpine.server t (.runTask 0 (leaving markedResponse)) = some t' ∧
      ∃ r r' head head', s'.exchange.heads = [(.handler, r, head)] ∧
        t'.exchange.heads = [(.handler, r', head')] ∧
        r.getHeader "Content-Length".toList = some "1".toList ∧
        r'.getHeader "Content-Length".toList = none ∧
        ¬ SameSection (twinKeys (replyPath false markedResponse)) r r' := by
  obtain ⟨s, t, q, hs, ht, hq, hm, hq', -, -, -, -, -, -, hP⟩ := waiting_twins
    (fun s t =>
      (step MinimalSpine.server s (.runTask 0 (leaving markedResponse))).any
        (headed (some "1".toList)) &&
      (step MinimalSpine.server t (.runTask 0 (leaving markedResponse))).any (headed none))
    (by decide +kernel)
  obtain ⟨hP, hP'⟩ := Bool.and_eq_true _ _ |>.mp hP
  obtain ⟨s', hs', hP⟩ := (Option.any_eq_true _ _).mp hP
  obtain ⟨t', ht', hP'⟩ := (Option.any_eq_true _ _).mp hP'
  obtain ⟨r, head, hheads, hlength⟩ := head_of_headed hP
  obtain ⟨r', head', hheads', hlength'⟩ := head_of_headed hP'
  refine ⟨s, t, s', t', ⟨_, hs⟩, ⟨_, ht⟩, ⟨q, hq, hm, hq'⟩, hs', ht', r, r', head, head', hheads,
    hheads', hlength, hlength', fun h => ?_⟩
  have hkey : asciiToLower "Content-Length".toList ∉ twinKeys (replyPath false markedResponse) := by
    decide
  have hget := congrArg (Option.map Prod.snd) (h.lookup _ hkey)
  change r'.getHeader _ = r.getHeader _ at hget
  rw [hlength, hlength'] at hget
  cases hget

end AsyncConnection

end SmartMet
