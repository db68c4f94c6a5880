/-
# The framing fields of a handler's response

Which of `Content-Length` and `Transfer-Encoding` goes out depends on the reply path,
on the status and on what the handler has set itself.  Three rules are settled here:
a response whose status permits no content, a message that is framed once, and the
length that is announced with the status the server puts in the place of none.
-/
import SmartMetServer.Bodies
import SmartMetServer.ChunkedReply
import SmartMetServer.ContentCodings
import SmartMetServer.MinimalSpine
import SmartMetServer.Origins

namespace SmartMet

open Exchange ChunkedCoding

/-- Decimal digits tell the number. -/
theorem toDecimal_inj {m n : ℕ} : toDecimal m = toDecimal n ↔ m = n := by
  refine ⟨fun h => ?_, fun h => congrArg toDecimal h⟩
  have hdigits := congrArg (fun b => Nat.ofDigitChars 10 b 0) h
  simpa only [toDecimal, Nat.ofDigitChars_ten_toDigits] using hdigits

/-- The two framing fields. -/
def Response.framing (r : Response) : Option Bytes × Option Bytes :=
  (r.getHeader "Content-Length".toList, r.getHeader "Transfer-Encoding".toList)

namespace Exchange

/-- The content of an exchange as it is. -/
def contents (x : Exchange) (r : Response) : Bytes :=
  if x.path = some .stream then x.chunks.flatten else x.body r

/-- The header section of `r` announces one framing, and `content` is sent with it: the
announced length is its length (nothing is sent behind the header section of a HEAD), and
a transfer coding is that of one complete chunked message. -/
structure FramedOnce (x : Exchange) (r : Response) (content : Bytes) : Prop where
  once : r.getHeader "Content-Length".toList = none ∨ r.getHeader "Transfer-Encoding".toList = none
  length : ∀ v, r.getHeader "Content-Length".toList = some v →
    (∀ q ∈ x.requests, q.method ≠ .head) → v = toDecimal content.length
  chunked : ∀ v, r.getHeader "Transfer-Encoding".toList = some v →
    v = "chunked".toList ∧ decode content = some (x.chunks.flatten, [])

/-- The whole response was sent. -/
structure Whole (x : Exchange) : Prop where
  failed : x.failed = false
  refused : x.refused = false
  ended : x.path = some .stream → x.ended ≠ none
  closed : x.path = some .chunked → x.ended = some .exitOk

/-- A buffered reply without a failed write is sent whole. -/
theorem Whole.of_regular {x : Exchange} (hp : x.path = some .regular) (hf : x.failed = false)
    (hr : x.refused = false) : x.Whole :=
  ⟨hf, hr, fun h => absurd (hp.symm.trans h) (by simp), fun h => absurd (hp.symm.trans h) (by simp)⟩

end Exchange

namespace AsyncConnection

variable (srv : Server)

/-! ## The fields of each path -/

/-- The two framing fields have different names. -/
theorem coding_ne_length :
    asciiToLower "Transfer-Encoding".toList ≠ asciiToLower "Content-Length".toList := by
  decide

/-- A length is announced beside the coding, -/
theorem framing_setLength (r : Response) (n : ℕ) :
    (r.setHeader "Content-Length".toList (toDecimal n)).framing
      = (some (toDecimal n), r.getHeader "Transfer-Encoding".toList) := by
  refine Prod.mk.injEq _ _ _ _ |>.mpr ⟨?_, ?_⟩
  · exact HeaderMap.get_set_self _ _ _
  · exact HeaderMap.get_set_of_ne _ _ coding_ne_length

/-- both are taken out, -/
theorem framing_removed (r : Response) :
    ((r.removeHeader "Content-Length".toList).removeHeader "Transfer-Encoding".toList).framing
      = (none, none) := by
  refine Prod.mk.injEq _ _ _ _ |>.mpr ⟨?_, ?_⟩
  · exact (HeaderMap.get_remove_of_ne _ coding_ne_length.symm).trans (HeaderMap.get_remove_self _ _)
  · exact HeaderMap.get_remove_self _ _

/-- or the coding is put in the length's place. -/
theorem framing_chunked (r : Response) :
    ((r.setHeader "Transfer-Encoding".toList "chunked".toList).removeHeader
      "Content-Length".toList).framing = (none, some "chunked".toList) := by
  refine Prod.mk.injEq _ _ _ _ |>.mpr ⟨?_, ?_⟩
  · exact HeaderMap.get_remove_self _ _
  · exact (HeaderMap.get_remove_of_ne _ coding_ne_length).trans (HeaderMap.get_set_self _ _ _)

/-- Rendering leaves the framing. -/
theorem framing_renderHeaders (r : Response) : (renderHeaders srv r).1.framing = r.framing := by
  unfold Response.framing
  rw [renderHeaders_getHeader, renderHeaders_getHeader]

/-- The framing of a buffered response. -/
theorem framing_frameResponse (head : Bool) (r : Response) :
    (frameResponse srv head r).framing =
      if statusHasNoBody r.status = true ∨ head = true ∧ r.chunked = true then (none, none)
      else (some (toDecimal r.getContentLength), r.getHeader "Transfer-Encoding".toList) := by
  unfold frameResponse
  by_cases hb : statusHasNoBody r.status = true
  · rw [if_pos hb, if_pos (Or.inl hb)]
    exact framing_removed _
  rw [if_neg hb]
  by_cases hc : head = true ∧ r.chunked = true
  · rw [if_pos (by simpa using hc), if_pos (Or.inr hc)]
    exact framing_removed _
  · rw [if_neg (by simpa using hc), if_neg (fun h => h.elim hb hc)]
    exact framing_setLength _ _

/-- The tag of a 304 is no part of the framing. -/
theorem echoETag_members (q : Request) (r : Response) :
    (echoETag srv q r).content = r.content ∧ (echoETag srv q r).chunked = r.chunked := by
  unfold echoETag
  split
  · split
    · exact ⟨rfl, rfl⟩
    · exact ⟨rfl, rfl⟩
  · exact ⟨rfl, rfl⟩

/-- The response as `startRegularReply` has encoded it. -/
def encoded (s : AsyncConnection) : Response := encodeResponse srv s.itsRequest s.itsResponse

/-- **The framing fields of each path.** -/
theorem framing_sentResponse (s : AsyncConnection) :
    (sentResponse srv .regular s).framing =
        (if statusHasNoBody s.itsResponse.status = true ∨
            s.itsHeadRequest = true ∧ (encoded srv s).chunked = true then (none, none)
          else (some (toDecimal (encoded srv s).getContentLength),
            s.itsResponse.getHeader "Transfer-Encoding".toList)) ∧
      (sentResponse srv .stream s).framing =
        (some (toDecimal s.itsResponse.getContentLength),
          s.itsResponse.getHeader "Transfer-Encoding".toList) ∧
      (sentResponse srv .chunked s).framing = (none, some "chunked".toList) := by
  refine ⟨?_, ?_, ?_⟩
  · have hsame := (sameFraming_encodeResponse srv s.itsRequest s.itsResponse).trans
      (sameFraming_echoETag srv s.itsRequest _)
    obtain ⟨hcontent, hchunked⟩ := echoETag_members srv s.itsRequest (encoded srv s)
    have hlength : (echoETag srv s.itsRequest (encoded srv s)).getContentLength
        = (encoded srv s).getContentLength := by
      unfold Response.getContentLength
      rw [hcontent]
    show (renderHeaders srv (frameResponse srv s.itsHeadRequest
      (echoETag srv s.itsRequest (encoded srv s)))).1.framing = _
    rw [framing_renderHeaders, framing_frameResponse, hlength, hchunked, ← hsame.status,
      ← hsame.transferEncoding]
    rfl
  · exact (framing_renderHeaders srv _).trans (framing_setLength _ _)
  · exact (framing_renderHeaders srv _).trans (framing_chunked _)

/-- A response without content is sent at once. -/
theorem replyPath_regular {head : Bool} {h : Response} :
    replyPath head h = .regular ↔ head = true ∨ h.hasStreamContent = false := by
  unfold replyPath
  cases head with
  | true => simp
  | false =>
    cases hs : h.hasStreamContent with
    | false => simp
    | true =>
      cases h.isGatewayResponse with
      | true => simp
      | false =>
        cases h.chunked with
        | true => simp
        | false => simp

/-! ## The header section of an exchange -/

variable {srv}

/-- The state in which the response `h` to the request `q` is sent: the fields of the
server are set. -/
structure Sending (srv : Server) (q : Request) (h : Response) (t : AsyncConnection) : Prop where
  response : ∃ a s, s.itsResponse = h ∧ t = setServerHeaders srv a s
  headRequest : t.itsHeadRequest = decide (q.method = .head)
  request : ∃ ip, t.itsRequest = handedOn q ip

/-- The response that is sent is that of the handler, but for the server's fields. -/
theorem Sending.same {q : Request} {h : Response} {t : AsyncConnection} (ht : Sending srv q h t) :
    SameBody h t.itsResponse := by
  obtain ⟨a, s, rfl, rfl⟩ := ht.response
  exact sameBody_setServerHeaders srv a s

/-- What is known of an exchange whose handler's response has a header section. -/
structure Rendered (srv : Server) (x : Exchange) (q : Request) (h : Response) (r : Response)
    (head : Bytes) (path : ReplyPath) (t : AsyncConnection) : Prop
    extends Sending srv q h t where
  taken : x.path = some path
  gateway : path ≠ .gateway
  route : path = replyPath (decide (q.method = .head)) h
  sent : r = sentResponse srv path t
  headed : x.headBytes = head
  first : ∃ rest, x.heads = (.handler, r, head) :: rest

/-- Where the header section of a handler's response comes from. -/
theorem rendered_of_reachable {s : AsyncConnection} (hs : Reachable srv s) {x : Exchange}
    (hx : x ∈ exchanges s.world.trace) {q : Request} (hq : x.requests = [q]) {h : Response}
    (hh : x.handled = some h) {r : Response} {head : Bytes} (hp : (.handler, r, head) ∈ x.heads) :
    ∃ path t, Rendered srv x q h r head path t := by
  obtain ⟨hinv, ht⟩ := traced_reachable srv hs
  obtain ⟨q', h', path, hq', hh', hpath, hgateway, hroute, u, a, ip, hreq, hres, hhead, hr⟩ :=
    (ht.answered x hx).heads _ hp rfl
  obtain rfl := List.singleton_inj.mp (hq.symm.trans hq')
  obtain rfl := Option.some.inj (hh.symm.trans hh')
  have hfirst : ∃ rest, x.heads = (.handler, r, head) :: rest := by
    have htail := (sound_exchanges srv hinv hx).one_head
    generalize x.heads = heads at hp htail
    cases heads with
    | nil => cases hp
    | cons p rest =>
      rcases List.mem_cons.mp hp with rfl | hp
      · exact ⟨rest, rfl⟩
      · exact absurd rfl (htail _ hp)
  obtain ⟨rest, hheads⟩ := hfirst
  refine ⟨path, setServerHeaders srv a u, ⟨⟨a, u, hres, rfl⟩, hhead, ip, hreq⟩, hpath, hgateway,
    hroute, hr, ?_, rest, hheads⟩
  unfold headBytes
  rw [hheads]
  rfl

/-- What was sent of a response with its content at hand. -/
theorem buffered_of_reachable {s : AsyncConnection} (hs : Reachable srv s) {x : Exchange}
    (hx : x ∈ exchanges s.world.trace) : ∃ unsent, Buffered x unsent ∧ Exhausted x ∧
      (x ∈ past s.world.trace ∨ s.world.outstanding = [] → unsent = []) := by
  have hconv := conveying_reachable srv hs
  by_cases hpast : x ∈ past s.world.trace
  · exact ⟨[], (hconv.past x hpast).1, (hconv.past x hpast).2, fun _ => rfl⟩
  · obtain rfl := (mem_exchanges.mp hx).resolve_left hpast
    refine ⟨s.unsent, hconv.buffered, hconv.exhausted, fun h => ?_⟩
    unfold unsent
    rw [h.resolve_left hpast]
    rfl

/-- The header section and the content of a response that is sent at once. -/
theorem Rendered.regular {s : AsyncConnection} (hs : Reachable srv s) {x : Exchange}
    (hx : x ∈ exchanges s.world.trace) {q : Request} {h r : Response} {head : Bytes}
    {t : AsyncConnection} (hr : Rendered srv x q h r head .regular t) :
    x.handlerBytes <+: head ++ x.body r ∧
      (x.failed = false → x ∈ past s.world.trace ∨ s.world.outstanding = [] →
        x.handlerBytes = head ++ x.body r) := by
  obtain ⟨unsent, hb, -, hall⟩ := buffered_of_reachable hs hx
  obtain ⟨-, r', head', rest, hheads, hpre, hwhole⟩ := hb hr.taken
  obtain ⟨rest', hheads'⟩ := hr.first
  obtain ⟨heq, -⟩ := List.cons.inj (hheads'.symm.trans hheads)
  simp only [Prod.mk.injEq, true_and] at heq
  obtain ⟨rfl, rfl⟩ := heq
  refine ⟨hpre, fun hf hdone => ?_⟩
  rw [← hwhole hf, hall hdone, List.append_nil]

/-- On the path of a response with its content at hand the server says nothing of its
own. -/
theorem serverBytes_of_regular {s : AsyncConnection} (hs : Reachable srv s) {x : Exchange}
    (hx : x ∈ exchanges s.world.trace) (hp : x.path = some .regular) : x.out = x.handlerBytes := by
  have hsound := sound_exchanges srv (inv_reachable srv hs) hx
  obtain ⟨unsent, hb, -⟩ := buffered_of_reachable hs hx
  have hnone : x.serverBytes = [] := by
    by_contra hne
    have hrefused := (hsound.server (by rw [hp]; simp) hne).1
    rw [(hb hp).1] at hrefused
    cases hrefused
  rw [out_eq hsound.ordered, hnone, List.append_nil]

/-- A request for `/x` that the handler answers with `r`; the first write sends `n` bytes. -/
def servedRun (r : Response) (content : Option Bytes) (n : ℕ) : List Event :=
  [.receive 0 "GET /x HTTP/1.1\r\nHost: h\r\n\r\n".toList, .runRead 0 MinimalSpine.answers,
    .runTask 0 { MinimalSpine.answers with
      handler := .returned true r false, content := content },
    .writeSome 0 n MinimalSpine.answers]

/-- An exchange of a run, computed. -/
theorem reached_exchange (es : List Event) (P : Exchange → Bool)
    (h : (runFrom MinimalSpine.server (start MinimalSpine.server) es).any
      (fun s => (past s.world.trace).any P) = true) :
    ∃ s, runFrom MinimalSpine.server (start MinimalSpine.server) es = some s ∧
      ∃ x ∈ past s.world.trace, P x = true := by
  obtain ⟨s, hs, hp⟩ := MinimalSpine.reached es _ h
  exact ⟨s, hs, List.any_eq_true.mp hp⟩

/-- The parts of an exchange with one handler's response. -/
theorem parts_of_exchange {x : Exchange} {P : Response → Bool}
    (h : (x.requests.length == 1 && x.handled.any P && x.heads.any (·.1 == .handler)) = true) :
    ∃ q r r' head, x.requests = [q] ∧ x.handled = some r ∧ P r = true ∧
      (.handler, r', head) ∈ x.heads := by
  simp only [Bool.and_eq_true, beq_iff_eq, List.any_eq_true] at h
  obtain ⟨⟨hq, hr⟩, ⟨m, r', head⟩, hmem, hm⟩ := h
  obtain ⟨q, hq⟩ := List.length_eq_one_iff.mp hq
  obtain ⟨r, hr, hp⟩ := (Option.any_eq_true _ _).mp hr
  have hm' : m = .handler := hm
  subst hm'
  exact ⟨q, r, r', head, hq, hr, hp, hmem⟩

/-! ## Statuses that permit no content -/

/-- The content of a response whose status permits none is dropped. -/
theorem getContent_of_bodyless {t : AsyncConnection}
    (h : statusHasNoBody t.itsResponse.status = true) :
    (sentResponse srv .regular t).getContent = [] := by
  have hsame := (sameFraming_encodeResponse srv t.itsRequest t.itsResponse).trans
    (sameFraming_echoETag srv t.itsRequest _)
  have hst : statusHasNoBody (echoETag srv t.itsRequest
      (encodeResponse srv t.itsRequest t.itsResponse)).status = true := by
    rw [hsame.status]
    exact h
  have hset : (frameResponse srv t.itsHeadRequest (echoETag srv t.itsRequest
      (encodeResponse srv t.itsRequest t.itsResponse))).status.isSome := by
    rw [frameResponse_status]
    cases hr : (echoETag srv t.itsRequest
        (encodeResponse srv t.itsRequest t.itsResponse)).status with
    | none =>
      rw [hr] at hst
      cases hst
    | some st => rfl
  show (renderHeaders srv _).1.getContent = []
  rw [renderHeaders_fst srv hset]
  unfold frameResponse
  rw [if_pos hst]
  rfl

/-- **A status that permits no content.**  The header section carries no framing field
and nothing follows it exactly when the content of the response was at hand or the
request was a HEAD: the other paths do not look at the status. -/
theorem bodyless_status {s : AsyncConnection} (hs : Reachable srv s) {x : Exchange}
    (hx : x ∈ exchanges s.world.trace) {q : Request} (hq : x.requests = [q]) {h : Response}
    (hh : x.handled = some h) (hst : statusHasNoBody h.status = true) {r : Response} {head : Bytes}
    (hp : (.handler, r, head) ∈ x.heads) :
    (r.getHeader "Content-Length".toList = none ∧ r.getHeader "Transfer-Encoding".toList = none ∧
        x.out <+: head) ↔
      q.method = .head ∨ h.hasStreamContent = false := by
  obtain ⟨path, t, hr⟩ := rendered_of_reachable hs hx hq hh hp
  obtain ⟨hregular, hstream, hchunked⟩ := framing_sentResponse srv t
  have hstatus : statusHasNoBody t.itsResponse.status = true := by
    rw [hr.toSending.same.status]
    exact hst
  -- only the regular path looks at the status
  have hroute : path = .regular ↔ q.method = .head ∨ h.hasStreamContent = false := by
    rw [hr.route, replyPath_regular, decide_eq_true_iff]
  have hsent := hr.sent
  rw [← hroute]
  cases path with
  | regular =>
    rw [if_pos (Or.inl hstatus), ← hsent] at hregular
    obtain ⟨hcl, hte⟩ := Prod.mk.inj hregular
    refine iff_of_true ⟨hcl, hte, ?_⟩ rfl
    have hbody : x.body r = [] := by
      unfold body
      rw [hsent, getContent_of_bodyless hstatus, ite_self]
    have hpre := (hr.regular hs hx).1
    rw [hbody, List.append_nil] at hpre
    rw [serverBytes_of_regular hs hx hr.taken]
    exact hpre
  | stream =>
    rw [← hsent] at hstream
    refine iff_of_false (fun hnone => ?_) (by simp)
    have hcl := (Prod.mk.inj hstream).1
    rw [hnone.1] at hcl
    cases hcl
  | chunked =>
    rw [← hsent] at hchunked
    refine iff_of_false (fun hnone => ?_) (by simp)
    have hte := (Prod.mk.inj hchunked).2
    rw [hnone.2.1] at hte
    cases hte
  | gateway => exact absurd rfl hr.gateway

/-- A 304 whose content is at hand. -/
theorem bodyless_status_buffered :
    ∃ s, runFrom MinimalSpine.server (start MinimalSpine.server)
        (servedRun { status := some 304, content := .buffer "a".toList } none 68) = some s ∧
      ∃ x ∈ past s.world.trace, ∃ q h r head, x.requests = [q] ∧ x.handled = some h ∧
        statusHasNoBody h.status = true ∧ (.handler, r, head) ∈ x.heads ∧
        ((r.getHeader "Content-Length".toList = none ∧
            r.getHeader "Transfer-Encoding".toList = none ∧ x.out <+: head) ↔
          q.method = .head ∨ h.hasStreamContent = false) := by
  obtain ⟨s, hs, x, hx, hp⟩ := reached_exchange
    (servedRun { status := some 304, content := .buffer "a".toList } none 68)
    (fun x => x.requests.length == 1 && x.handled.any (fun h => statusHasNoBody h.status) &&
      x.heads.any (·.1 == .handler)) (by decide +kernel)
  obtain ⟨q, h, r, head, hq, hh, hst, hmem⟩ := parts_of_exchange hp
  exact ⟨s, hs, x, hx, q, h, r, head, hq, hh, hst, hmem,
    bodyless_status ⟨_, hs⟩ (mem_exchanges.mpr (Or.inl hx)) hq hh hst hmem⟩

/-- A 304 whose content is a stream: its length is announced, and its bytes are sent. -/
theorem bodyless_status_streamed :
    ∃ s, runFrom MinimalSpine.server (start MinimalSpine.server)
        (servedRun { status := some 304, content := .stream 1 } (some "a".toList) 88) = some s ∧
      s.exchange.handled.map (fun h => statusHasNoBody h.status) = some true ∧
      ∃ r head, s.exchange.heads = [(.handler, r, head)] ∧
        r.getHeader "Content-Length".toList = some "1".toList ∧
        s.exchange.out = head ++ "a".toList := by
  obtain ⟨s, hs, hp⟩ := MinimalSpine.reached
    (servedRun { status := some 304, content := .stream 1 } (some "a".toList) 88)
    (fun s => s.exchange.handled.map (fun h => statusHasNoBody h.status) == some true &&
      s.exchange.heads.length == 1 && s.exchange.heads.all fun p => p.1 == .handler &&
        p.2.1.getHeader "Content-Length".toList == some "1".toList &&
        s.exchange.out == p.2.2 ++ "a".toList) (by decide +kernel)
  simp only [Bool.and_eq_true, beq_iff_eq, List.all_eq_true] at hp
  obtain ⟨⟨hst, hlen⟩, hall⟩ := hp
  obtain ⟨⟨m, r, head⟩, hheads⟩ := List.length_eq_one_iff.mp hlen
  obtain ⟨⟨hm, hcl⟩, hout⟩ := hall (m, r, head) (by rw [hheads]; exact List.mem_singleton_self _)
  have hm' : m = .handler := hm
  subst hm'
  exact ⟨s, hs, hst, r, head, hheads, hcl, hout⟩

/-! ## Framed once -/

/-- The response that goes out where the status was left unset. -/
theorem sentResponse_unset {t : AsyncConnection} (h : t.itsResponse.status = none) :
    (sentResponse srv .regular t).status = some .notImplemented ∧
      (sentResponse srv .regular t).getContent = srv.spine.stockContent .notImplemented ∧
      (sentResponse srv .stream t).status = some .notImplemented := by
  have hsame := (sameFraming_encodeResponse srv t.itsRequest t.itsResponse).trans
    (sameFraming_echoETag srv t.itsRequest _)
  have hframed : (frameResponse srv t.itsHeadRequest (echoETag srv t.itsRequest
      (encodeResponse srv t.itsRequest t.itsResponse))).status = none := by
    rw [frameResponse_status, hsame.status]
    exact h
  unfold sentResponse
  dsimp only
  rw [renderHeaders_unset srv hframed,
    renderHeaders_unset srv (r := t.itsResponse.setHeader _ _) h]
  exact ⟨rfl, rfl, rfl⟩

/-- The content of a response with its content at hand, whose status permits some. -/
theorem getContent_of_set {t : AsyncConnection} (hset : t.itsResponse.status.isSome)
    (hst : statusHasNoBody t.itsResponse.status = false)
    (hbuffer : t.itsResponse.hasStreamContent = false) :
    (sentResponse srv .regular t).getContent.length = (encoded srv t).getContentLength := by
  let framed := frameResponse srv t.itsHeadRequest (echoETag srv t.itsRequest (encoded srv t))
  have hencoded : SameFraming t.itsResponse (encoded srv t) :=
    sameFraming_encodeResponse srv t.itsRequest t.itsResponse
  have hechoed := hencoded.trans (sameFraming_echoETag srv t.itsRequest (encoded srv t))
  have hstatus : framed.status = t.itsResponse.status :=
    (frameResponse_status srv _ _).trans hechoed.status
  have hcontent : framed.content = (encoded srv t).content :=
    (content_frameResponse srv _ (by rw [hechoed.status]; exact hst)).trans
      (echoETag_members srv _ _).1
  have hrendered : sentResponse srv .regular t = framed :=
    renderHeaders_fst srv (hstatus ▸ hset)
  rw [hrendered, (Response.same_content hcontent).2,
    ← getContentLength_of_buffer (hencoded.content hbuffer)]

/-- What a getter's response has to give behind the length that is announced: the
streamer's own bytes, or, where the handler has left the status unset, the page of 501 as
often as a getter is given it. -/
def streamLength (srv : Server) (x : Exchange) (h : Response) : ℕ :=
  if h.status = none then x.chunks.length * (srv.spine.stockContent .notImplemented).length
  else x.streamed.flatten.length

/-- The announced length is that of the content: nothing is sent behind the header section
of a HEAD, a stream gives what it has announced, and a page that takes the place of a
content at hand is as long as that. -/
def LengthKept (srv : Server) (x : Exchange) (q : Request) (h : Response)
    (t : AsyncConnection) : Prop :=
  q.method = .head ∨
    if h.hasStreamContent then streamLength srv x h = h.getContentLength
    else h.status = none →
      (srv.spine.stockContent .notImplemented).length = (encoded srv t).getContentLength

/-- What the getters were given of a response of announced length. -/
theorem length_chunks {s : AsyncConnection} (hs : Reachable srv s) {x : Exchange}
    (hx : x ∈ exchanges s.world.trace) (hp : x.path = some .stream) {h : Response}
    (hh : x.handled = some h) : x.chunks.flatten.length = streamLength srv x h := by
  unfold streamLength
  rcases genuine_exchange srv hs hx with hg | hr
  · rw [if_neg fun hst => hg.set ⟨Or.inl hp, h, hh, hst⟩, hg.streamed]
  · obtain ⟨-, h', hh', hst⟩ := hr.unset
    obtain rfl := Option.some.inj (hh.symm.trans hh')
    have hpages : x.chunks = List.replicate x.chunks.length
        (srv.spine.stockContent .notImplemented) :=
      List.eq_replicate_iff.mpr ⟨rfl, hr.page⟩
    rw [if_pos hst]
    conv_lhs => rw [hpages]
    rw [List.length_flatten, List.map_replicate, List.sum_replicate_nat]

/-- The content behind the header section of a whole response of announced length. -/
theorem Rendered.stream {s : AsyncConnection} (hs : Reachable srv s) {x : Exchange}
    (hx : x ∈ exchanges s.world.trace) {q : Request} {h r : Response} {head : Bytes}
    {t : AsyncConnection} (hr : Rendered srv x q h r head .stream t) (hw : x.Whole) :
    x.out = head ++ x.chunks.flatten := by
  obtain ⟨unsent, -, hex, -⟩ := buffered_of_reachable hs hx
  have hsound := sound_exchanges srv (inv_reachable srv hs) hx
  have hserver : x.serverBytes = [] := by
    by_contra hne
    have hrefused := (hsound.server (by rw [hr.taken]; simp) hne).1
    rw [hw.refused] at hrefused
    cases hrefused
  rw [out_eq hsound.ordered, hserver, List.append_nil, hex hr.taken (hw.ended hr.taken) hw.failed,
    hr.headed]

/-- The content behind the header section of a whole chunked response. -/
theorem Rendered.chunked {s : AsyncConnection} (hs : Reachable srv s) {x : Exchange}
    (hx : x ∈ exchanges s.world.trace) {q : Request} {h r : Response} {head : Bytes}
    {t : AsyncConnection} (hr : Rendered srv x q h r head .chunked t) (hw : x.Whole)
    (hdone : x ∈ past s.world.trace ∨ s.world.outstanding = []) :
    ∃ content, x.out = head ++ content ∧ decode content = some (x.chunks.flatten, []) := by
  have hsound := sound_exchanges srv (inv_reachable srv hs) hx
  have hended := hw.closed hr.taken
  have hserver : x.serverBytes = [] := by
    by_contra hne
    exact (hsound.out_of_server hr.taken hne).1 hended
  have hall := complete_of_over srv hs hx hdone hr.taken hended hw.failed
  refine ⟨encode x.chunks ++ lastChunk, ?_, ?_⟩
  · rw [out_eq hsound.ordered, hserver, List.append_nil, hall, hr.headed]
  · have := decode_encode x.chunks []
    rwa [List.append_nil] at this

/-- The fields of framing are removed from a response that is sent whole: its status
permits no content, or the request is a HEAD and the response is still marked chunked once
its content is encoded. -/
def Unframed (srv : Server) (q : Request) (h : Response) (t : AsyncConnection) : Prop :=
  replyPath (decide (q.method = .head)) h = .regular ∧
    (statusHasNoBody h.status = true ∨ q.method = .head ∧ (encoded srv t).chunked = true)

section FramedOnce

variable {x : Exchange} {q : Request} {h r : Response} {content head : Bytes}
  {coding : Option Bytes} {n : ℕ} {t : AsyncConnection}

/-- Nothing is announced, and nothing contradicted. -/
theorem framedOnce_of_none (hr : r.framing = (none, none)) (content : Bytes) :
    FramedOnce x r content := by
  obtain ⟨hcl, hte⟩ := Prod.mk.inj hr
  refine ⟨Or.inl hcl, fun v hv => ?_, fun v hv => ?_⟩
  · cases hcl.symm.trans hv
  · cases hte.symm.trans hv

/-- A length alone is one framing. -/
theorem once_of_length (hr : r.framing = (some (toDecimal n), coding)) :
    (r.getHeader "Content-Length".toList = none ∨ r.getHeader "Transfer-Encoding".toList = none) ↔
      coding = none := by
  obtain ⟨hcl, rfl⟩ := Prod.mk.inj hr
  exact ⟨fun h => h.resolve_left (by rw [hcl]; simp), Or.inr⟩

/-- Both fields, or the length alone. -/
theorem framedOnce_of_length (hq : x.requests = [q])
    (hr : r.framing = (some (toDecimal n), coding)) :
    FramedOnce x r content ↔ coding = none ∧ (q.method = .head ∨ content.length = n) := by
  obtain ⟨hcl, hte⟩ := Prod.mk.inj hr
  refine ⟨fun hf => ⟨(once_of_length hr).mp hf.once, ?_⟩, ?_⟩
  · refine or_iff_not_imp_left.mpr fun hm => (toDecimal_inj.mp (hf.length _ hcl fun q' hq' => ?_)).symm
    rw [hq] at hq'
    rw [List.mem_singleton.mp hq']
    exact hm
  · rintro ⟨rfl, hlen⟩
    refine ⟨Or.inr hte, fun v hv hm => ?_, fun v hv => ?_⟩
    · have hget := hlen.resolve_left (hm q (by rw [hq]; exact List.mem_singleton_self q))
      rw [hget]
      exact (Option.some.inj (hcl.symm.trans hv)).symm
    · cases hte.symm.trans hv

/-- A response that is sent whole keeps its length, unless the page of 501 has taken the
place of its content. -/
theorem Rendered.lengthKept_regular (hr : Rendered srv x q h r head .regular t)
    (hq : x.requests = [q]) (hb : ¬ statusHasNoBody h.status = true) :
    q.method = .head ∨ (x.body r).length = (encoded srv t).getContentLength ↔
      LengthKept srv x q h t := by
  unfold LengthKept
  by_cases hm : q.method = .head
  · exact iff_of_true (Or.inl hm) (Or.inl hm)
  have hsame := hr.toSending.same
  have hbuffer : h.hasStreamContent = false :=
    (replyPath_regular.mp hr.route.symm).resolve_left (by simpa using hm)
  have hbody : x.body r = (sentResponse srv .regular t).getContent := by
    unfold body
    rw [hq, List.any_cons, List.any_nil, Bool.or_false, decide_eq_false hm, ← hr.sent]
    rfl
  rw [hbody, hbuffer, if_neg Bool.false_ne_true]
  refine or_congr_right ?_
  cases hst : h.status with
  | none =>
    rw [(@sentResponse_unset srv t (hsame.status.trans hst)).2.1]
    simp
  | some st =>
    have hlen := @getContent_of_set srv t (by rw [hsame.status, hst]; rfl)
      (by rw [hsame.status]; simpa using hb)
      ((Response.same_content hsame.content).1.trans hbuffer)
    rw [hlen]
    simp

/-- A stream keeps the length it has announced. -/
theorem Rendered.lengthKept_stream (hr : Rendered srv x q h r head .stream t) :
    q.method = .head ∨ streamLength srv x h = h.getContentLength ↔ LengthKept srv x q h t := by
  have hstream : h.hasStreamContent = true := by
    by_contra hno
    have hregular : replyPath (decide (q.method = .head)) h = .regular :=
      replyPath_regular.mpr (Or.inr (by simpa using hno))
    exact absurd (hr.route.trans hregular) (by simp)
  unfold LengthKept
  rw [hstream, if_pos rfl]

end FramedOnce

/-- **A message is framed once**: one framing field goes out exactly when the response is
sent in chunks, when the fields are removed (a status that permits no content, or a HEAD
whose response is still marked chunked once it is encoded), or when the handler has set no
`Transfer-Encoding`.  Once the whole response was sent, it is the framing of the content
behind the header section exactly when, moreover, a length that is announced is kept. -/
theorem framed_once {s : AsyncConnection} (hs : Reachable srv s) {x : Exchange}
    (hx : x ∈ exchanges s.world.trace) {q : Request} (hq : x.requests = [q]) {h : Response}
    (hh : x.handled = some h) {r : Response} {head : Bytes} (hp : (.handler, r, head) ∈ x.heads) :
    ∃ t, Sending srv q h t ∧
      ((r.getHeader "Content-Length".toList = none ∨
          r.getHeader "Transfer-Encoding".toList = none) ↔
        replyPath (decide (q.method = .head)) h = .chunked ∨
          Unframed srv q h t ∨ h.getHeader "Transfer-Encoding".toList = none) ∧
      (x.Whole → x ∈ past s.world.trace ∨ s.world.outstanding = [] →
        ∃ content, x.out = head ++ content ∧
          (FramedOnce x r content ↔
            replyPath (decide (q.method = .head)) h = .chunked ∨ Unframed srv q h t ∨
              h.getHeader "Transfer-Encoding".toList = none ∧ LengthKept srv x q h t)) := by
  obtain ⟨path, t, hr⟩ := rendered_of_reachable hs hx hq hh hp
  refine ⟨t, hr.toSending, ?_⟩
  obtain ⟨hregular, hstream, hchunked⟩ := framing_sentResponse srv t
  have hsame := hr.toSending.same
  -- the plugin's own field is the only coding on the paths with a length
  have hcoding : t.itsResponse.getHeader "Transfer-Encoding".toList
      = h.getHeader "Transfer-Encoding".toList := hsame.field _ transferEncoding_not_mem
  have hsent := hr.sent
  unfold Unframed
  rw [← hr.route]
  cases path with
  | regular =>
    simp only [← hsent, hsame.status, hr.headRequest, decide_eq_true_eq, hcoding] at hregular
    have hout := fun hw : x.Whole => (hr.regular hs hx).2 hw.failed
    rw [← serverBytes_of_regular hs hx hr.taken] at hout
    -- a status without a body, and a HEAD of a chunked response, are sent without a length
    by_cases hnone : statusHasNoBody h.status = true ∨
        q.method = .head ∧ (encoded srv t).chunked = true
    · rw [if_pos hnone] at hregular
      refine ⟨iff_of_true (Or.inl (Prod.mk.inj hregular).1) (Or.inr (Or.inl ⟨rfl, hnone⟩)), ?_⟩
      exact fun hw hdone => ⟨x.body r, hout hw hdone,
        iff_of_true (framedOnce_of_none hregular _) (Or.inr (Or.inl ⟨rfl, hnone⟩))⟩
    · rw [if_neg hnone] at hregular
      refine ⟨?_, fun hw hdone => ⟨x.body r, hout hw hdone, ?_⟩⟩
      · rw [once_of_length hregular]
        simp [hnone]
      · rw [framedOnce_of_length hq hregular, ← hr.lengthKept_regular hq fun hb => hnone (Or.inl hb)]
        simp [hnone]
  | stream =>
    rw [← hsent, hcoding, hsame.getContentLength] at hstream
    refine ⟨?_, fun hw hdone => ⟨x.chunks.flatten, hr.stream hs hx hw, ?_⟩⟩
    · rw [once_of_length hstream]
      simp
    · rw [framedOnce_of_length hq hstream, length_chunks hs hx hr.taken hh, ← hr.lengthKept_stream]
      simp
  | chunked =>
    rw [← hsent] at hchunked
    obtain ⟨hcl, hte⟩ := Prod.mk.inj hchunked
    refine ⟨iff_of_true (Or.inl hcl) (Or.inl rfl), fun hw hdone => ?_⟩
    obtain ⟨content, hout, hd⟩ := hr.chunked hs hx hw hdone
    refine ⟨content, hout, iff_of_true ⟨Or.inl hcl, fun v hv => ?_, fun v hv => ?_⟩ (Or.inl rfl)⟩
    · cases hcl.symm.trans hv
    · exact ⟨(Option.some.inj (hte.symm.trans hv)).symm, hd⟩
  | gateway => exact absurd rfl hr.gateway

/-- A response on which the handler has put a transfer coding. -/
def codedResponse : Response :=
  { status := some 200, content := .buffer "a".toList,
    headers := HeaderMap.set ∅ "Transfer-Encoding".toList "gzip".toList }

/-- A buffered reply whose plugin names a transfer coding. -/
theorem framed_once_coded :
    ∃ s, runFrom MinimalSpine.server (start MinimalSpine.server)
        (servedRun codedResponse none 113) = some s ∧
      ∃ x ∈ past s.world.trace, ∃ q h r head, x.requests = [q] ∧ x.handled = some h ∧
        (.handler, r, head) ∈ x.heads ∧ ∃ t content, Sending MinimalSpine.server q h t ∧
          x.out = head ++ content ∧
          (FramedOnce x r content ↔
            replyPath (decide (q.method = .head)) h = .chunked ∨
              Unframed MinimalSpine.server q h t ∨
              h.getHeader "Transfer-Encoding".toList = none ∧
                LengthKept MinimalSpine.server x q h t) := by
  obtain ⟨s, hs, x, hx, hp⟩ := reached_exchange (servedRun codedResponse none 113)
    (fun x => (x.requests.length == 1 && x.handled.any (fun _ => true) &&
      x.heads.any (·.1 == .handler)) && (!x.failed && !x.refused && x.path == some .regular))
    (by decide +kernel)
  obtain ⟨hparts, hp⟩ := Bool.and_eq_true_iff.mp hp
  simp only [Bool.and_eq_true, Bool.not_eq_true', beq_iff_eq] at hp
  obtain ⟨⟨hf, hr⟩, hpath⟩ := hp
  have hw : x.Whole := .of_regular hpath hf hr
  obtain ⟨q, h, r, head, hq, hh, -, hmem⟩ := parts_of_exchange hparts
  obtain ⟨t, ht, -, hall⟩ :=
    framed_once ⟨_, hs⟩ (mem_exchanges.mpr (Or.inl hx)) hq hh hmem
  obtain ⟨content, hout, hiff⟩ := hall hw (Or.inl hx)
  exact ⟨s, hs, x, hx, q, h, r, head, hq, hh, hmem, t, content, ht, hout, hiff⟩

/-- Its header section carries both fields. -/
theorem framed_twice :
    ∃ s, runFrom MinimalSpine.server (start MinimalSpine.server)
        (servedRun codedResponse none 113) = some s ∧
      ∃ x ∈ past s.world.trace, ∃ r head, (.handler, r, head) ∈ x.heads ∧
        r.getHeader "Content-Length".toList = some "1".toList ∧
        r.getHeader "Transfer-Encoding".toList = some "gzip".toList ∧
        ∀ content, ¬ FramedOnce x r content := by
  obtain ⟨s, hs, x, hx, hp⟩ := reached_exchange (servedRun codedResponse none 113)
    (fun x => x.heads.any fun p => p.1 == .handler &&
      p.2.1.getHeader "Content-Length".toList == some "1".toList &&
      p.2.1.getHeader "Transfer-Encoding".toList == some "gzip".toList) (by decide +kernel)
  obtain ⟨⟨m, r, head⟩, hmem, hp⟩ := List.any_eq_true.mp hp
  simp only [Bool.and_eq_true, beq_iff_eq] at hp
  obtain ⟨⟨rfl, hcl⟩, hte⟩ := hp
  refine ⟨s, hs, x, hx, r, head, hmem, hcl, hte, fun content hf => ?_⟩
  rcases hf.once with hcl' | hte'
  · rw [hcl] at hcl'
    cases hcl'
  · rw [hte] at hte'
    cases hte'

/-! ## A response without a status -/

/-- **The status in the place of none.**  Once the whole response was sent, the
announced length is that of the content behind the header section exactly when the page
of the status is as long as the content it has replaced, or as the stream had announced,
as often as it was asked for. -/
theorem fallback_length {s : AsyncConnection} (hs : Reachable srv s) {x : Exchange}
    (hx : x ∈ exchanges s.world.trace) {q : Request} (hq : x.requests = [q])
    (hm : q.method ≠ .head) {h : Response} (hh : x.handled = some h) (hst : h.status = none)
    (hc : h.hasStreamContent = true → h.chunked = false) {r : Response} {head : Bytes}
    (hp : (.handler, r, head) ∈ x.heads) (hw : x.Whole)
    (hdone : x ∈ past s.world.trace ∨ s.world.outstanding = []) :
    ∃ t content, Sending srv q h t ∧ r.status = some .notImplemented ∧
      x.out = head ++ content ∧
      (r.getHeader "Content-Length".toList = some (toDecimal content.length) ↔
        if h.hasStreamContent then
          x.chunks.length * (srv.spine.stockContent .notImplemented).length = h.getContentLength
        else (srv.spine.stockContent .notImplemented).length
          = (encoded srv t).getContentLength) := by
  obtain ⟨path, t, hr⟩ := rendered_of_reachable hs hx hq hh hp
  obtain ⟨hregular, hstream, -⟩ := framing_sentResponse srv t
  have hsame := hr.toSending.same
  have hstatus : t.itsResponse.status = none := hsame.status.trans hst
  obtain ⟨hsentStatus, hpage, hstreamStatus⟩ := @sentResponse_unset srv _ hstatus
  have hsent := hr.sent
  have hroute := hr.route
  rw [decide_eq_false hm] at hroute
  -- lengths agree where their decimals do
  have hcl : ∀ {n m : ℕ}, r.framing.1 = some (toDecimal n) →
      (r.getHeader "Content-Length".toList = some (toDecimal m) ↔ m = n) := by
    intro n m hn
    have hn' : r.getHeader "Content-Length".toList = some (toDecimal n) := hn
    rw [hn', Option.some_inj, toDecimal_inj]
    exact eq_comm
  cases path with
  | regular =>
    have hnone : h.hasStreamContent = false :=
      (replyPath_regular.mp hroute.symm).resolve_left (by simp)
    rw [← hsent, hstatus, if_neg (by simp [statusHasNoBody, hr.headRequest, hm])] at hregular
    have hbody : x.body r = srv.spine.stockContent .notImplemented := by
      unfold body
      rw [hq, List.any_cons, List.any_nil, Bool.or_false, decide_eq_false hm, hsent]
      exact hpage
    refine ⟨t, srv.spine.stockContent .notImplemented, hr.toSending, ?_, ?_, ?_⟩
    · rw [hsent]
      exact hsentStatus
    · rw [serverBytes_of_regular hs hx hr.taken, (hr.regular hs hx).2 hw.failed hdone, hbody]
    · rw [hnone, if_neg Bool.false_ne_true]
      exact hcl (congrArg Prod.fst hregular)
  | stream =>
    have hyes : h.hasStreamContent = true := by
      by_contra hno
      have hreg : replyPath false h = .regular :=
        replyPath_regular.mpr (Or.inr (by simpa using hno))
      exact absurd (hroute.trans hreg) (by simp)
    rw [← hsent, hsame.getContentLength] at hstream
    -- each call of the getter takes the whole page, whatever was announced
    have hlen : x.chunks.flatten.length
        = x.chunks.length * (srv.spine.stockContent .notImplemented).length := by
      rw [length_chunks hs hx hr.taken hh, streamLength, if_pos hst]
    refine ⟨t, x.chunks.flatten, hr.toSending, ?_, hr.stream hs hx hw, ?_⟩
    · rw [hsent]
      exact hstreamStatus
    · rw [hyes, if_pos rfl, ← hlen]
      exact hcl (congrArg Prod.fst hstream)
  | chunked =>
    obtain ⟨hyes, hmarked⟩ := chunked_of_replyPath hroute.symm
    rw [hc hyes] at hmarked
    cases hmarked
  | gateway => exact absurd rfl hr.gateway

/-- A response without a status, as long as the page of the status it gets. -/
theorem fallback_length_same :
    ∃ s, runFrom MinimalSpine.server (start MinimalSpine.server)
        (servedRun { content := .buffer "twelve bytes".toList } none 100) = some s ∧
      ∃ x ∈ past s.world.trace, ∃ q h r head t content, x.requests = [q] ∧ x.handled = some h ∧
        (.handler, r, head) ∈ x.heads ∧ Sending MinimalSpine.server q h t ∧
        r.status = some .notImplemented ∧ x.out = head ++ content ∧
        (r.getHeader "Content-Length".toList = some (toDecimal content.length) ↔
          if h.hasStreamContent then
            x.chunks.length * (MinimalSpine.spine.stockContent .notImplemented).length
              = h.getContentLength
          else (MinimalSpine.spine.stockContent .notImplemented).length
            = (encoded MinimalSpine.server t).getContentLength) := by
  obtain ⟨s, hs, x, hx, hp⟩ := reached_exchange
    (servedRun { content := .buffer "twelve bytes".toList } none 100)
    (fun x => (x.requests.length == 1 && x.handled.any
        (fun h => h.status.isNone && !h.hasStreamContent) && x.heads.any (·.1 == .handler)) &&
      (x.requests.all (·.method != .head) && !x.failed && !x.refused && x.path == some .regular))
    (by decide +kernel)
  obtain ⟨hparts, hp⟩ := Bool.and_eq_true_iff.mp hp
  obtain ⟨q, h, r, head, hq, hh, hst, hmem⟩ := parts_of_exchange hparts
  simp only [Bool.and_eq_true, List.all_eq_true, Bool.not_eq_true', bne_iff_ne, beq_iff_eq,
    Option.isNone_iff_eq_none] at hp hst
  obtain ⟨⟨⟨hm, hf⟩, hr⟩, hpath⟩ := hp
  have hw : x.Whole := .of_regular hpath hf hr
  obtain ⟨t, content, ht, hstatus, hout, hiff⟩ :=
    fallback_length ⟨_, hs⟩ (mem_exchanges.mpr (Or.inl hx)) hq
      (hm q (by rw [hq]; exact List.mem_singleton_self q)) hh hst.1
      (fun hs' => absurd (hst.2.symm.trans hs') Bool.false_ne_true) hmem hw (Or.inl hx)
  exact ⟨s, hs, x, hx, q, h, r, head, t, content, hq, hh, hmem, ht, hstatus, hout, hiff⟩

/-- A shorter one: one byte is announced, and the page is sent. -/
theorem fallback_length_other :
    ∃ s, runFrom MinimalSpine.server (start MinimalSpine.server)
        (servedRun { content := .buffer "a".toList } none 99) = some s ∧
      ∃ x ∈ past s.world.trace, ∃ r head, (.handler, r, head) ∈ x.heads ∧
        r.status = some .notImplemented ∧ r.getHeader "Content-Length".toList = some "1".toList ∧
        x.out = head ++ "<h1>501</h1>".toList := by
  obtain ⟨s, hs, x, hx, hp⟩ := reached_exchange
    (servedRun { content := .buffer "a".toList } none 99)
    (fun x => x.heads.any fun p => p.1 == .handler && p.2.1.status == some .notImplemented &&
      p.2.1.getHeader "Content-Length".toList == some "1".toList &&
      x.out == p.2.2 ++ "<h1>501</h1>".toList) (by decide +kernel)
  obtain ⟨⟨m, r, head⟩, hmem, hp⟩ := List.any_eq_true.mp hp
  simp only [Bool.and_eq_true, beq_iff_eq] at hp
  obtain ⟨⟨⟨rfl, hst⟩, hcl⟩, hout⟩ := hp
  exact ⟨s, hs, x, hx, r, head, hmem, hst, hcl, hout⟩

end AsyncConnection

end SmartMet
