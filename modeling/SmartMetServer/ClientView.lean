/-
# What a client reads

The bytes of a connection, read by a client that follows RFC 9112, are the
responses the server has sent, in order, each with its own content; the bytes that
are left over are those of the exchange under way.

* `Legible` : the exchanges whose responses a client can read;
* `body_of_past` : the extent that is announced is that of the body;
* `client_reads` : the client reads back every exchange that is over.
-/
import SmartMetServer.ChunkedReply
import SmartMetServer.FramingFields
import SmartMetServer.OwnPages
import SmartMetServer.ResponseReader

namespace SmartMet

open ChunkedCoding Exchange ResponseReader

/-! ## The client -/

/-- What a client takes from a header section. -/
structure Notice where
  status : Option Status
  length : Option Bytes
  coding : Option Bytes
  deriving DecidableEq

/-- What a client reads of a header section to find the end of the body. -/
def Response.notice (r : Response) : Notice :=
  ⟨r.status, r.getHeader "Content-Length".toList, r.getHeader "Transfer-Encoding".toList⟩

/-- A number in decimal digits. -/
def fromDecimal (b : Bytes) : Option ℕ :=
  if !b.isEmpty && b.all Char.isDigit then some (Nat.ofDigitChars 10 b 0) else none

theorem fromDecimal_toDecimal (n : ℕ) : fromDecimal (toDecimal n) = some n := by
  have hdigits : (toDecimal n).all Char.isDigit = true :=
    List.all_eq_true.mpr fun c hc => Nat.isDigit_of_mem_toDigits (by decide) (by decide) hc
  have hne : (toDecimal n).isEmpty = false := List.isEmpty_eq_false_iff.mpr Nat.toDigits_ne_nil
  unfold fromDecimal
  rw [hne, hdigits]
  exact congrArg some Nat.ofDigitChars_ten_toDigits

namespace Notice

/-- The status is one of 1xx. -/
def isInterim (n : Notice) : Bool := n.status.any fun code => 100 ≤ code && code < 200

/-- How the end of the body is found (RFC 9112 6.3), if not by the end of the
connection; `asked` is set when the request was a HEAD. -/
def extent (asked : Bool) (n : Notice) : Option Extent :=
  if asked || statusHasNoBody n.status then some .empty
  else
    match n.coding, n.length with
    | some v, _ => if v = "chunked".toList then some .chunked else none
    | none, some v => (fromDecimal v).map .length
    | none, none => none

end Notice

theorem extent_length {r : Response} {n : ℕ} (hb : statusHasNoBody r.status = false)
    (hte : r.getHeader "Transfer-Encoding".toList = none)
    (hcl : r.getHeader "Content-Length".toList = some (toDecimal n)) :
    r.notice.extent false = some (.length n) := by
  unfold Notice.extent Response.notice
  dsimp only
  rw [hb, hte, hcl, if_neg (by simp)]
  dsimp only
  rw [fromDecimal_toDecimal]
  rfl

theorem extent_chunked {r : Response} (hb : statusHasNoBody r.status = false)
    (hte : r.getHeader "Transfer-Encoding".toList = some "chunked".toList) :
    r.notice.extent false = some .chunked := by
  unfold Notice.extent Response.notice
  dsimp only
  rw [hb, hte, if_neg (by simp)]
  dsimp only
  rw [if_pos rfl]

theorem extent_empty {r : Response} {asked : Bool}
    (h : asked = true ∨ statusHasNoBody r.status = true) :
    r.notice.extent asked = some .empty := by
  unfold Notice.extent Response.notice
  dsimp only
  rw [if_pos]
  rcases h with h | h
  · rw [h]
    rfl
  · rw [h, Bool.or_true]

/-- A client of HTTP, given how it reads a header section. -/
def client (readHead : Bytes → Option (Notice × Bytes)) : Client Notice where
  readHead := readHead
  interim := Notice.isInterim
  extent := Notice.extent

/-! ## The exchanges a client can read -/

namespace Exchange

/-- One of the exchange's requests is a HEAD. -/
def isHead (x : Exchange) : Bool := x.requests.any fun q => q.method = .head

/-- The content of the response of `x` with the header section of `r`. -/
def payload (x : Exchange) (r : Response) : Bytes :=
  if x.path = some .chunked then x.chunks.flatten else x.contents r

/-- What the client is told in the exchange. -/
def told (x : Exchange) : List (Notice × Bytes) :=
  x.heads.map fun p => (p.2.1.notice, x.payload p.2.1)

/-- All bytes of the exchange. -/
def bytes (x : Exchange) : Bytes := x.wire.flatMap Prod.snd

/-- No write has failed; a HEAD was given to a handler; the handler has set a status,
not an interim one, and no transfer coding of its own; and a status that permits no
content is not the status of a stream. -/
structure Legible (x : Exchange) : Prop where
  failed : x.failed = false
  page : x.isHead = true → x.path ≠ none
  status : ∀ h, x.handled = some h → h.status.isSome
  plain : x.path ≠ some .chunked → ∀ h, x.handled = some h →
    h.getHeader "Transfer-Encoding".toList = none
  final : ∀ p ∈ x.heads, p.2.1.notice.isInterim = false
  bodyless : ∀ p ∈ x.heads, statusHasNoBody p.2.1.status = true →
    x.path = some .regular ∨ x.path = none ∧ p.2.1.getContent = []

/-- The interim responses come first. -/
theorem bytes_eq {x : Exchange} (h : Ordered x.wire) : x.bytes = x.interims.flatten ++ x.out := by
  unfold bytes interims out
  generalize x.wire = wire at h
  induction wire with
  | nil => rfl
  | cons p wire ih =>
    obtain ⟨hp, hw⟩ := List.pairwise_cons.mp h
    simp only [List.flatMap_cons]
    rw [ih hw]
    by_cases hi : p.1 = .interim
    · simp [hi]
    -- no interim response comes behind a final one
    have hnone : wire.flatMap (fun q => if q.1 = .interim then [q.2] else []) = [] := by
      refine List.flatMap_eq_nil_iff.mpr fun q hq => if_neg fun hqm => ?_
      rcases hp q hq with hlt | heq
      · rw [hqm] at hlt
        exact absurd hlt (Nat.not_lt_zero _)
      · exact hi (heq.trans hqm)
    simp [hi, hnone]

end Exchange

namespace AsyncConnection

variable {srv : Server}

theorem status_sentResponse {t : AsyncConnection} (h : t.itsResponse.status.isSome) :
    (sentResponse srv .regular t).status = t.itsResponse.status := by
  have hsame := (sameFraming_encodeResponse srv t.itsRequest t.itsResponse).trans
    (sameFraming_echoETag srv t.itsRequest _)
  have hframed : (frameResponse srv t.itsHeadRequest (echoETag srv t.itsRequest
      (encodeResponse srv t.itsRequest t.itsResponse))).status = t.itsResponse.status :=
    (frameResponse_status srv _ _).trans hsame.status
  show (renderHeaders srv _).1.status = _
  rw [renderHeaders_fst srv (by rw [hframed]; exact h)]
  exact hframed

/-- The server has said nothing of its own on a reply path. -/
theorem out_of_done {x : Exchange} (h : Done srv x) (hp : x.path ≠ none) :
    x.out = x.handlerBytes := by
  have hnone : x.serverBytes = [] := by
    by_contra hne
    have hrefused := (h.sound.server hp hne).1
    rw [h.refused] at hrefused
    cases hrefused
  rw [out_eq h.sound.ordered, hnone, List.append_nil]

/-- How the body is announced, and what it is read as. -/
def Reads (x : Exchange) (r : Response) (body : Bytes) : Prop :=
  ∃ e, r.notice.extent x.isHead = some e ∧ takeBody e body = some (x.payload r, [])

theorem reads_empty {x : Exchange} {r : Response}
    (h : x.isHead = true ∨ statusHasNoBody r.status = true) (hp : x.payload r = []) :
    Reads x r [] := by
  refine ⟨.empty, extent_empty h, ?_⟩
  rw [hp]
  rfl

theorem reads_length {x : Exchange} {r : Response} {body : Bytes} (hh : x.isHead = false)
    (hb : statusHasNoBody r.status = false)
    (hte : r.getHeader "Transfer-Encoding".toList = none)
    (hcl : r.getHeader "Content-Length".toList = some (toDecimal body.length))
    (hp : x.payload r = body) : Reads x r body := by
  refine ⟨.length body.length, ?_, ?_⟩
  · rw [hh]
    exact extent_length hb hte hcl
  · simp only [takeBody]
    rw [if_pos (Nat.le_refl _), hp, List.take_length, List.drop_length]

theorem Legible.proper {x : Exchange} (h : x.Legible) {m : Message} {r : Response}
    (hh : x.isHead = false) (hm : m ≠ .options) (hb : statusHasNoBody r.status = false) :
    Proper x m r := by
  refine ⟨h.failed, fun q hq hqm => ?_, hm, hb, fun _ => h.status, h.plain⟩
  have hhead : x.isHead = true := List.any_eq_true.mpr ⟨q, hq, decide_eq_true hqm⟩
  rw [hh] at hhead
  cases hhead

/-- The server's own reply: the page is whole, and its length is announced. -/
theorem read_own {s : AsyncConnection} (hs : Reachable srv s)
    (hoptions : statusHasNoBody srv.spine.stockOptionsResponse.status = true) {x : Exchange}
    (hx : x ∈ past s.world.trace) (hl : x.Legible) (hpath : x.path = none) :
    ∃ m r head body, x.heads = [(m, r, head)] ∧ x.out = head ++ body ∧ Reads x r body := by
  obtain ⟨hinv, ht⟩ := traced_reachable srv hs
  have hmem := mem_exchanges.mpr (Or.inl hx)
  have hdone := hinv.1.past x hx
  obtain ⟨m, r, head, hheads, hm, hproper⟩ := hdone.framed
  have hfirst : (m, r, head) ∈ x.heads := by
    rw [hheads]
    exact List.mem_singleton_self _
  have hunbroken := unbroken_reachable hs x hmem
  -- without a path no handler was asked, so the reply is the server's own
  have hnot : m ≠ .handler := by
    intro hmh
    obtain ⟨-, -, path, -, -, hp, -⟩ := (ht.answered x hmem).heads _ hfirst hmh
    rw [hpath] at hp
    cases hp
  have hhead : x.isHead = false := by
    cases hh : x.isHead with
    | false => rfl
    | true => exact absurd hpath (hl.page hh)
  have hout : x.out = head ++ r.getContent := by
    have hbytes := ((ownSent_reachable srv hs x hmem).2).resolve_left fun h => h hpath
    rw [out_eq hdone.sound.ordered, hbytes, hunbroken.own hl.failed]
    unfold ownBytes
    rw [hheads, List.flatMap_singleton, if_neg hnot]
    rfl
  -- the reply's content is the page's: no stream was begun
  have hpayload : x.payload r = r.getContent := by
    unfold payload contents body
    rw [hpath, if_neg (by simp), if_neg (by simp), show x.requests.any _ = false from hhead,
      if_neg (by simp)]
  refine ⟨m, r, head, r.getContent, hheads, hout, ?_⟩
  by_cases hb : statusHasNoBody r.status = true
  · have hnone : r.getContent = [] := by
      rcases hl.bodyless _ hfirst hb with hp | ⟨-, hc⟩
      · rw [hpath] at hp
        cases hp
      · exact hc
    rw [hnone]
    exact reads_empty (Or.inr hb) (hpayload.trans hnone)
  · have hb' : statusHasNoBody r.status = false := by simpa using hb
    -- the answer to `OPTIONS *` has no body by `hoptions`
    have hopt : m ≠ .options := by
      intro hmo
      rw [hm hmo, hoptions] at hb'
      cases hb'
    obtain ⟨-, body, hbody, hframes⟩ := hproper (Legible.proper hl hhead hopt hb')
    obtain rfl : body = r.getContent := List.append_cancel_left (hbody.symm.trans hout)
    obtain ⟨st, before, -, hstock⟩ :=
      ((hunbroken.pages _ hfirst).resolve_left hnot).resolve_left hopt
    rcases hframes with ⟨-, hcl, -⟩ | ⟨hte, hcl⟩
    · rw [hstock.contentLength] at hcl
      cases hcl
    · exact reads_length hhead hb' hte hcl hpayload

/-- A response with its content at hand. -/
theorem read_regular {s : AsyncConnection} (hs : Reachable srv s) {x : Exchange}
    (hx : x ∈ past s.world.trace) (hl : x.Legible) (hpath : x.path = some .regular) :
    ∃ m r head body, x.heads = [(m, r, head)] ∧ x.out = head ++ body ∧ Reads x r body := by
  obtain ⟨hinv, ht⟩ := traced_reachable srv hs
  have hmem := mem_exchanges.mpr (Or.inl hx)
  have hdone := hinv.1.past x hx
  obtain ⟨m, r, head, hheads, -, hproper⟩ := hdone.framed
  have hm : m = .handler := by
    obtain ⟨r', head', rest, hh⟩ := hdone.sound.headed (by rw [hpath]; simp) (by rw [hpath]; simp)
    rw [hheads] at hh
    exact congrArg Prod.fst (List.cons.inj hh).1
  subst hm
  have hfirst : (.handler, r, head) ∈ x.heads := by
    rw [hheads]
    exact List.mem_singleton_self _
  obtain ⟨q, h, path, hq, hh, -⟩ := (ht.answered x hmem).heads _ hfirst rfl
  obtain ⟨path, t, hr⟩ := rendered_of_reachable hs hmem hq hh hfirst
  obtain rfl : path = .regular := Option.some.inj (hr.taken.symm.trans hpath)
  have hout : x.out = head ++ x.body r := by
    rw [serverBytes_of_regular hs hmem hpath]
    exact (hr.regular hs hmem).2 hl.failed (Or.inl hx)
  have hpayload : x.payload r = x.body r := by
    unfold payload contents
    rw [hpath, if_neg (by simp), if_neg (by simp)]
  refine ⟨.handler, r, head, x.body r, hheads, hout, ?_⟩
  by_cases hhead : x.isHead = true
  · have hnone : x.body r = [] := if_pos hhead
    rw [hnone]
    exact reads_empty (Or.inl hhead) (hpayload.trans hnone)
  have hhead' : x.isHead = false := by simpa using hhead
  have hset : t.itsResponse.status.isSome := by
    rw [hr.toSending.same.status]
    exact hl.status h hh
  by_cases hb : statusHasNoBody r.status = true
  · have hnone : x.body r = [] := by
      unfold body
      rw [hr.sent, status_sentResponse hset] at hb
      rw [hr.sent, getContent_of_bodyless hb, ite_self]
    rw [hnone]
    exact reads_empty (Or.inr hb) (hpayload.trans hnone)
  · have hb' : statusHasNoBody r.status = false := by simpa using hb
    obtain ⟨-, body, hbody, hframes⟩ := hproper (Legible.proper hl hhead' (by simp) hb')
    obtain rfl : body = x.body r := List.append_cancel_left (hbody.symm.trans hout)
    rcases hframes with ⟨hte, hcl, -⟩ | ⟨hte, hcl⟩
    · -- the framing fields of this path
      have hframing := (framing_sentResponse srv t).1
      rw [← hr.sent, if_neg] at hframing
      · have hlen := (Prod.mk.inj hframing).1
        rw [hcl] at hlen
        cases hlen
      · rintro (hst | ⟨hth, -⟩)
        · rw [← status_sentResponse hset, ← hr.sent, hb'] at hst
          cases hst
        · rw [hr.toSending.headRequest, decide_eq_true_iff] at hth
          exact hhead (List.any_eq_true.mpr ⟨q, by rw [hq]; exact List.mem_singleton_self q,
            decide_eq_true hth⟩)
    · exact reads_length hhead' hb' hte hcl hpayload

/-- A streamed response: it is none to a HEAD, and its status permits content. -/
theorem streamed_of_path {s : AsyncConnection} (hs : Reachable srv s) {x : Exchange}
    (hx : x ∈ past s.world.trace) (hl : x.Legible) (hnone : x.path ≠ none)
    (hregular : x.path ≠ some .regular) :
    ∃ r head body path t, x.heads = [(.handler, r, head)] ∧ x.isHead = false ∧
      statusHasNoBody r.status = false ∧ x.out = head ++ body ∧ r.Frames body ∧
      x.path = some path ∧ path ≠ .gateway ∧ r = sentResponse srv path t ∧
      x.headBytes = head := by
  obtain ⟨hinv, ht⟩ := traced_reachable srv hs
  have hmem := mem_exchanges.mpr (Or.inl hx)
  have hdone := hinv.1.past x hx
  obtain ⟨m, r, head, hheads, -, hproper⟩ := hdone.framed
  -- a path is chosen for a handler's response
  have hm : m = .handler := by
    obtain ⟨r', head', rest, hh⟩ := hdone.sound.headed hnone hdone.path
    rw [hheads] at hh
    exact congrArg Prod.fst (List.cons.inj hh).1
  subst hm
  have hfirst : (.handler, r, head) ∈ x.heads := by
    rw [hheads]
    exact List.mem_singleton_self _
  obtain ⟨q, h, -, hq, hh, -⟩ := (ht.answered x hmem).heads _ hfirst rfl
  obtain ⟨path, t, hr⟩ := rendered_of_reachable hs hmem hq hh hfirst
  -- a HEAD is replied to on the regular path
  have hhead : x.isHead = false := by
    cases hih : x.isHead with
    | false => rfl
    | true =>
      obtain ⟨q', hq', hqm⟩ := List.any_eq_true.mp hih
      rw [hq] at hq'
      obtain rfl := List.mem_singleton.mp hq'
      refine absurd ?_ hregular
      rw [hr.taken, hr.route, hqm]
      rfl
  have hb : statusHasNoBody r.status = false := by
    cases hst : statusHasNoBody r.status with
    | false => rfl
    | true =>
      rcases hl.bodyless _ hfirst hst with hp | ⟨hp, -⟩
      · exact absurd hp hregular
      · exact absurd hp hnone
  obtain ⟨-, body, hout, hframes⟩ := hproper (Legible.proper hl hhead (by simp) hb)
  exact ⟨r, head, body, path, t, hheads, hhead, hb, hout, hframes, hr.taken, hr.gateway, hr.sent,
    hr.headed⟩

/-- A response of announced length. -/
theorem read_stream {s : AsyncConnection} (hs : Reachable srv s) {x : Exchange}
    (hx : x ∈ past s.world.trace) (hl : x.Legible) (hpath : x.path = some .stream) :
    ∃ m r head body, x.heads = [(m, r, head)] ∧ x.out = head ++ body ∧ Reads x r body := by
  obtain ⟨r, head, body, path, t, hheads, hhead, hb, hout, hframes, -, -, -, hhb⟩ :=
    streamed_of_path hs hx hl (by rw [hpath]; simp) (by rw [hpath]; simp)
  have hdone := (inv_reachable srv hs).1.past x hx
  obtain ⟨r', head', hheads', hlength⟩ := hdone.exact hpath
  rw [hheads] at hheads'
  obtain rfl : r = r' := congrArg (fun p => p.2.1) (List.cons.inj hheads').1
  refine ⟨.handler, r, head, body, hheads, hout, ?_⟩
  rcases hframes with ⟨-, hcl, -⟩ | ⟨hte, hcl⟩
  · rw [hcl] at hlength
    cases hlength
  · have hsize : body.length = x.chunks.flatten.length :=
      toDecimal_inj.mp (Option.some.inj (hcl.symm.trans hlength))
    have hpre : head ++ body <+: head ++ x.chunks.flatten := by
      rw [← hout, out_of_done hdone (by rw [hpath]; simp), ← hhb]
      exact hdone.sound.streamed (Or.inl hpath)
    have hbody : body = x.chunks.flatten :=
      ((List.prefix_append_right_inj head).mp hpre).eq_of_length hsize
    refine reads_length hhead hb hte hcl ?_
    unfold payload contents
    rw [hpath, if_neg (by simp), if_pos rfl, hbody]

/-- A chunked response. -/
theorem read_chunked {s : AsyncConnection} (hs : Reachable srv s) {x : Exchange}
    (hx : x ∈ past s.world.trace) (hl : x.Legible) (hpath : x.path = some .chunked) :
    ∃ m r head body, x.heads = [(m, r, head)] ∧ x.out = head ++ body ∧ Reads x r body := by
  obtain ⟨r, head, body, path, t, hheads, hhead, hb, hout, -, htaken, -, hsent, hhb⟩ :=
    streamed_of_path hs hx hl (by rw [hpath]; simp) (by rw [hpath]; simp)
  obtain rfl : path = .chunked := Option.some.inj (htaken.symm.trans hpath)
  have hdone := (inv_reachable srv hs).1.past x hx
  have hcoding := (framing_sentResponse srv t).2.2
  rw [← hsent] at hcoding
  have hdecode := hdone.sound.decode_of_complete hdone.complete hpath (hdone.ended hpath) hl.failed
  rw [hout, hhb, List.drop_left] at hdecode
  refine ⟨.handler, r, head, body, hheads, hout, .chunked, ?_, ?_⟩
  · rw [hhead]
    exact extent_chunked hb (Prod.mk.inj hcoding).2
  · unfold payload
    rw [hpath, if_pos rfl]
    exact hdecode

/-- **The body of an exchange that is over** is announced as it is sent, and the
client reads from it the content of the response. -/
theorem body_of_past {s : AsyncConnection} (hs : Reachable srv s)
    (hoptions : statusHasNoBody srv.spine.stockOptionsResponse.status = true) {x : Exchange}
    (hx : x ∈ past s.world.trace) (hl : x.Legible) :
    ∃ m r head body, x.heads = [(m, r, head)] ∧ x.out = head ++ body ∧ Reads x r body := by
  cases hpath : x.path with
  | none => exact read_own hs hoptions hx hl hpath
  | some path =>
    cases path with
    | regular => exact read_regular hs hx hl hpath
    | stream => exact read_stream hs hx hl hpath
    | chunked => exact read_chunked hs hx hl hpath
    | gateway => exact absurd hpath ((inv_reachable srv hs).1.past x hx).path

/-! ## The whole connection -/

variable (srv)

/-- **A client reads back what it was told.**  Whatever the order of the steps, a client
that finds the header sections reads from the bytes of the connection the responses of
the exchanges that are over, in order, each with its own content; what is left over are
the bytes of the exchange under way. -/
theorem client_reads {s : AsyncConnection} (hs : Reachable srv s)
    (hoptions : statusHasNoBody srv.spine.stockOptionsResponse.status = true)
    (readHead : Bytes → Option (Notice × Bytes))
    (hinterim : ∀ t, readHead (continueReply ++ t) = some (⟨some 100, none, none⟩, t))
    (hheads : ∀ x ∈ past s.world.trace, ∀ p ∈ x.heads, ∀ t,
      readHead (p.2.2 ++ t) = some (p.2.1.notice, t))
    (hlegible : ∀ x ∈ past s.world.trace, x.Legible) :
    (client readHead).readAll ((past s.world.trace).reverse.map Exchange.isHead)
        ((wireOf s.world.trace).flatMap Prod.snd) =
      some ((past s.world.trace).reverse.flatMap Exchange.told, s.exchange.bytes) := by
  have hinv := inv_reachable srv hs
  -- each exchange as it was sent
  have hsent : ∀ x ∈ past s.world.trace, ∃ m : OnWire Notice, m.Readable (client readHead) ∧
      m.asked = x.isHead ∧ m.bytes = x.bytes ∧ [m.value] = x.told := by
    intro x hx
    obtain ⟨m, r, head, body, hh, hout, hreads⟩ := body_of_past hs hoptions hx (hlegible x hx)
    have hfirst : (m, r, head) ∈ x.heads := by
      rw [hh]
      exact List.mem_singleton_self _
    refine ⟨⟨x.isHead, x.interims, head, body, (r.notice, x.payload r)⟩, ?_, rfl, ?_, ?_⟩
    · refine ⟨fun i hi => ?_, hheads x hx _ hfirst, (hlegible x hx).final _ hfirst, hreads⟩
      obtain ⟨p, hp, hpi⟩ := List.mem_flatMap.mp hi
      split at hpi
      · rename_i hm
        obtain rfl := List.mem_singleton.mp hpi
        rw [(unbroken_reachable hs x (mem_exchanges.mpr (Or.inl hx))).interims
          (hlegible x hx).failed p hp hm]
        exact ⟨by decide, _, rfl, hinterim⟩
      · cases hpi
    · rw [bytes_eq (hinv.1.past x hx).sound.ordered, hout]
      rfl
    · unfold told
      rw [hh]
      rfl
  -- by induction on the exchanges, in the order of the wire
  have hall : ∀ xs : List Exchange, (∀ x ∈ xs, x ∈ past s.world.trace) →
      ∃ ms : List (OnWire Notice), (∀ m ∈ ms, m.Readable (client readHead)) ∧
        ms.map OnWire.asked = xs.map Exchange.isHead ∧
        ms.flatMap OnWire.bytes = xs.flatMap Exchange.bytes ∧
        ms.map OnWire.value = xs.flatMap Exchange.told := by
    intro xs
    induction xs with
    | nil => exact fun _ => ⟨[], by simp, rfl, rfl, rfl⟩
    | cons x xs ih =>
      intro hxs
      obtain ⟨hx, hxs⟩ := List.forall_mem_cons.mp hxs
      obtain ⟨m, hm, hasked, hbytes, hvalue⟩ := hsent x hx
      obtain ⟨ms, hms, ha, hb, hv⟩ := ih hxs
      refine ⟨m :: ms, List.forall_mem_cons.mpr ⟨hm, hms⟩, ?_, ?_, ?_⟩
      · rw [List.map_cons, List.map_cons, hasked, ha]
      · rw [List.flatMap_cons, List.flatMap_cons, hbytes, hb]
      · rw [List.map_cons, List.flatMap_cons, hv, ← hvalue]
        rfl
  obtain ⟨ms, hms, ha, hb, hv⟩ := hall (past s.world.trace).reverse
    fun x hx => List.mem_reverse.mp hx
  have hwire : (wireOf s.world.trace).flatMap Prod.snd =
      ms.flatMap OnWire.bytes ++ s.exchange.bytes := by
    rw [hb, ← flatMap_wire, List.flatMap_assoc, exchanges, List.flatMap_append,
      List.flatMap_singleton]
    rfl
  rw [hwire, ← ha, ← hv]
  exact OnWire.readAll_bytes hms _

/-! ## A concrete client -/

/-- A reader of the header sections of the small instance. -/
def readSection (b : Bytes) : Option (Notice × Bytes) :=
  match find crlfcrlf b 0 with
  | none => none
  | some stop =>
    match MinimalSpine.headLines (b.take stop) with
    | [] => none
    | line :: fields =>
      match line.splitOn ' ' with
      | _ :: code :: _ =>
        let headers : HeaderMap :=
          (fields.map MinimalSpine.parseField).foldl (fun m p => m.set p.1 p.2) ∅
        some (⟨fromDecimal code, headers.get "Content-Length".toList,
          headers.get "Transfer-Encoding".toList⟩, b.drop (stop + 4))
      | _ => none

/-- What follows a header section does not change it. -/
theorem readSection_append {b r : Bytes} {n : Notice} (h : readSection b = some (n, r))
    (t : Bytes) :
    readSection (b ++ t) = some (n, r ++ t) := by
  unfold readSection at h ⊢
  cases hf : find crlfcrlf b 0 with
  | none =>
    rw [hf] at h
    cases h
  | some stop =>
    obtain ⟨hi, -, hp, -⟩ := find_eq_some.mp hf
    have hlen : stop + 4 ≤ b.length := by
      have hcut := hp.length_le
      rw [show crlfcrlf.length = 4 by decide, List.length_drop] at hcut
      omega
    rw [hf] at h
    rw [find_append t hf]
    dsimp only at h ⊢
    rw [List.take_append_of_le_length (by omega)]
    split at h
    · cases h
    · split at h
      · obtain ⟨rfl, rfl⟩ := Prod.mk.inj (Option.some.inj h)
        rw [List.drop_append_of_le_length hlen]
      · cases h

instance decidableLegible (x : Exchange) : Decidable x.Legible :=
  decidable_of_iff (x.failed = false ∧ (x.isHead = true → x.path ≠ none) ∧
    (x.handled.all fun h => h.status.isSome &&
      (x.path == some .chunked || (h.getHeader "Transfer-Encoding".toList).isNone)) = true ∧
    ∀ p ∈ x.heads, p.2.1.notice.isInterim = false ∧ (statusHasNoBody p.2.1.status = true →
      x.path = some .regular ∨ x.path = none ∧ p.2.1.getContent = [])) <| by
    constructor
    · rintro ⟨hf, hp, hh, hall⟩
      simp only [Option.all_eq_true, Bool.and_eq_true, Bool.or_eq_true, beq_iff_eq,
        Option.isNone_iff_eq_none] at hh
      exact ⟨hf, hp, fun h he => (hh h he).1, fun hc h he => (hh h he).2.resolve_left hc,
        fun p hp => (hall p hp).1, fun p hp => (hall p hp).2⟩
    · intro h
      refine ⟨h.failed, h.page, ?_, fun p hp => ⟨h.final p hp, h.bodyless p hp⟩⟩
      simp only [Option.all_eq_true, Bool.and_eq_true, Bool.or_eq_true, beq_iff_eq,
        Option.isNone_iff_eq_none]
      intro r hr
      refine ⟨h.status r hr, ?_⟩
      by_cases hc : x.path = some .chunked
      · exact Or.inl hc
      · exact Or.inr (h.plain hc r hr)

/-- A chunked response, and a page behind it. -/
def twoReplies : List Event :=
  chunkedRun ++
    [.receive 0 "GET /y HTTP/1.1\r\nHost: h\r\n\r\n".toList, .runRead 0 MinimalSpine.answers]

theorem client_reads_two :
    ∃ s ms, runFrom MinimalSpine.server (start MinimalSpine.server) twoReplies = some s ∧
      (client readSection).readAll [false, false] ((wireOf s.world.trace).flatMap Prod.snd) =
        some (ms, []) ∧
      ms.map Prod.snd = ["hello".toList, "<h1>404</h1>".toList] := by
  obtain ⟨s, hs, hp⟩ := MinimalSpine.reached twoReplies
    (fun s => (past s.world.trace).reverse.map Exchange.isHead == [false, false] &&
      ((past s.world.trace).all fun x => decide x.Legible && x.heads.all fun p =>
        readSection p.2.2 == some (p.2.1.notice, [])) &&
      ((past s.world.trace).reverse.flatMap Exchange.told).map Prod.snd ==
        ["hello".toList, "<h1>404</h1>".toList] &&
      s.exchange.bytes == []) (by decide +kernel)
  simp only [Bool.and_eq_true, beq_iff_eq, List.all_eq_true, decide_eq_true_eq] at hp
  obtain ⟨⟨⟨hasked, hall⟩, hcontents⟩, hrest⟩ := hp
  have hread := client_reads MinimalSpine.server ⟨_, hs⟩ (by decide) readSection
    (fun t => readSection_append (b := continueReply) (r := []) (by decide +kernel) t)
    (fun x hx p hp t => readSection_append ((hall x hx).2 p hp) t) fun x hx => (hall x hx).1
  rw [hasked, hrest] at hread
  exact ⟨s, _, hs, hread, hcontents⟩

end AsyncConnection

end SmartMet
