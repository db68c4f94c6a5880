/-
# The version and the persistence of a reply

The status line of a reply has the version that was settled for its request, and
its `Keep-Alive` field tells how many requests the connection still takes.  A
chunked response is the exception to the first: it keeps the version the library
has given it, and to an HTTP/1.0 request it ends the connection.
-/
import SmartMetServer.ClientRule
import SmartMetServer.MinimalSpine
import SmartMetServer.Origins

namespace SmartMet

open Exchange

namespace AsyncConnection

variable (srv : Server) (a : Answers)

/-! ## What the server writes into a response -/

/-- The members `setConnectionHeaders` is called with. -/
def dated (s : AsyncConnection) : AsyncConnection :=
  { s with
    itsResponse := (setVary (s.itsResponse.setHeader "Server".toList
      srv.spine.serverString)).setHeader "Date".toList a.date }

/-- The `Keep-Alive` field, where there is one, is the server's. -/
theorem keepAliveField_setServerHeaders {s : AsyncConnection} {v : Bytes}
    (h : (setServerHeaders srv a s).itsResponse.getHeader "Keep-Alive".toList = some v) :
    s.itsKeepAlive = true ∧ v = keepAliveField srv s := by
  have hne : asciiToLower "Keep-Alive".toList ≠ asciiToLower "Cache-Control".toList := by decide
  have h' : (announce (negotiatedKeepAlive (dated srv a s)) s.itsResponseVersion
      (keepAliveField srv s) (if (dated srv a s).itsResponse.chunked then
        (dated srv a s).itsResponse
      else (dated srv a s).itsResponse.setVersion s.itsResponseVersion.text)).getHeader
        "Keep-Alive".toList = some v :=
    (getHeader_appendStaleDirectives srv _ hne).symm.trans h
  unfold announce at h'
  split at h'
  · rw [show (Response.removeHeader _ _).getHeader _ = none from HeaderMap.get_remove_self _ _] at h'
    cases h'
  rename_i hk
  split at h'
  · rw [show (Response.removeHeader _ _).getHeader _ = none from HeaderMap.get_remove_self _ _] at h'
    cases h'
  · rw [show (Response.setHeader _ _ _).getHeader _ = some _ from HeaderMap.get_set_self _ _ _] at h'
    refine ⟨?_, (Option.some.inj h').symm⟩
    have hk' : negotiatedKeepAlive (dated srv a s) = true := by simpa using hk
    unfold negotiatedKeepAlive at hk'
    simp only [Bool.and_eq_true] at hk'
    exact hk'.1.1

/-! ## What goes out -/

/-- The fields a reply path may change. -/
def pathFields : List Bytes :=
  ["Content-Length".toList, "Transfer-Encoding".toList, "ETag".toList, "Content-Encoding".toList]

/-- Two responses with the same status line, but for the status, and the same fields,
but for those of the reply paths. -/
structure SameTerms (r r' : Response) : Prop where
  version : r'.version = r.version
  field : ∀ name, (∀ f ∈ pathFields, asciiToLower name ≠ asciiToLower f) →
    r'.getHeader name = r.getHeader name

namespace SameTerms

theorem refl (r : Response) : SameTerms r r := ⟨rfl, fun _ _ => rfl⟩

theorem trans {r₁ r₂ r₃ : Response} (h : SameTerms r₁ r₂) (h' : SameTerms r₂ r₃) :
    SameTerms r₁ r₃ :=
  ⟨h'.version.trans h.version, fun name hn => (h'.field name hn).trans (h.field name hn)⟩

theorem setHeader (r : Response) {f : Bytes} (hf : f ∈ pathFields) (v : Bytes) :
    SameTerms r (r.setHeader f v) :=
  ⟨rfl, fun _ hn => HeaderMap.get_set_of_ne _ _ (hn f hf)⟩

theorem removeHeader (r : Response) {f : Bytes} (hf : f ∈ pathFields) :
    SameTerms r (r.removeHeader f) :=
  ⟨rfl, fun _ hn => HeaderMap.get_remove_of_ne _ (hn f hf)⟩

end SameTerms

theorem sameTerms_setContent (r : Response) (c : Bytes) :
    SameTerms r (r.setContent srv.spine c) := ⟨rfl, fun _ _ => rfl⟩

theorem sameTerms_encodeResponse (q : Request) (r : Response) :
    SameTerms r (encodeResponse srv q r) := by
  have hcoding : "Content-Encoding".toList ∈ pathFields := by decide
  have htag : "ETag".toList ∈ pathFields := by decide
  unfold encodeResponse
  split
  · dsimp only
    split
    · exact SameTerms.refl r
    · unfold compressResponse
      dsimp only
      have hset : ∀ c v, SameTerms r ((r.setContent srv.spine c).setHeader
          "Content-Encoding".toList v) := fun c v =>
        (sameTerms_setContent srv r c).trans (SameTerms.setHeader _ hcoding v)
      split
      · exact (hset _ _).trans (SameTerms.setHeader _ htag _)
      · exact hset _ _
  · exact SameTerms.refl r

theorem sameTerms_echoETag (q : Request) (r : Response) : SameTerms r (echoETag srv q r) := by
  have htag : "ETag".toList ∈ pathFields := by decide
  unfold echoETag
  split
  · split
    · exact SameTerms.setHeader _ htag _
    · exact SameTerms.refl r
  · exact SameTerms.refl r

theorem sameTerms_frameResponse (b : Bool) (r : Response) :
    SameTerms r (frameResponse srv b r) := by
  have hlength : "Content-Length".toList ∈ pathFields := by decide
  have hcoding : "Transfer-Encoding".toList ∈ pathFields := by decide
  have hremove : ∀ r' : Response, SameTerms r' ((r'.removeHeader "Content-Length".toList).removeHeader
      "Transfer-Encoding".toList) := fun r' =>
    (SameTerms.removeHeader r' hlength).trans (SameTerms.removeHeader _ hcoding)
  unfold frameResponse
  split
  · exact (sameTerms_setContent srv r []).trans (hremove _)
  split
  · exact hremove r
  · exact SameTerms.setHeader r hlength _

theorem sameTerms_renderHeaders (r : Response) : SameTerms r (renderHeaders srv r).1 := by
  refine ⟨?_, fun name _ => renderHeaders_getHeader srv r name⟩
  unfold renderHeaders
  split
  · rfl
  · rfl

/-- The reply paths leave the version and the other fields alone. -/
theorem sameTerms_sentResponse (path : ReplyPath) (s : AsyncConnection) :
    SameTerms s.itsResponse (sentResponse srv path s) := by
  have hlength : "Content-Length".toList ∈ pathFields := by decide
  have hcoding : "Transfer-Encoding".toList ∈ pathFields := by decide
  cases path with
  | regular =>
    exact (sameTerms_encodeResponse srv _ _).trans ((sameTerms_echoETag srv _ _).trans
      ((sameTerms_frameResponse srv _ _).trans (sameTerms_renderHeaders srv _)))
  | stream =>
    exact (SameTerms.setHeader _ hlength _).trans (sameTerms_renderHeaders srv _)
  | chunked =>
    exact ((SameTerms.setHeader _ hcoding _).trans (SameTerms.removeHeader _ hlength)).trans
      (sameTerms_renderHeaders srv _)
  | gateway => exact SameTerms.refl _

/-- A header section has the version and the fields `setServerHeaders` has settled. -/
theorem Origin.sameTerms {srv : Server} {old : List Obs} {m : Message} {r : Response}
    (h : Origin srv old m r) : ∃ s a, Heeds srv old m s ∧
      SameTerms (setServerHeaders srv a s).itsResponse r ∧
      (m ≠ .handler ∧ r.chunked = s.itsResponse.chunked ∨
        m = .handler ∧ (current old).handled = some s.itsResponse) := by
  obtain ⟨s, a, hs, ⟨hm, rfl⟩ | ⟨hm, path, hh, -, -, -, rfl⟩⟩ := h
  · exact ⟨s, a, hs, SameTerms.refl _, Or.inl ⟨hm, (sameBody_setServerHeaders srv a s).chunked⟩⟩
  · exact ⟨s, a, hs, sameTerms_sentResponse srv path _, Or.inr ⟨hm, hh⟩⟩

/-! ## The number of requests -/

theorem length_flatMap_le {α β γ : Type} {f : α → List β} {g : α → List γ} {xs : List α}
    (h : ∀ x ∈ xs, (f x).length ≤ (g x).length) :
    (xs.flatMap f).length ≤ (xs.flatMap g).length := by
  induction xs with
  | nil => exact Nat.le_refl _
  | cons x xs ih =>
    obtain ⟨hx, hxs⟩ := List.forall_mem_cons.mp h
    rw [List.flatMap_cons, List.flatMap_cons, List.length_append, List.length_append]
    exact Nat.add_le_add hx (ih hxs)

/-- Each exchange before the one under way has one request. -/
theorem parsedOf_length_of_past {old : List Obs} (h : ∀ x ∈ past old, x.requests.length = 1) :
    (parsedOf old).length = (past old).length + (current old).requests.length := by
  have hsum : ∀ xs : List Exchange, (∀ x ∈ xs, x.requests.length = 1) →
      (xs.flatMap Exchange.requests).length = xs.length := by
    intro xs
    induction xs with
    | nil => exact fun _ => rfl
    | cons x xs ih =>
      intro hxs
      obtain ⟨hx, hxs⟩ := List.forall_mem_cons.mp hxs
      rw [List.flatMap_cons, List.length_append, hx, ih hxs, List.length_cons, Nat.add_comm]
  rw [← flatMap_requests, exchanges, List.flatMap_append, List.flatMap_singleton,
    List.length_append, hsum _ fun x hx => h x (List.mem_reverse.mp hx), List.length_reverse]

variable {srv}

/-- What was settled for a reply counts the requests so far. -/
theorem Heeds.count {old : List Obs} {m : Message} {s : AsyncConnection} (h : Heeds srv old m s)
    (hone : ∀ x ∈ past old, x.requests.length = 1) (hk : s.itsKeepAlive = true) :
    s.itsRequestCount = (parsedOf old).length := by
  obtain ⟨hlen, hcount, -⟩ := h.counted hk
  rw [hcount, parsedOf_length_of_past hone, hlen]

/-- **The `Keep-Alive` field of a header section.** -/
theorem Origin.remaining {old : List Obs} {m : Message} {r : Response} (h : Origin srv old m r)
    (hone : ∀ x ∈ past old, x.requests.length = 1) (hmax : 0 < srv.itsMaxKeepAliveRequests)
    {v : Bytes} (hv : r.getHeader "Keep-Alive".toList = some v) :
    (parsedOf old).length < srv.itsMaxKeepAliveRequests ∧
      v = "timeout=".toList ++ toDecimal srv.itsKeepAliveTimeout ++
        (", max=".toList ++ toDecimal (srv.itsMaxKeepAliveRequests - (parsedOf old).length)) := by
  obtain ⟨s, a, hs, hsame, -⟩ := h.sameTerms
  rw [hsame.field _ (by decide)] at hv
  obtain ⟨hk, rfl⟩ := keepAliveField_setServerHeaders srv a hv
  have hcount := hs.count hone hk
  refine ⟨?_, ?_⟩
  · rw [← hcount]
    exact (hs.counted hk).2.2 hmax
  · unfold keepAliveField
    rw [if_pos hmax, hcount]

/-- The server without a cap on the number of requests. -/
def Server.uncapped (srv : Server) : Server := { srv with itsMaxKeepAliveRequests := 0 }

/-- The cap ends a connection at the request that reaches it, and changes no other
decision. -/
theorem keepAlive_negotiate (hmax : 0 < srv.itsMaxKeepAliveRequests) (t : AsyncConnection) :
    (negotiate srv t).itsKeepAlive =
      ((negotiate (Server.uncapped srv) t).itsKeepAlive &&
        decide (t.itsRequestCount + 1 < srv.itsMaxKeepAliveRequests)) := by
  have hdecide : ∀ u : AsyncConnection, evaluateKeepAlive srv u =
      (evaluateKeepAlive (Server.uncapped srv) u &&
        decide (u.itsRequestCount < srv.itsMaxKeepAliveRequests)) := by
    intro u
    unfold evaluateKeepAlive Server.uncapped
    dsimp only
    split
    · rfl
    split
    · rfl
    by_cases hlt : u.itsRequestCount < srv.itsMaxKeepAliveRequests
    · have hge : ¬ u.itsRequestCount ≥ srv.itsMaxKeepAliveRequests := by omega
      simp [hlt, hge]
    · have hge : u.itsRequestCount ≥ srv.itsMaxKeepAliveRequests := by omega
      simp [hlt, hge, hmax]
  exact hdecide { t with
    itsRequestCount := t.itsRequestCount + 1
    itsResponseVersion := negotiateVersion srv.spine t.itsRequest.version }

variable (srv)

/-- The state in which `handleParsedRequest` settles the terms of the request `r`, of
`n` bytes, that a queued call of `handleRead` has completed with `bytes`. -/
def takenUp (a : Answers) (bytes : Bytes) (r : Request) (n : ℕ) (s : AsyncConnection) :
    Option AsyncConnection :=
  let t := leaveIdle srv { s with itsFinalStatus := .success }
  let rest := (t.itsBuffer ++ bytes).drop n
  resolveClientIP srv a
    (AsyncConnection.emit
      { t with itsRequest := r, itsBuffer := rest, itsReceivedBytes := rest.length } (.parsed r))

/-- The rest of `handleParsedRequest`, behind the negotiation. -/
def serveRequest (a : Answers) (s : AsyncConnection) : AsyncConnection :=
  if s.itsResponseVersion = .v1_1 && (s.itsRequest.headers.get "Host".toList).isNone then
    sendStockReply srv a .badRequest { s with itsKeepAlive := false }
  else routeRequest srv a (prepareRequest s)

variable {srv}

/-- The swap of the timer is silent about the request. -/
theorem leaveIdle_members (s : AsyncConnection) :
    (leaveIdle srv s).itsBuffer = s.itsBuffer ∧
      (leaveIdle srv s).itsReceivedBytes = s.itsReceivedBytes ∧
      (leaveIdle srv s).itsRequestCount = s.itsRequestCount ∧
      parsedOf (leaveIdle srv s).world.trace = parsedOf s.world.trace := by
  unfold leaveIdle
  split
  · refine ⟨rfl, rfl, rfl, ?_⟩
    exact (trail_armTimer srv.itsTimeout { s with itsIdle := false }).parsedOf (by
      rintro o ⟨g, n, rfl⟩ r
      simp)
  · exact ⟨rfl, rfl, rfl, rfl⟩

/-- A completed request is taken up, unless the server refuses it before. -/
theorem step_takenUp {s t : AsyncConnection} (hinv : Inv srv s) {i : ℕ} {bytes : Bytes}
    {a : Answers} {r : Request} {n : ℕ} (hi : s.world.outstanding[i]? = some (.handleRead bytes))
    (hshut : s.world.shutdownRequested = false) (hsize : ¬ TooLarge srv (s.itsBuffer ++ bytes))
    (hparse : srv.spine.parseOneRequest (s.itsBuffer ++ bytes) = .complete r n)
    (ht : takenUp srv a bytes r n (s.release i) = some t) :
    step srv s (.runRead i a) = some (serveRequest srv a (negotiate srv t)) := by
  obtain ⟨hrel, -, hp⟩ := hinv.released srv hi
  have hr : Reading srv s.bare := hp
  rw [hrel] at ht
  simp only [step, hi, hrel]
  unfold handleRead
  rw [if_neg (by rw [show s.bare.world.shutdownRequested = false from hshut]; simp)]
  dsimp only
  rw [if_pos rfl]
  unfold handleReadBytes
  obtain ⟨hb, hrec, -, -⟩ := @leaveIdle_members srv { s.bare with itsFinalStatus := .success }
  unfold takenUp at ht
  dsimp only at ht ⊢
  generalize leaveIdle srv { s.bare with itsFinalStatus := .success } = u at ht hb hrec ⊢
  have hlen : u.itsReceivedBytes + bytes.length = (s.itsBuffer ++ bytes).length := by
    rw [hrec, List.length_append]
    exact congrArg (· + bytes.length) hr.received
  have hbuf : u.itsBuffer = s.itsBuffer := hb
  rw [if_neg (by rw [hlen]; simpa [TooLarge] using hsize)]
  unfold parseBuffer
  dsimp only
  rw [hbuf] at ht ⊢
  rw [hparse]
  dsimp only
  unfold handleParsedRequest
  dsimp only
  split
  · rename_i hnone
    have hne := hnone.symm.trans ht
    cases hne
  · rename_i t' hsome
    obtain rfl : t' = t := Option.some.inj (hsome.symm.trans ht)
    rfl

/-- The number of the request that is taken up. -/
theorem Traced.number {s t : AsyncConnection} (h : Traced srv s) (hinv : Inv srv s) {i : ℕ}
    {bytes : Bytes} {a : Answers} {r : Request} {n : ℕ}
    (hi : s.world.outstanding[i]? = some (.handleRead bytes))
    (ht : takenUp srv a bytes r n (s.release i) = some t) :
    t.itsRequestCount + 1 = (parsedOf t.world.trace).length := by
  obtain ⟨hrel, hu, hp⟩ := h.released hinv hi
  have hr : Reading srv s.bare := hp
  have hcount : s.bare.itsRequestCount = (past s.world.trace).length := by
    cases hu.live with
    | reading _ hc hk hv => exact hc
    | taken q ip hreq hi' hc hv hcap =>
      have hne := hr.requests.symm.trans hreq
      cases hne
  have hlen := hinv.parsedOf_length srv
  rw [show s.exchange.requests = [] from hr.requests] at hlen
  rw [hrel] at ht
  unfold takenUp at ht
  obtain ⟨-, -, hc, hparsed⟩ := @leaveIdle_members srv
    { s.bare with itsFinalStatus := .success }
  dsimp only at ht
  generalize leaveIdle srv { s.bare with itsFinalStatus := .success } = u at ht hc hparsed
  obtain ⟨-, ip, rfl⟩ := resolveClientIP_eq srv a ht
  show u.itsRequestCount + 1 = (parsedOf (.parsed r :: u.world.trace)).length
  rw [parsedOf_parsed, List.length_append, hc, hparsed]
  show s.bare.itsRequestCount + 1 = (parsedOf s.world.trace).length + 1
  rw [hcount, hlen]
  rfl

/-- Each exchange before the one under way has one request, at any time before. -/
theorem Inv.one_request {s : AsyncConnection} (h : Inv srv s) {new old : List Obs}
    (heq : s.world.trace = new ++ old) : ∀ x ∈ past old, x.requests.length = 1 := by
  intro x hx
  refine (h.1.past x ?_).request
  show x ∈ past s.world.trace
  rw [heq]
  exact (past_suffix new old).subset hx

variable (srv)

/-- **The cap on the number of requests, and its announcement.**  A connection takes
no more requests than the cap, and calls no more handlers.  The `Keep-Alive` field of a
header section names the number of requests the cap still leaves, and that is at least
one.  The cap changes the decision for no request but the one that reaches it, whatever
else is decided. -/
theorem keep_alive_cap {s : AsyncConnection} (h : Reachable srv s)
    (hmax : 0 < srv.itsMaxKeepAliveRequests) :
    (parsedOf s.world.trace).length ≤ srv.itsMaxKeepAliveRequests ∧
    ((exchanges s.world.trace).flatMap Exchange.dispatched).length
      ≤ (parsedOf s.world.trace).length ∧
    EachHead (fun old _ r => ∀ v, r.getHeader "Keep-Alive".toList = some v →
      (parsedOf old).length < srv.itsMaxKeepAliveRequests ∧
        v = "timeout=".toList ++ toDecimal srv.itsKeepAliveTimeout ++
          (", max=".toList ++ toDecimal (srv.itsMaxKeepAliveRequests - (parsedOf old).length)))
      s.world.trace ∧
    ∀ i bytes a r n t, s.world.outstanding[i]? = some (.handleRead bytes) →
      s.world.shutdownRequested = false → ¬ TooLarge srv (s.itsBuffer ++ bytes) →
      srv.spine.parseOneRequest (s.itsBuffer ++ bytes) = .complete r n →
      takenUp srv a bytes r n (s.release i) = some t →
      step srv s (.runRead i a) = some (serveRequest srv a (negotiate srv t)) ∧
        (negotiate srv t).itsKeepAlive = ((negotiate (Server.uncapped srv) t).itsKeepAlive &&
          decide ((parsedOf t.world.trace).length < srv.itsMaxKeepAliveRequests)) := by
  obtain ⟨hinv, ht⟩ := traced_reachable srv h
  have hpast : ∀ x ∈ past s.world.trace, x.requests.length = 1 :=
    @Inv.one_request srv s hinv [] _ rfl
  refine ⟨?_, ?_, ?_, ?_⟩
  · have hcap := ht.capped hmax
    -- every exchange that is over took one request, and the present one at most one
    have hone : s.exchange.requests.length ≤ 1 :=
      (sound_exchanges srv hinv (mem_exchanges.mpr (Or.inr rfl))).one_request
    rw [parsedOf_length_of_past hpast]
    show _ + s.exchange.requests.length ≤ _
    omega
  · rw [← flatMap_requests]
    refine length_flatMap_le fun x hx => ?_
    rcases (ht.answered x hx).dispatched with hd | ⟨q, ip, hq, hd⟩
    · rw [hd]
      exact Nat.zero_le _
    · rw [hd, hq]
      exact Nat.le_refl _
  · intro new m r head old heq v hv
    exact (ht.heads new m r head old heq).remaining
      (@Inv.one_request srv s hinv (new ++ [.rendered m r head]) old (by simp [heq])) hmax hv
  · intro i bytes a r n t hi hshut hsize hparse htaken
    refine ⟨step_takenUp hinv hi hshut hsize hparse htaken, ?_⟩
    rw [keepAlive_negotiate hmax, ht.number hinv hi htaken]

/-- A server that takes two requests, and a client that sends three. -/
def cappedServer : Server := { MinimalSpine.server with itsMaxKeepAliveRequests := 2 }

/-- The three requests arrive in one read. -/
def cappedRun : List Event :=
  [.receive 0 ("GET /a HTTP/1.0\r\nConnection: keep-alive\r\n\r\n" ++
      "GET /a HTTP/1.0\r\nConnection: keep-alive\r\n\r\n" ++
      "GET /a HTTP/1.0\r\nConnection: keep-alive\r\n\r\n").toList,
    .runRead 0 MinimalSpine.answers, .runRead 0 MinimalSpine.answers]

theorem keep_alive_cap_two :
    ∃ s, runFrom cappedServer (start cappedServer) cappedRun = some s ∧
      (parsedOf s.world.trace).length = 2 ∧ s.world.socket = .closed ∧
      (parsedOf s.world.trace).length ≤ cappedServer.itsMaxKeepAliveRequests := by
  have hrun : (runFrom cappedServer (start cappedServer) cappedRun).any (fun s =>
      (parsedOf s.world.trace).length == 2 && s.world.socket == .closed) = true := by
    decide +kernel
  obtain ⟨s, hs, hp⟩ := (Option.any_eq_true _ _).mp hrun
  simp only [Bool.and_eq_true, beq_iff_eq] at hp
  exact ⟨s, hs, hp.1, hp.2, (keep_alive_cap cappedServer ⟨_, hs⟩ (by decide)).1⟩

end AsyncConnection

end SmartMet
