/-
# Where the header sections come from

A header section is built from the members that were settled for the request of
its exchange (`Heeds`), that of a handler's response from the response the handler
has left (`Answered`).  Both are kept by every step.
-/
import SmartMetServer.HopByHop
import SmartMetServer.OwnReplies
import SmartMetServer.Reassembly

namespace SmartMet

open Exchange

/-! ## Header sections in a trace -/

/-- What holds of every header section, given the events before it. -/
def EachHead (P : List Obs → Message → Response → Prop) (t : List Obs) : Prop :=
  ∀ new m r head old, t = new ++ .rendered m r head :: old → P old m r

/-- Every header section of a trace: the newest and the earlier ones. -/
theorem eachHead_cons {P : List Obs → Message → Response → Prop} {o : Obs} {t : List Obs} :
    EachHead P (o :: t) ↔
      (∀ m r head, o = .rendered m r head → P t m r) ∧ EachHead P t := by
  refine ⟨fun h => ⟨?_, ?_⟩, fun h new m r head old heq => ?_⟩
  · rintro m r head rfl
    exact h [] m r head t rfl
  · rintro new m r head old rfl
    exact h (o :: new) m r head old rfl
  · cases new with
    | nil =>
      obtain ⟨rfl, rfl⟩ := List.cons.inj heq
      exact h.1 m r head rfl
    | cons p new =>
      obtain ⟨rfl, rfl⟩ := List.cons.inj heq
      exact h.2 new m r head old rfl

/-- Other events leave no header section. -/
theorem EachHead.append {P : List Obs → Message → Response → Prop} {new t : List Obs}
    (h : EachHead P t) (hnew : ∀ o ∈ new, ∀ m r head, o ≠ .rendered m r head) :
    EachHead P (new ++ t) := by
  induction new with
  | nil => exact h
  | cons o new ih =>
    obtain ⟨ho, hnew⟩ := List.forall_mem_cons.mp hnew
    exact eachHead_cons.mpr ⟨fun m r head he => absurd he (ho m r head), ih hnew⟩

/-- The events that tell of a request, of its handler or of a header section. -/
def Obs.Telling : Obs → Prop
  | .parsed _ => True
  | .peerUnknown => True
  | .dispatched _ => True
  | .handled _ => True
  | .started _ => True
  | .rendered _ _ _ => True
  | _ => False

/-- A delivery tells nothing of the request, and ends no exchange. -/
theorem telling_of_deliveryEvent {o : Obs} (h : AsyncConnection.DeliveryEvent o) :
    ¬ o.Telling ∧ o ≠ .rearmed := by
  cases o with
  | rendered m r head => exact absurd h id
  | wrote m b => exact ⟨id, (by simp)⟩
  | writeError m => exact ⟨id, (by simp)⟩
  | chunk c own => exact ⟨id, (by simp)⟩
  | streamEnded st own => exact ⟨id, (by simp)⟩
  | streamLogged n => exact ⟨id, (by simp)⟩
  | backendFinished st => exact ⟨id, (by simp)⟩
  | closed => exact ⟨id, (by simp)⟩
  | _ => exact absurd h id

namespace AsyncConnection

variable (srv : Server)

/-! ## The response of a handler -/

/-- The response whose header section goes out on a reply path, from the state
behind `setServerHeaders`. -/
def sentResponse (path : ReplyPath) (s : AsyncConnection) : Response :=
  match path with
  | .regular =>
    (renderHeaders srv (frameResponse srv s.itsHeadRequest
      (echoETag srv s.itsRequest (encodeResponse srv s.itsRequest s.itsResponse)))).1
  | .stream =>
    (renderHeaders srv (s.itsResponse.setHeader "Content-Length".toList
      (toDecimal s.itsResponse.getContentLength))).1
  | .chunked =>
    (renderHeaders srv ((s.itsResponse.setHeader "Transfer-Encoding".toList
      "chunked".toList).removeHeader "Content-Length".toList)).1
  | .gateway => s.itsResponse

/-- The handler's response `h` to the request `q` goes out on `path` with the header
section of `r`. -/
structure SentAs (q : Request) (h : Response) (path : ReplyPath) (r : Response) : Prop where
  route : path = replyPath (decide (q.method = .head)) h
  sent : ∃ s a ip, s.itsRequest = handedOn q ip ∧ s.itsResponse = h ∧
    s.itsHeadRequest = decide (q.method = .head) ∧
    r = sentResponse srv path (setServerHeaders srv a s)

/-- What an exchange tells of its handler. -/
structure Answered (x : Exchange) : Prop where
  dispatched : x.dispatched = [] ∨
    ∃ q ip, x.requests = [q] ∧ x.dispatched = [handedOn q ip]
  routed : ∀ p, x.path = some p → ∃ q h, x.requests = [q] ∧ x.handled = some h ∧
    p = replyPath (decide (q.method = .head)) h
  heads : ∀ p ∈ x.heads, p.1 = .handler → ∃ q h path, x.requests = [q] ∧ x.handled = some h ∧
    x.path = some path ∧ path ≠ .gateway ∧ SentAs srv q h path p.2.1

/-- Nothing has been answered yet. -/
theorem answered_empty : Answered srv {} := by
  refine ⟨Or.inl rfl, ?_, ?_⟩
  · intro p hp
    cases hp
  · intro p hp
    cases hp

/-- An event that tells nothing leaves the answers alone. -/
theorem Answered.observe {x : Exchange} (h : Answered srv x) {o : Obs} (ho : ¬ o.Telling) :
    Answered srv (x.observe o) := by
  cases o with
  | parsed r => exact absurd trivial ho
  | peerUnknown => exact absurd trivial ho
  | dispatched r => exact absurd trivial ho
  | handled r => exact absurd trivial ho
  | started p => exact absurd trivial ho
  | rendered m r head => exact absurd trivial ho
  | _ => exact ⟨h.dispatched, h.routed, h.heads⟩

/-- A header section of the server's own. -/
theorem Answered.rendered {x : Exchange} (h : Answered srv x) {m : Message} (hm : m ≠ .handler)
    (r : Response) (head : Bytes) : Answered srv (x.observe (.rendered m r head)) := by
  refine ⟨h.dispatched, h.routed, fun p hp hmp => ?_⟩
  rcases List.mem_append.mp hp with hp | hp
  · exact h.heads p hp hmp
  · obtain rfl := List.mem_singleton.mp hp
    exact absurd hmp hm

/-! ## The members a reply is built from -/

/-- A transfer coding the client is told of: the server's own, or one that a handler
or the library has put on a response. -/
def Coded (x : Exchange) : Prop :=
  (x.path = some .chunked ∧
      ∃ h, x.handled = some h ∧ h.hasStreamContent = true ∧ h.chunked = true) ∨
    (∃ h, x.handled = some h ∧ h.getHeader "Transfer-Encoding".toList ≠ none) ∨
    srv.spine.stockOptionsResponse.getHeader "Transfer-Encoding".toList ≠ none

/-- The members `s` of a reply `m` heed the request under way behind the events
`old`. -/
structure Heeds (old : List Obs) (m : Message) (s : AsyncConnection) : Prop where
  version : ∀ q ∈ (current old).requests,
    s.itsResponseVersion = negotiateVersion srv.spine q.version ∨
      m = .stock .requestTimeout ∧ s.itsResponseVersion = .v1_0 ∧ (current old).peerUnknown = true
  counted : s.itsKeepAlive = true → (current old).requests.length = 1 ∧
    s.itsRequestCount = (past old).length + 1 ∧
    (0 < srv.itsMaxKeepAliveRequests → s.itsRequestCount < srv.itsMaxKeepAliveRequests)
  coding : s.itsResponse.getHeader "Transfer-Encoding".toList ≠ none → Coded srv (current old)

/-- A header section of a reply that heeds its request. -/
def Origin (old : List Obs) (m : Message) (r : Response) : Prop :=
  ∃ s a, Heeds srv old m s ∧
    (m ≠ .handler ∧ r = (setServerHeaders srv a s).itsResponse ∨
      m = .handler ∧ ∃ path, (current old).handled = some s.itsResponse ∧
        (current old).path = some path ∧ path ≠ .gateway ∧
        path = replyPath s.itsHeadRequest s.itsResponse ∧
        r = sentResponse srv path (setServerHeaders srv a s))

/-- A request is being read, or was taken up. -/
inductive Live (s : AsyncConnection) : Prop
  | reading (requests : s.exchange.requests = [])
      (count : s.itsRequestCount = (past s.world.trace).length) (keepAlive : s.itsKeepAlive = false)
      (version : s.itsResponseVersion = .v1_0)
  | taken (q : Request) (ip : Bytes) (requests : s.exchange.requests = [q])
      (request : s.itsRequest = handedOn q ip)
      (count : s.itsRequestCount = (past s.world.trace).length + 1)
      (version : s.itsResponseVersion = negotiateVersion srv.spine q.version)
      (keepAlive : s.itsKeepAlive = true → 0 < srv.itsMaxKeepAliveRequests →
        s.itsRequestCount < srv.itsMaxKeepAliveRequests)

/-- The request was turned away. -/
structure TurnedAway (s : AsyncConnection) : Prop where
  outstanding : s.world.outstanding = []
  keepAlive : s.itsKeepAlive = false
  version : ∀ q ∈ s.exchange.requests,
    s.itsResponseVersion = negotiateVersion srv.spine q.version ∨
      s.itsResponseVersion = .v1_0 ∧ s.exchange.peerUnknown = true

/-- The events so far. -/
structure Recorded (s : AsyncConnection) : Prop where
  coding : s.itsResponse.getHeader "Transfer-Encoding".toList ≠ none → Coded srv s.exchange
  answered : ∀ x ∈ exchanges s.world.trace, Answered srv x
  heads : EachHead (Origin srv) s.world.trace
  capped : 0 < srv.itsMaxKeepAliveRequests →
    (past s.world.trace).length < srv.itsMaxKeepAliveRequests

/-- The events so far, and how far the exchange under way has come. -/
structure Traced (s : AsyncConnection) : Prop extends Recorded srv s where
  stage : Live srv s ∨ TurnedAway srv s

/-- The members that were settled for a reply. -/
def terms (s : AsyncConnection) : Request × ℕ × HttpVersion :=
  (s.itsRequest, s.itsRequestCount, s.itsResponseVersion)

/-- The code between `s` and `t` goes on with the reply to the same request. -/
structure GoesOn (s t : AsyncConnection) : Prop where
  terms : t.terms = s.terms
  keepAlive : t.itsKeepAlive = true → s.itsKeepAlive = true
  coding : t.itsResponse.getHeader "Transfer-Encoding".toList
    = s.itsResponse.getHeader "Transfer-Encoding".toList

namespace GoesOn

variable {s t u : AsyncConnection}

/-- A connection goes on as it is. -/
theorem refl (s : AsyncConnection) : GoesOn s s := ⟨rfl, id, rfl⟩

/-- Two parts in a row. -/
theorem trans (h : GoesOn s t) (h' : GoesOn t u) : GoesOn s u :=
  ⟨h'.terms.trans h.terms, fun hk => h.keepAlive (h'.keepAlive hk), h'.coding.trans h.coding⟩

end GoesOn

variable {srv}

/-- Events that tell nothing of the request and re-arm nothing. -/
theorem exchange_of_not_telling {new t : List Obs}
    (h : ∀ o ∈ new, ¬ o.Telling ∧ o ≠ .rearmed) :
    past (new ++ t) = past t ∧ (current (new ++ t)).requests = (current t).requests ∧
      (current (new ++ t)).peerUnknown = (current t).peerUnknown ∧
      (current (new ++ t)).handled = (current t).handled ∧
      (current (new ++ t)).path = (current t).path := by
  induction new with
  | nil => exact ⟨rfl, rfl, rfl, rfl, rfl⟩
  | cons o new ih =>
    obtain ⟨⟨ho, hr⟩, hnew⟩ := List.forall_mem_cons.mp h
    obtain ⟨hp, hq, hu, hh, hpath⟩ := ih hnew
    rw [List.cons_append, past_cons hr, current_cons hr]
    refine ⟨hp, ?_, ?_, ?_, ?_⟩
    · rw [← hq]
      cases o <;> first | rfl | exact absurd trivial ho
    · rw [← hu]
      cases o <;> first | rfl | exact absurd trivial ho
    · rw [← hh]
      cases o <;> first | rfl | exact absurd trivial ho
    · rw [← hpath]
      cases o <;> first | rfl | exact absurd trivial ho

/-- What a trail that tells nothing leaves of the exchange under way. -/
theorem Trail.untold {A : Obs → Prop} {s t : AsyncConnection} (ht : Trail A s t)
    (hA : ∀ o, A o → ¬ o.Telling ∧ o ≠ .rearmed) :
    past t.world.trace = past s.world.trace ∧ t.exchange.requests = s.exchange.requests ∧
      t.exchange.peerUnknown = s.exchange.peerUnknown ∧
      t.exchange.handled = s.exchange.handled ∧ t.exchange.path = s.exchange.path := by
  obtain ⟨new, hnew, hev⟩ := ht.events
  unfold exchange
  rw [hnew]
  exact exchange_of_not_telling fun o h => hA o (hev o h).1

/-- A request that lives goes on living behind events that tell nothing. -/
theorem Live.goesOn {A : Obs → Prop} {s t : AsyncConnection} (h : Live srv s)
    (ht : Trail A s t) (hA : ∀ o, A o → ¬ o.Telling ∧ o ≠ .rearmed) (hg : GoesOn s t) :
    Live srv t := by
  obtain ⟨hp, hq, -⟩ := ht.untold hA
  have hterms := hg.terms
  simp only [terms, Prod.mk.injEq] at hterms
  obtain ⟨hreq, hcount, hversion⟩ := hterms
  cases h with
  | reading hr hc hk hv =>
    refine .reading (hq.trans hr) (by rw [hcount, hc, hp]) ?_ (hversion.trans hv)
    cases ht : t.itsKeepAlive with
    | false => rfl
    | true => exact absurd (hg.keepAlive ht) (by rw [hk]; simp)
  | taken q ip hr hi hc hv hk =>
    exact .taken q ip (hq.trans hr) (hreq.trans hi) (by rw [hcount, hc, hp])
      (hversion.trans hv) fun hk' => by rw [hcount]; exact hk (hg.keepAlive hk')

/-- One that was turned away stays so. -/
theorem TurnedAway.goesOn {A : Obs → Prop} {s t : AsyncConnection} (h : TurnedAway srv s)
    (ht : Trail A s t) (hA : ∀ o, A o → ¬ o.Telling ∧ o ≠ .rearmed) (hg : GoesOn s t)
    (ho : t.world.outstanding = s.world.outstanding) : TurnedAway srv t := by
  obtain ⟨-, hq, hu, -⟩ := ht.untold hA
  have hterms := hg.terms
  simp only [terms, Prod.mk.injEq] at hterms
  refine ⟨ho.trans h.outstanding, ?_, ?_⟩
  · cases ht : t.itsKeepAlive with
    | false => rfl
    | true => exact absurd (hg.keepAlive ht) (by rw [h.keepAlive]; simp)
  · rw [hq, hu, hterms.2.2]
    exact h.version

/-- What is recorded of the request stays recorded. -/
theorem Recorded.goesOn {A : Obs → Prop} {s t : AsyncConnection} (h : Recorded srv s)
    (ht : Trail A s t) (hA : ∀ o, A o → ¬ o.Telling ∧ o ≠ .rearmed) (hg : GoesOn s t) :
    Recorded srv t := by
  obtain ⟨hp, -, -, hh, hpath⟩ := ht.untold hA
  obtain ⟨new, hnew, hev⟩ := ht.events
  refine ⟨?_, ?_, ?_, by rw [hp]; exact h.capped⟩
  · intro hc
    rw [hg.coding] at hc
    rcases h.coding hc with ⟨h1, r, h2, h3⟩ | ⟨r, h1, h2⟩ | h1
    · exact Or.inl ⟨hpath.trans h1, r, hh.trans h2, h3⟩
    · exact Or.inr (Or.inl ⟨r, hh.trans h1, h2⟩)
    · exact Or.inr (Or.inr h1)
  · obtain ⟨hcur, hpast⟩ := exchange_append (R := Answered srv) (t := s.world.trace)
      (h.answered _ (mem_exchanges.mpr (Or.inr rfl))) (answered_empty srv)
      fun o (ho : o ∈ new) _ x hx => hx.observe srv (hA o (hev o ho).1).1
    rw [hnew]
    intro x hx
    rcases mem_exchanges.mp hx with hx | rfl
    · exact (hpast x hx).elim (fun hx => h.answered x (mem_exchanges.mpr (Or.inl hx))) id
    · exact hcur
  · rw [hnew]
    refine h.heads.append fun o ho m r head => ?_
    rintro rfl
    exact (hA _ (hev _ ho).1).1 trivial

/-- A request is being read or answered. -/
structure Underway (srv : Server) (s : AsyncConnection) : Prop extends Recorded srv s where
  live : Live srv s

/-- A request under way is traced. -/
theorem Underway.traced {s : AsyncConnection} (h : Underway srv s) : Traced srv s :=
  ⟨h.toRecorded, Or.inl h.live⟩

/-- It stays under way, -/
theorem Underway.goesOn {A : Obs → Prop} {s t : AsyncConnection} (h : Underway srv s)
    (ht : Trail A s t) (hA : ∀ o, A o → ¬ o.Telling ∧ o ≠ .rearmed) (hg : GoesOn s t) :
    Underway srv t :=
  ⟨h.toRecorded.goesOn ht hA hg, h.live.goesOn ht hA hg⟩

/-- and traced. -/
theorem Traced.goesOn {A : Obs → Prop} {s t : AsyncConnection} (h : Traced srv s)
    (ht : Trail A s t) (hA : ∀ o, A o → ¬ o.Telling ∧ o ≠ .rearmed) (hg : GoesOn s t)
    (ho : t.world.outstanding = s.world.outstanding) : Traced srv t :=
  ⟨h.toRecorded.goesOn ht hA hg, h.stage.imp (fun hl => hl.goesOn ht hA hg)
    fun hl => hl.goesOn ht hA hg ho⟩

/-! ## Functions that go on with a reply -/

/-- The notification of the backend changes nothing of the request, -/
theorem goesOn_notifyBackendFinished (st : StreamerStatus) (s : AsyncConnection) :
    GoesOn s (notifyBackendFinished st s) := by
  unfold notifyBackendFinished
  split
  · exact GoesOn.refl s
  · exact ⟨rfl, id, rfl⟩

/-- nor does the log, -/
theorem goesOn_finalizeStreamLogging (s : AsyncConnection) :
    GoesOn s (finalizeStreamLogging s) := by
  unfold finalizeStreamLogging
  split
  · exact ⟨rfl, id, rfl⟩
  · exact GoesOn.refl s

/-- the write of a header section, -/
theorem goesOn_flushPendingHeaders (a : Answers) (s : AsyncConnection) :
    GoesOn s (flushPendingHeaders a s) := by
  unfold flushPendingHeaders
  split
  · exact GoesOn.refl s
  · exact ⟨rfl, id, rfl⟩

/-- the keeping of the books, -/
theorem goesOn_keep (books : Books) (s : AsyncConnection) : GoesOn s (books.keep s) := by
  cases books with
  | none => exact GoesOn.refl s
  | log => exact goesOn_finalizeStreamLogging s
  | logAndNotify status =>
    exact (goesOn_finalizeStreamLogging s).trans (goesOn_notifyBackendFinished _ _)

/-- the server's fields -/
theorem goesOn_setServerHeaders (a : Answers) (s : AsyncConnection) :
    GoesOn s (setServerHeaders srv a s) :=
  ⟨rfl, keepAlive_of_setServerHeaders srv a,
    (sameBody_setServerHeaders srv a s).field _ transferEncoding_not_mem⟩

/-- The response of a stock reply, in front of the server's own fields. -/
def stockPage (srv : Server) (st : Status) (s : AsyncConnection) : AsyncConnection :=
  { s with
    itsResponse := (s.itsResponse.setStatus srv.spine st).setHeader "Content-Length".toList
      (toDecimal (s.itsResponse.setStatus srv.spine st).getContentLength) }

/-- or the page of a status. -/
theorem goesOn_stockPage (st : Status) (s : AsyncConnection) : GoesOn s (stockPage srv st s) := by
  have hne : asciiToLower "Transfer-Encoding".toList ≠ asciiToLower "Content-Length".toList := by
    decide
  exact ⟨rfl, id, HeaderMap.get_set_of_ne _ _ hne⟩

/-! ## The last call -/

/-- A reply of the server's own. -/
structure OwnReply (srv : Server) (m : Message) (s : AsyncConnection) : Prop
    extends Traced srv s where
  message : m ≠ .handler
  origin : Origin srv s.world.trace m s.itsResponse

/-- What has to hold in front of the last call. -/
def Ready (srv : Server) : Outcome → Prop
  | .stop s => Traced srv s
  | .reply m s _ => OwnReply srv m s
  | .finish s => Underway srv s

/-- The members of a reply heed the request they were settled for. -/
theorem Traced.heeds {s : AsyncConnection} (h : Traced srv s) {m : Message}
    (hm : ∀ q ∈ s.exchange.requests,
      s.itsResponseVersion = negotiateVersion srv.spine q.version ∨
        m = .stock .requestTimeout ∧ s.itsResponseVersion = .v1_0 ∧
          s.exchange.peerUnknown = true) :
    Heeds srv s.world.trace m s := by
  refine ⟨hm, fun hk => ?_, h.coding⟩
  rcases h.stage with hl | hl
  · cases hl with
    | reading hr hc hk' hv =>
      rw [hk] at hk'
      cases hk'
    | taken q ip hr hi hc hv hcap =>
      have hlen : s.exchange.requests.length = 1 := by rw [hr]; rfl
      exact ⟨hlen, hc, hcap hk⟩
  · rw [hl.keepAlive] at hk
    cases hk

/-- The reply is in the version negotiated for the request. -/
theorem Live.version {s : AsyncConnection} (h : Live srv s) :
    ∀ q ∈ s.exchange.requests,
      s.itsResponseVersion = negotiateVersion srv.spine q.version := by
  intro q hq
  cases h with
  | reading hr hc hk hv =>
    rw [hr] at hq
    cases hq
  | taken q' ip hr hi hc hv hcap =>
    rw [hr] at hq
    obtain rfl := List.mem_singleton.mp hq
    exact hv

/-- A stock reply. -/
theorem Traced.stock {s : AsyncConnection} (h : Traced srv s) (st : Status) (a : Answers)
    (hm : ∀ q ∈ s.exchange.requests,
      s.itsResponseVersion = negotiateVersion srv.spine q.version ∨
        st = .requestTimeout ∧ s.itsResponseVersion = .v1_0 ∧ s.exchange.peerUnknown = true) :
    Ready srv (Tail.sendStockReply srv a st s) := by
  have hsilent : ∀ {t u : AsyncConnection}, u.world = t.world →
      Trail NoEvent t u := fun hw => Trail.silent (by rw [hw]) (by rw [hw]; exact id)
  have hnone : ∀ o, NoEvent o → ¬ o.Telling ∧ o ≠ .rearmed := fun o ho => absurd ho id
  have hpage : Traced srv (stockPage srv st s) :=
    h.goesOn (hsilent rfl) hnone (goesOn_stockPage st s) rfl
  refine ⟨hpage.goesOn (hsilent rfl) hnone (goesOn_setServerHeaders a _) rfl, (by simp), ?_⟩
  refine ⟨stockPage srv st s, a, hpage.heeds ?_, Or.inl ⟨(by simp), rfl⟩⟩
  exact fun q hq => (hm q hq).imp_right fun hv => ⟨by rw [hv.1], hv.2⟩

/-- The page of a status may be sent to a request under way. -/
theorem Underway.stock {s : AsyncConnection} (h : Underway srv s) (st : Status) (a : Answers) :
    Ready srv (Tail.sendStockReply srv a st s) :=
  h.traced.stock st a fun q hq => Or.inl (h.live.version q hq)

/-- The connection is re-armed for the next request. -/
theorem Underway.finishResponse {s : AsyncConnection} (h : Underway srv s) :
    Underway srv (finishResponse srv s) := by
  have hresume : ∀ u : AsyncConnection, Underway srv u → Underway srv (resumeReading u) := by
    intro u hu
    unfold resumeReading
    split
    · exact hu.goesOn (A := NoEvent) (Trail.silent rfl id) (fun o ho => absurd ho id) ⟨rfl, id, rfl⟩
    · exact hu.goesOn (A := NoEvent) (Trail.silent rfl id) (fun o ho => absurd ho id) ⟨rfl, id, rfl⟩
  unfold AsyncConnection.finishResponse
  split
  · rename_i hreuse
    have hk : s.itsKeepAlive = true := by
      unfold mayReuse at hreuse
      simp only [Bool.and_eq_true] at hreuse
      exact hreuse.1.1
    refine hresume _ ?_
    have hreset : Underway srv (resetRequestState s) := by
      -- a connection that persists has taken a request up, and is below the cap
      have htaken : s.itsRequestCount = (s.exchange :: past s.world.trace).length ∧
          (0 < srv.itsMaxKeepAliveRequests →
            s.itsRequestCount < srv.itsMaxKeepAliveRequests) := by
        cases h.live with
        | reading hr hc hk' hv =>
          rw [hk] at hk'
          cases hk'
        | taken q ip hr hi hc hv hcap => exact ⟨hc, hcap hk⟩
      refine ⟨⟨fun hc => absurd rfl hc, ?_, ?_, ?_⟩, .reading rfl htaken.1 rfl rfl⟩
      · intro x hx
        rcases mem_exchanges.mp hx with hx | rfl
        · rcases List.mem_cons.mp hx with rfl | hx
          · exact h.answered _ (mem_exchanges.mpr (Or.inr rfl))
          · exact h.answered x (mem_exchanges.mpr (Or.inl hx))
        · exact answered_empty srv
      · exact eachHead_cons.mpr ⟨(by simp), h.heads⟩
      · intro hmax
        have hlt := htaken.2 hmax
        rw [htaken.1] at hlt
        exact hlt
    refine hreset.goesOn (trail_armTimer _ _) ?_ ⟨rfl, id, rfl⟩
    rintro o ⟨g, n, rfl⟩
    exact ⟨id, (by simp)⟩
  · exact h

/-- An event of the exchange that tells of no request. -/
theorem Live.emit {s : AsyncConnection} (h : Live srv s) {o : Obs} (ho : o ≠ .rearmed)
    (hreq : (s.exchange.observe o).requests = s.exchange.requests) : Live srv (s.emit o) := by
  have hx : (s.emit o).exchange.requests = s.exchange.requests :=
    (congrArg Exchange.requests (current_cons ho _)).trans hreq
  have hp : past (s.emit o).world.trace = past s.world.trace := past_cons ho _
  cases h with
  | reading hr hc hk hv => exact .reading (hx.trans hr) (by rw [hp]; exact hc) hk hv
  | taken q ip hr hi hc hv hcap =>
    exact .taken q ip (hx.trans hr) hi (by rw [hp]; exact hc) hv hcap

/-- An event of the exchange under way. -/
theorem Recorded.emit {s : AsyncConnection} (h : Recorded srv s) {o : Obs} (ho : o ≠ .rearmed)
    (hcoded : s.itsResponse.getHeader "Transfer-Encoding".toList ≠ none →
      Coded srv (s.exchange.observe o))
    (hanswered : Answered srv s.exchange → Answered srv (s.exchange.observe o))
    (horigin : ∀ m r head, o = .rendered m r head → Origin srv s.world.trace m r) :
    Recorded srv (s.emit o) := by
  have hx : (s.emit o).exchange = s.exchange.observe o := current_cons ho _
  have hp : past (s.emit o).world.trace = past s.world.trace := past_cons ho _
  refine ⟨fun hc => ?_, ?_, eachHead_cons.mpr ⟨horigin, h.heads⟩, by rw [hp]; exact h.capped⟩
  · rw [hx]
    exact hcoded hc
  · intro x hxs
    rcases mem_exchanges.mp hxs with hxs | rfl
    · rw [hp] at hxs
      exact h.answered x (mem_exchanges.mpr (Or.inl hxs))
    · show Answered srv (s.emit o).exchange
      rw [hx]
      exact hanswered (h.answered _ (mem_exchanges.mpr (Or.inr rfl)))

/-- The header section of a reply of the server's own. -/
theorem OwnReply.rendered {m : Message} {s : AsyncConnection} (h : OwnReply srv m s)
    (head : Bytes) : Traced srv (s.emit (.rendered m s.itsResponse head)) := by
  refine ⟨h.toRecorded.emit (by simp) h.coding (fun hx => hx.rendered srv h.message _ _) ?_, ?_⟩
  · rintro m' r head' ⟨⟩
    exact h.origin
  · refine h.stage.imp (fun hl => hl.emit (by simp) rfl) fun hl => ⟨hl.outstanding, hl.keepAlive, ?_⟩
    exact hl.version

/-- A connection that persists has its request under way. -/
theorem Traced.underway {s : AsyncConnection} (h : Traced srv s) (hk : s.itsKeepAlive = true) :
    Underway srv s := by
  refine ⟨h.toRecorded, h.stage.resolve_right fun hl => ?_⟩
  rw [hl.keepAlive] at hk
  cases hk

/-- The server's own reply leaves the exchanges traced. -/
theorem OwnReply.sendSimpleReply {m : Message} {s : AsyncConnection} (h : OwnReply srv m s)
    (a : Answers) : Traced srv (sendSimpleReply srv a m s) := by
  have hwrite : ∀ (b : Bytes) (o : WriteOutcome) {t u : AsyncConnection}, Traced srv t →
      u.world = t.world.write m b o → GoesOn t u → Traced srv u := by
    intro b o t u ht hu hg
    have htrail : Trail (fun p => (∃ c, p = .wrote m c) ∨ p = .writeError m) t
        (AsyncConnection.write m b o t) :=
      Trail.write t b o (fun c => Or.inl ⟨c, rfl⟩) (Or.inr rfl)
    have htrail' : Trail (fun p => (∃ c, p = .wrote m c) ∨ p = .writeError m) t u :=
      htrail.trans (Trail.silent (by rw [hu]; rfl) (by rw [hu]; exact id))
    refine ht.goesOn htrail' ?_ hg (by rw [hu]; exact (World.write_delivers _ _ _ _).outstanding)
    rintro p (⟨c, rfl⟩ | rfl)
    · exact ⟨id, (by simp)⟩
    · exact ⟨id, (by simp)⟩
  unfold AsyncConnection.sendSimpleReply
  cases headersToString srv.spine s.itsResponse with
  | none => exact h.toTraced
  | some head =>
    dsimp only
    have hhead : Traced srv (writeHead a m head s) :=
      hwrite head a.headerWrite (h.rendered head) rfl ⟨rfl, id, rfl⟩
    have hcontent : Traced srv (writeContent a m (writeHead a m head s)) := by
      refine hwrite _ a.contentWrite hhead rfl ⟨rfl, fun hk => ?_, rfl⟩
      have hk' : ((writeHead a m head s).itsKeepAlive && _) = true := hk
      simp only [Bool.and_eq_true] at hk'
      exact hk'.1
    split
    · rename_i hk
      exact (hcontent.underway hk).finishResponse.traced
    · refine hcontent.goesOn (A := fun o => o = .closed) (Trail.close _ rfl) ?_ ⟨rfl, id, rfl⟩ rfl
      rintro o rfl
      exact ⟨id, (by simp)⟩

/-- **The last call** keeps what is told of the exchanges. -/
theorem Ready.run {x : Outcome} (h : Ready srv x) (a : Answers) : Traced srv (x.run srv a) := by
  cases x with
  | stop s => exact h
  | finish s => exact (Underway.finishResponse h).traced
  | reply m s books =>
    refine (OwnReply.sendSimpleReply h a).goesOn (stretch_keep books _).toTrail
      (fun o ho => telling_of_deliveryEvent ho) (goesOn_keep books _) (keep_fields books _).1

/-! ## The reply paths -/

/-- The delivery of a response. -/
theorem Underway.deliver {s t : AsyncConnection} (h : Underway srv s)
    (ht : Stretch DeliveryEvent s t) (hg : GoesOn s t) : Underway srv t :=
  h.goesOn ht.toTrail (fun _ ho => telling_of_deliveryEvent ho) hg

/-- Only members were set. -/
theorem Underway.set {s t : AsyncConnection} (h : Underway srv s) (hw : t.world = s.world)
    (hg : GoesOn s t) : Underway srv t :=
  h.goesOn (A := NoEvent) (Trail.silent (by rw [hw]) (by rw [hw]; exact id))
    (fun _ ho => absurd ho id) hg

/-- An activity is awaited. -/
theorem Underway.await {s : AsyncConnection} (h : Underway srv s) (y : Activity) :
    Traced srv (s.await y) := by
  have ht : Trail NoEvent s (s.await y) := Trail.silent rfl id
  exact (h.goesOn ht (fun _ ho => absurd ho id) ⟨rfl, id, rfl⟩).traced

/-- The pending header section is written. -/
theorem Underway.flush {s : AsyncConnection} (h : Underway srv s) (a : Answers) :
    Underway srv (flushPendingHeaders a s) :=
  h.deliver (stretch_flushPendingHeaders a s) (goesOn_flushPendingHeaders a s)

/-- The getter of the next chunk, or the page in its place. -/
theorem Underway.scheduleGetter {s : AsyncConnection} (h : Underway srv s) (a : Answers)
    (task : Task) : Ready srv (Tail.scheduleGetter srv a task s) := by
  unfold Tail.scheduleGetter
  split
  · exact h.await _
  · have hrefused : Underway srv (s.emit .refused) := by
      refine h.goesOn (A := fun o => o = .refused) (Trail.emit s rfl fun _ => id) ?_ ⟨rfl, id, rfl⟩
      rintro o rfl
      exact ⟨id, (by simp)⟩
    refine Underway.stock ?_ .serviceUnavailable a
    exact hrefused.set rfl ⟨rfl, fun hk => absurd hk Bool.false_ne_true, rfl⟩

/-- The end of a stream. -/
theorem Underway.finishStream {s : AsyncConnection} (h : Underway srv s) (st : StreamerStatus) :
    Ready srv (Tail.finishStream st s) := by
  refine h.deliver (stretch_finishStream st s) ?_
  refine ((goesOn_finalizeStreamLogging s).trans (goesOn_notifyBackendFinished st _)).trans ?_
  refine ⟨rfl, fun hk => ?_, rfl⟩
  have hk' : (_ && _) = true := hk
  simp only [Bool.and_eq_true] at hk'
  exact hk'.1

/-- The getter of a stream of announced length. -/
theorem Underway.getNextChunk {s : AsyncConnection} (h : Underway srv s) (a : Answers) :
    Ready srv (Tail.getNextChunk srv a s) := by
  have hended : ∀ st own, Underway srv (s.emit (.streamEnded st own)) := fun st _ =>
    h.deliver (Stretch.emit s trivial fun _ => id) ⟨rfl, id, rfl⟩
  unfold Tail.getNextChunk
  cases getStreamingStatus a s.itsResponse with
  | ok =>
    cases nextContent a s.itsResponse with
    | none => exact h.traced
    | some content =>
      have hchunk : Underway srv (takeChunk content s) :=
        h.deliver (stretch_takeChunk content s) ⟨rfl, id, rfl⟩
      dsimp only
      split
      · exact (hchunk.deliver (stretch_sendChunk _ _ _) ⟨rfl, id, rfl⟩).traced
      split
      · exact (hchunk.flush a).traced
      · exact (hchunk.flush a).scheduleGetter a _
  | exitOk =>
    dsimp only
    split
    · exact ((hended _ _).flush a).traced
    · exact ((hended _ _).flush a).finishStream _
  | exitError =>
    dsimp only
    split
    · exact ((hended _ _).flush a).traced
    · exact ((hended _ _).flush a).finishStream _

/-- The getter of a chunked stream. -/
theorem Underway.getNextChunkedChunk {s : AsyncConnection} (h : Underway srv s) (a : Answers) :
    Ready srv (Tail.getNextChunkedChunk srv a s) := by
  have hended : ∀ st own, Underway srv (notifyBackendFinished st (s.emit (.streamEnded st own))) := by
    intro st own
    have htold : Underway srv (s.emit (.streamEnded st own)) :=
      h.deliver (Stretch.emit s trivial fun _ => id) ⟨rfl, id, rfl⟩
    exact htold.deliver (stretch_notifyBackendFinished st _) (goesOn_notifyBackendFinished st _)
  unfold Tail.getNextChunkedChunk
  cases getStreamingStatus a s.itsResponse with
  | ok =>
    cases nextContent a s.itsResponse with
    | none => exact h.traced
    | some content =>
      have hchunk : Underway srv (takeChunk content s) :=
        h.deliver (stretch_takeChunk content s) ⟨rfl, id, rfl⟩
      dsimp only
      split
      · exact (hchunk.deliver (stretch_sendChunk _ _ _) ⟨rfl, id, rfl⟩).traced
      split
      · exact (hchunk.flush a).traced
      · exact (hchunk.flush a).scheduleGetter a _
  | exitOk => exact ((hended _ _).deliver (stretch_sendChunk _ _ _) ⟨rfl, id, rfl⟩).traced
  | exitError =>
    refine ((hended _ _).deliver (stretch_abandonChunked a _) ?_).traced
    refine ((goesOn_flushPendingHeaders a _).trans (goesOn_finalizeStreamLogging _)).trans ?_
    exact ⟨rfl, fun hk => absurd hk Bool.false_ne_true, rfl⟩

/-- The completion handlers of the writes. -/
theorem Underway.runWriteHandler {s : AsyncConnection} (h : Underway srv s) (a : Answers)
    (handler : WriteHandler) (e : ErrorCode) (n : ℕ) :
    Ready srv (Tail.runWriteHandler srv a handler e n s) := by
  have hcont : ∀ (next : AsyncConnection → Outcome) (failed : Books),
      (∀ t, Underway srv t → Ready srv (next t)) →
      Ready srv (Tail.continueWrite srv a handler e n next failed s) := by
    intro next failed hnext
    unfold Tail.continueWrite
    dsimp only
    split
    · split
      · refine Underway.await ?_ _
        exact h.set rfl ⟨rfl, id, rfl⟩
      · refine hnext _ ?_
        exact h.set rfl ⟨rfl, id, rfl⟩
    · refine Underway.stock ?_ .serviceUnavailable a
      exact h.set rfl ⟨rfl, fun hk => absurd hk Bool.false_ne_true, rfl⟩
  cases handler with
  | writeRegularReply =>
    exact hcont (fun s => .finish _) _ fun t ht =>
      ht.deliver (stretch_notifyBackendFinished .exitOk t) (goesOn_notifyBackendFinished .exitOk t)
  | writeStreamReply => exact hcont _ _ fun t ht => ht.scheduleGetter a _
  | writeChunkedReply => exact hcont _ _ fun t ht => ht.scheduleGetter a _
  | finalizeChunkedReply =>
    exact hcont (fun s => .finish _) _ fun t ht =>
      ht.deliver (stretch_finalizeStreamLogging t) (goesOn_finalizeStreamLogging t)

/-! ## The start of a reply -/

/-- The handler of the request `q` has left the response `h`. -/
structure Returned (srv : Server) (q : Request) (h : Response) (s : AsyncConnection) : Prop
    extends Underway srv s where
  requests : s.exchange.requests = [q]
  request : ∃ ip, s.itsRequest = handedOn q ip
  handled : s.exchange.handled = some h
  response : s.itsResponse = h
  headRequest : s.itsHeadRequest = decide (q.method = .head)
  unrendered : ∀ p ∈ s.exchange.heads, p.1 ≠ .handler

/-- The reply to it takes a path. -/
structure OnPath (srv : Server) (q : Request) (h : Response) (path : ReplyPath)
    (s : AsyncConnection) : Prop extends Returned srv q h s where
  started : s.exchange.path = some path
  route : path = replyPath (decide (q.method = .head)) h

/-- The handler's response is put on its path. -/
theorem Returned.begun {q : Request} {h : Response} {s : AsyncConnection}
    (hs : Returned srv q h s) :
    OnPath srv q h (replyPath s.itsHeadRequest s.itsResponse)
      (s.emit (.started (replyPath s.itsHeadRequest s.itsResponse))) := by
  let p := replyPath s.itsHeadRequest s.itsResponse
  have hx : (s.emit (.started p)).exchange = s.exchange.observe (.started p) := rfl
  refine ⟨⟨⟨hs.toRecorded.emit (by simp) ?_ ?_ (by simp), hs.live.emit (by simp) rfl⟩, hs.requests,
    hs.request, hs.handled, hs.response, hs.headRequest, hs.unrendered⟩, rfl, ?_⟩
  · intro hc
    rw [hs.response] at hc
    exact Or.inr (Or.inl ⟨h, hs.handled, hc⟩)
  · intro ha
    refine ⟨ha.dispatched, ?_, fun r hr hm => absurd hm (hs.unrendered r hr)⟩
    rintro p' ⟨⟩
    exact ⟨q, h, hs.requests, hs.handled, by rw [hs.headRequest, hs.response]⟩
  · rw [hs.headRequest, hs.response]

/-- A transfer coding of the response that goes out. -/
theorem coding_sentResponse {path : ReplyPath} (hpath : path ≠ .chunked) (s : AsyncConnection)
    (h : (sentResponse srv path s).getHeader "Transfer-Encoding".toList ≠ none) :
    s.itsResponse.getHeader "Transfer-Encoding".toList ≠ none := by
  have hlength : ∀ (r : Response) (v : Bytes),
      (r.setHeader "Content-Length".toList v).getHeader "Transfer-Encoding".toList
        = r.getHeader "Transfer-Encoding".toList := fun r v =>
    HeaderMap.get_set_of_ne _ _ (by decide)
  have hframe : ∀ (b : Bool) (r : Response),
      (frameResponse srv b r).getHeader "Transfer-Encoding".toList ≠ none →
        r.getHeader "Transfer-Encoding".toList ≠ none := by
    intro b r
    unfold frameResponse
    split
    · exact fun hne => absurd (HeaderMap.get_remove_self _ _) hne
    split
    · exact fun hne => absurd (HeaderMap.get_remove_self _ _) hne
    · rw [hlength]
      exact id
  cases path with
  | regular =>
    unfold sentResponse at h
    dsimp only at h
    rw [renderHeaders_getHeader] at h
    have hsame := (sameFraming_encodeResponse srv s.itsRequest s.itsResponse).trans
      (sameFraming_echoETag srv s.itsRequest _)
    rw [← hsame.transferEncoding]
    exact hframe _ _ h
  | stream =>
    unfold sentResponse at h
    dsimp only at h
    rw [renderHeaders_getHeader, hlength] at h
    exact h
  | chunked => exact absurd rfl hpath
  | gateway => exact h

/-- The chunked path is that of a chunked stream. -/
theorem chunked_of_replyPath {b : Bool} {h : Response} (hp : replyPath b h = .chunked) :
    h.hasStreamContent = true ∧ h.chunked = true := by
  unfold replyPath at hp
  split at hp
  · cases hp
  split at hp
  · rename_i hs
    split at hp
    · cases hp
    split at hp
    · rename_i hc
      exact ⟨hs, hc⟩
    · cases hp
  · cases hp

/-- The header section of the response is built. -/
theorem OnPath.rendered {q : Request} {h : Response} {path : ReplyPath} {s v : AsyncConnection}
    {head : Bytes} (hs : OnPath srv q h path s) (a : Answers) (hpath : path ≠ .gateway)
    (hworld : v.world = s.world.emit
      (.rendered .handler (sentResponse srv path (setServerHeaders srv a s)) head))
    (hterms : v.terms = s.terms)
    (hkeep : v.itsKeepAlive = true → (setServerHeaders srv a s).itsKeepAlive = true)
    (hresponse : v.itsResponse = sentResponse srv path (setServerHeaders srv a s)) :
    Underway srv v := by
  let u := setServerHeaders srv a s
  let w : AsyncConnection := { u with itsResponse := sentResponse srv path u }
  have hu : Underway srv u := hs.toUnderway.set rfl (goesOn_setServerHeaders a s)
  -- a coding in the reply is that of the path, or the plugin's
  have hcoded : w.itsResponse.getHeader "Transfer-Encoding".toList ≠ none →
      Coded srv s.exchange := by
    intro hc
    by_cases hp : path = .chunked
    · refine Or.inl ⟨by rw [hs.started, hp], h, hs.handled, ?_⟩
      exact chunked_of_replyPath (hs.route.symm.trans hp)
    · exact hu.coding (coding_sentResponse hp u hc)
  have hlive : Live srv w := by
    cases hu.live with
    | reading hr hc hk hv => exact .reading hr hc hk hv
    | taken q ip hr hi hc hv hcap => exact .taken q ip hr hi hc hv hcap
  have hw : Underway srv w := ⟨⟨hcoded, hs.answered, hs.heads, hs.capped⟩, hlive⟩
  obtain ⟨ip, hip⟩ := hs.request
  have hrendered : Underway srv (w.emit (.rendered .handler (sentResponse srv path u) head)) := by
    refine ⟨hw.toRecorded.emit (by simp) hcoded ?_ ?_, hw.live.emit (by simp) rfl⟩
    · refine fun ha => ⟨ha.dispatched, ha.routed, fun p hp hm => ?_⟩
      rcases List.mem_append.mp hp with hp | hp
      · exact absurd hm (hs.unrendered p hp)
      · obtain rfl := List.mem_singleton.mp hp
        refine ⟨q, h, path, hs.requests, hs.handled, hs.started, hpath, hs.route, s, a, ip, hip,
          hs.response, hs.headRequest, rfl⟩
    · rintro m r head' ⟨⟩
      refine ⟨s, a, hs.traced.heeds fun q hq => Or.inl (hs.live.version q hq), Or.inr ?_⟩
      refine ⟨rfl, path, hs.handled.trans (congrArg some hs.response.symm), hs.started, hpath, ?_, rfl⟩
      rw [hs.headRequest, hs.response]
      exact hs.route
  refine hrendered.set hworld ⟨hterms, hkeep, ?_⟩
  rw [hresponse]
  rfl

/-- The header section of a buffered reply is made from the handler's response. -/
theorem OnPath.startRegularReply {q : Request} {h : Response} {s : AsyncConnection}
    (hs : OnPath srv q h .regular s) (a : Answers) :
    Traced srv (startRegularReply srv (setServerHeaders srv a s)) := by
  refine Underway.await ?_ _
  exact hs.rendered a (by simp) rfl rfl id rfl

/-- That of a stream of announced length, -/
theorem OnPath.startStreamReply {q : Request} {h : Response} {s : AsyncConnection}
    (hs : OnPath srv q h .stream s) (a : Answers) :
    Ready srv (Tail.startStreamReply srv a (setServerHeaders srv a s)) := by
  refine Underway.getNextChunk ?_ a
  exact hs.rendered a (by simp) rfl rfl id rfl

/-- and that of a chunked one. -/
theorem OnPath.startChunkedReply {q : Request} {h : Response} {s : AsyncConnection}
    (hs : OnPath srv q h .chunked s) (a : Answers) :
    Ready srv (Tail.startChunkedReply srv a (setServerHeaders srv a s)) := by
  refine Underway.getNextChunkedChunk ?_ a
  exact hs.rendered a (by simp) rfl rfl id rfl

/-- Each path of a reply. -/
theorem Returned.startReply {q : Request} {h : Response} {s : AsyncConnection}
    (hs : Returned srv q h s) (a : Answers) : Ready srv (Tail.startReply srv a s) := by
  have hb := hs.begun
  unfold replyPath at hb
  unfold Tail.startReply
  split
  · rename_i hhead
    rw [if_pos hhead] at hb
    exact hb.startRegularReply a
  rename_i hhead
  rw [if_neg hhead] at hb
  split
  · rename_i hcontent
    rw [if_pos hcontent] at hb
    split
    · rename_i hgateway
      rw [if_pos hgateway] at hb
      refine Underway.getNextChunk ?_ a
      exact hb.toUnderway.set rfl ⟨rfl, fun hk => absurd hk Bool.false_ne_true, rfl⟩
    rename_i hgateway
    rw [if_neg hgateway] at hb
    split
    · rename_i hchunked
      rw [if_pos hchunked] at hb
      exact hb.startChunkedReply a
    · rename_i hchunked
      rw [if_neg hchunked] at hb
      exact hb.startStreamReply a
  · rename_i hcontent
    rw [if_neg hcontent] at hb
    exact hb.startRegularReply a

/-- The handler is called. -/
theorem Underway.dispatched {s : AsyncConnection} (h : Underway srv s) (hd : Direct srv s.exchange)
    {q : Request} {ip : Bytes} (hq : s.exchange.requests = [q])
    (hr : s.itsRequest = handedOn q ip) : Underway srv (s.emit (.dispatched s.itsRequest)) := by
  refine ⟨h.toRecorded.emit (by simp) h.coding ?_ (by simp), h.live.emit (by simp) rfl⟩
  refine fun hx => ⟨Or.inr ⟨q, ip, hq, ?_⟩, hx.routed, hx.heads⟩
  show s.exchange.dispatched ++ [s.itsRequest] = [handedOn q ip]
  rw [hd.dispatched, hr]
  rfl

/-- The request in hand is the one that was parsed, made fit for a handler. -/
theorem Live.request {s : AsyncConnection} (h : Live srv s) {q : Request}
    (hq : s.exchange.requests = [q]) : ∃ ip, s.itsRequest = handedOn q ip := by
  cases h with
  | reading hr hc hk hv =>
    rw [hr] at hq
    cases hq
  | taken q' ip hr hi hc hv hcap =>
    obtain rfl := List.singleton_inj.mp (hr.symm.trans hq)
    exact ⟨ip, hi⟩

/-- What follows the return of the handler. -/
theorem Underway.returnFromHandler {s : AsyncConnection} (h : Underway srv s) {q : Request}
    (hq : s.exchange.requests = [q]) (hhead : s.itsHeadRequest = decide (q.method = .head))
    (hpath : s.exchange.path = none) (hun : ∀ p ∈ s.exchange.heads, p.1 ≠ .handler)
    (a : Answers) :
    Ready srv (Tail.returnFromHandler srv a s) := by
  have ht : ∀ response, Returned srv q response (Tail.handled response s) := by
    intro response
    have hlive : Live srv (Tail.handled response s) := by
      cases h.live.emit (o := .handled response) (by simp) rfl with
      | reading hr hc hk hv => exact .reading hr hc hk hv
      | taken q ip hr hi hc hv hcap => exact .taken q ip hr hi hc hv hcap
    have hrec : Recorded srv { s with itsResponse := {} } :=
      ⟨fun hc => absurd rfl hc, h.answered, h.heads, h.capped⟩
    have hrec' := hrec.emit (o := .handled response) (by simp) (fun hc => absurd rfl hc)
      (fun hx => ⟨hx.dispatched, fun p hp => absurd (hpath.symm.trans hp) (by simp),
        fun p hp hm => absurd hm (hun p hp)⟩) (by simp)
    exact ⟨⟨⟨fun hc => Or.inr (Or.inl ⟨response, rfl, hc⟩), hrec'.answered, hrec'.heads,
      hrec'.capped⟩, hlive⟩, hq, h.live.request hq, rfl, rfl, hhead, hun⟩
  rcases Tail.returnFromHandler_cases srv a s with
    ⟨-, heq⟩ | ⟨response, ⟨-, heq⟩ | ⟨-, heq⟩ | ⟨-, heq⟩⟩
  · rw [heq]
    exact h.traced
  · rw [heq]
    exact (ht response).toUnderway.traced
  · rw [heq]
    exact (ht response).toUnderway.stock .badRequest a
  · rw [heq]
    exact (ht response).startReply a

/-- The task that calls the handler. -/
theorem Underway.handleCompletedRead {s : AsyncConnection} (h : Underway srv s)
    (hd : Direct srv s.exchange) {q : Request} (hq : s.exchange.requests = [q])
    (hhead : s.itsHeadRequest = decide (q.method = .head)) (a : Answers) :
    Ready srv (Tail.handleCompletedRead srv a s) := by
  unfold Tail.handleCompletedRead
  split
  · exact h.traced
  split
  · exact h.traced
  rw [Tail.callHandler_eq]
  obtain ⟨ip, hip⟩ := h.live.request hq
  have hstarted : Underway srv (s.emit (.clientStarted s.itsRequest.clientIP)) := by
    refine h.goesOn (A := fun o => ∃ ip, o = .clientStarted ip)
      (Trail.emit s ⟨_, rfl⟩ fun _ => id) ?_ ⟨rfl, id, rfl⟩
    rintro o ⟨ip, rfl⟩
    exact ⟨id, (by simp)⟩
  refine (hstarted.dispatched hd hq hip).returnFromHandler hq hhead ?_ ?_ a
  · exact hd.path
  · exact hd.heads

/-! ## The read path -/

/-- A connection persists below the cap only. -/
theorem lt_of_evaluateKeepAlive {s : AsyncConnection} (h : evaluateKeepAlive srv s = true)
    (hmax : 0 < srv.itsMaxKeepAliveRequests) :
    s.itsRequestCount < srv.itsMaxKeepAliveRequests := by
  unfold evaluateKeepAlive at h
  split at h
  · cases h
  split at h
  · cases h
  split at h
  · cases h
  rename_i hcap
  simp only [Bool.and_eq_true, decide_eq_true_eq] at hcap
  by_contra hlt
  exact hcap ⟨hmax, by omega⟩

/-- A connection that persists has not reached its number of requests. -/
theorem lt_of_negotiate {s : AsyncConnection} (h : (negotiate srv s).itsKeepAlive = true)
    (hmax : 0 < srv.itsMaxKeepAliveRequests) :
    (negotiate srv s).itsRequestCount < srv.itsMaxKeepAliveRequests := by
  unfold negotiate at h
  exact lt_of_evaluateKeepAlive h hmax

/-- The request goes into its pool, or is refused. -/
theorem Underway.scheduleRequest {s : AsyncConnection} (h : Underway srv s) (a : Answers)
    (view : HandlerView) : Ready srv (Tail.scheduleRequest srv a view s) := by
  unfold Tail.scheduleRequest
  split
  · dsimp only
    split
    · refine Underway.await ?_ _
      exact h.set rfl ⟨rfl, id, rfl⟩
    · refine Underway.stock ?_ _ a
      exact h.set rfl ⟨rfl, id, rfl⟩
  · dsimp only
    split
    · refine Underway.await ?_ _
      exact h.set rfl ⟨rfl, id, rfl⟩
    · refine Underway.stock ?_ _ a
      exact h.set rfl ⟨rfl, id, rfl⟩

/-- The reply to `OPTIONS *`. -/
theorem Underway.options {s : AsyncConnection} (h : Underway srv s) (a : Answers) :
    OwnReply srv .options
      (setServerHeaders srv a { s with itsResponse := srv.spine.stockOptionsResponse }) := by
  let t : AsyncConnection := { s with itsResponse := srv.spine.stockOptionsResponse }
  have ht : Underway srv t := by
    refine ⟨⟨fun hc => Or.inr (Or.inr hc), h.answered, h.heads, h.capped⟩, ?_⟩
    cases h.live with
    | reading hr hc hk hv => exact .reading hr hc hk hv
    | taken q ip hr hi hc hv hcap => exact .taken q ip hr hi hc hv hcap
  have hset : Underway srv (setServerHeaders srv a t) := ht.set rfl (goesOn_setServerHeaders a t)
  refine ⟨hset.traced, (by simp), ?_⟩
  exact ⟨t, a, ht.traced.heeds fun q hq => Or.inl (ht.live.version q hq), Or.inl ⟨(by simp), rfl⟩⟩

/-- The way to the pool. -/
theorem Underway.routeRequest {s : AsyncConnection} (h : Underway srv s) (a : Answers) :
    Ready srv (Tail.routeRequest srv a s) := by
  unfold Tail.routeRequest
  split
  · exact h.options a
  split
  · exact h.stock .notFound a
  dsimp only
  split
  · refine Underway.stock ?_ _ a
    exact h.set rfl ⟨rfl, id, rfl⟩
  · refine Underway.scheduleRequest ?_ a _
    exact h.set rfl ⟨rfl, id, rfl⟩

/-- A request is taken up, or turned away. -/
theorem Recorded.handleParsedRequest {s : AsyncConnection} (h : Recorded srv s)
    (hd : Direct srv s.exchange) (ho : s.world.outstanding = [])
    (hr : s.exchange.requests = []) (hcount : s.itsRequestCount = (past s.world.trace).length)
    (hk : s.itsKeepAlive = false) (hv : s.itsResponseVersion = .v1_0) (a : Answers) :
    Ready srv (Tail.handleParsedRequest srv a s) := by
  have hrequests : (s.emit (.parsed s.itsRequest)).exchange.requests = [s.itsRequest] := by
    show s.exchange.requests ++ [s.itsRequest] = [s.itsRequest]
    rw [hr]
    rfl
  have hparsed : Recorded srv (s.emit (.parsed s.itsRequest)) := by
    refine h.emit (by simp) h.coding (fun _ => ⟨Or.inl ?_, fun p hp => ?_, fun p hp hm => ?_⟩) (by simp)
    · exact hd.dispatched
    · exact absurd (hd.path.symm.trans hp) (by simp)
    · exact absurd hm (hd.heads p hp)
  have hmember : ∀ q ∈ (s.emit (.parsed s.itsRequest)).exchange.requests, q = s.itsRequest := by
    intro q hq
    rw [hrequests] at hq
    exact List.mem_singleton.mp hq
  unfold Tail.handleParsedRequest
  dsimp only
  cases hip : resolveClientIP srv a (s.emit (.parsed s.itsRequest)) with
  | none =>
    refine ⟨hparsed.emit (by simp) hparsed.coding ?_ (by simp),
      Or.inr ⟨ho, hk, fun q hq => Or.inr ⟨hv, rfl⟩⟩⟩
    exact fun ha => ⟨ha.dispatched, ha.routed, ha.heads⟩
  | some u =>
    obtain ⟨-, ip, rfl⟩ := resolveClientIP_eq srv a hip
    dsimp only
    split
    · -- the version is settled, though the request goes nowhere
      refine Traced.stock ?_ .badRequest a fun q hq => Or.inl ?_
      · refine ⟨⟨hparsed.coding, hparsed.answered, hparsed.heads, hparsed.capped⟩, Or.inr ⟨ho, rfl, ?_⟩⟩
        intro q hq
        rw [hmember q hq]
        exact Or.inl rfl
      · rw [hmember q hq]
        rfl
    · refine Underway.routeRequest ?_ a
      refine ⟨⟨hparsed.coding, hparsed.answered, hparsed.heads, hparsed.capped⟩, ?_⟩
      refine .taken s.itsRequest ip hrequests rfl (congrArg (· + 1) hcount) rfl ?_
      exact fun hk' hmax => lt_of_negotiate hk' hmax

/-- An incomplete request. -/
theorem Underway.handleIncompleteRequest {s : AsyncConnection} (h : Underway srv s) (a : Answers) :
    Ready srv (Tail.handleIncompleteRequest srv a s) := by
  have hinterim : ∀ {t u : AsyncConnection} {b : Bytes}, Underway srv t →
      u.world = t.world.write .interim b a.interimWrite → GoesOn t u → Underway srv u := by
    intro t u b ht hu hg
    have htrail : Trail InterimEvent t (AsyncConnection.write .interim b a.interimWrite t) :=
      Trail.write t b _ (fun c => Or.inl ⟨c, rfl⟩) (Or.inr rfl)
    refine ht.goesOn (htrail.trans (Trail.silent (by rw [hu]; rfl) (by rw [hu]; exact id))) ?_ hg
    rintro o (⟨c, rfl⟩ | rfl)
    · exact ⟨id, (by simp)⟩
    · exact ⟨id, (by simp)⟩
  have hread : ∀ {t : AsyncConnection}, Underway srv t → Ready srv (.stop (startRead t)) :=
    fun ht => ht.await _
  have hhandled : Underway srv { s with itsExpectHandled := true } := h.set rfl ⟨rfl, id, rfl⟩
  unfold Tail.handleIncompleteRequest
  split
  · refine Underway.stock ?_ _ a
    exact h.set rfl ⟨rfl, fun hk => absurd hk Bool.false_ne_true, rfl⟩
  unfold Tail.handleExpectContinue
  split
  · exact hread h
  dsimp only
  split
  · exact hread h
  split
  · exact hread hhandled
  split
  · exact hread hhandled
  split
  · split
    · refine Underway.traced ?_
      refine hinterim hhandled (b := "HTTP/1.1 100 Continue\r\n\r\n".toList) rfl ?_
      exact ⟨rfl, fun hk => absurd hk Bool.false_ne_true, rfl⟩
    · refine hread ?_
      refine hinterim hhandled (b := "HTTP/1.1 100 Continue\r\n\r\n".toList) rfl ?_
      exact ⟨rfl, id, rfl⟩
  · refine Underway.stock ?_ _ a
    exact h.set rfl ⟨rfl, fun hk => absurd hk Bool.false_ne_true, rfl⟩

/-- The request at the front of the buffer. -/
theorem Underway.parseBuffer {s : AsyncConnection} (h : Underway srv s)
    (hd : Direct srv s.exchange) (hr : s.exchange.requests = [])
    (ho : s.world.outstanding = []) (a : Answers) : Ready srv (Tail.parseBuffer srv a s) := by
  unfold Tail.parseBuffer
  split
  · dsimp only
    cases h.live with
    | reading _ hc hk hv =>
      refine Recorded.handleParsedRequest ?_ ?_ ?_ ?_ ?_ ?_ ?_ a
      · exact ⟨h.coding, h.answered, h.heads, h.capped⟩
      · exact hd
      · exact ho
      · exact hr
      · exact hc
      · exact hk
      · exact hv
    | taken q ip hr' hi hc hv hcap =>
      have hne := hr.symm.trans hr'
      cases hne
  · exact h.stock .badRequest a
  · exact h.handleIncompleteRequest a

/-- The swap of the timer. -/
theorem Underway.leaveIdle {s : AsyncConnection} (h : Underway srv s) :
    Underway srv (leaveIdle srv s) ∧ (leaveIdle srv s).exchange = s.exchange ∧
      (leaveIdle srv s).world.outstanding = s.world.outstanding := by
  unfold AsyncConnection.leaveIdle
  split
  · have hidle : Underway srv { s with itsIdle := false } := h.set rfl ⟨rfl, id, rfl⟩
    refine ⟨hidle.goesOn (trail_armTimer srv.itsTimeout _) ?_ ⟨rfl, id, rfl⟩, rfl, rfl⟩
    rintro o ⟨g, n, rfl⟩
    exact ⟨id, (by simp)⟩
  · exact ⟨h.set rfl ⟨rfl, id, rfl⟩, rfl, rfl⟩

/-- The completion handler of a read. -/
theorem Underway.handleRead {s : AsyncConnection} (h : Underway srv s)
    (hd : Direct srv s.exchange) (hr : s.exchange.requests = [])
    (ho : s.world.outstanding = []) (a : Answers) (e : ErrorCode) (bytes : Bytes) :
    Ready srv (Tail.handleRead srv a e bytes s) := by
  unfold Tail.handleRead
  split
  · exact h.stock _ a
  dsimp only
  have hstatus : Underway srv { s with itsFinalStatus := e } := h.set rfl ⟨rfl, id, rfl⟩
  split
  · obtain ⟨hu, hx, hout⟩ := hstatus.leaveIdle
    generalize AsyncConnection.leaveIdle srv { s with itsFinalStatus := e } = u at hu hx hout
    unfold Tail.handleReadBytes
    dsimp only
    split
    · refine Underway.stock ?_ _ a
      exact hu.set rfl ⟨rfl, id, rfl⟩
    · refine Underway.parseBuffer ?_ ?_ ?_ ?_ a
      · exact hu.set rfl ⟨rfl, id, rfl⟩
      · show Direct srv u.exchange
        rw [hx]
        exact hd
      · exact (congrArg Exchange.requests hx).trans hr
      · exact hout.trans ho
  · refine Underway.traced ?_
    refine hstatus.goesOn (A := fun o => o = .readError) (Trail.emit _ rfl fun _ => id) ?_
      ⟨rfl, id, rfl⟩
    rintro o rfl
    exact ⟨id, (by simp)⟩

/-! ## One step -/

/-- Something is outstanding, so the request was not turned away. -/
theorem Traced.released {s : AsyncConnection} (h : Traced srv s) (hinv : Inv srv s) {i : ℕ}
    {y : Activity} (hi : s.world.outstanding[i]? = some y) :
    s.release i = s.bare ∧ Underway srv s.bare ∧ Phase srv s.bare y := by
  obtain ⟨hrel, -, hp⟩ := hinv.released srv hi
  refine ⟨hrel, ⟨⟨h.coding, h.answered, h.heads, h.capped⟩, ?_⟩, hp⟩
  have hlive : Live srv s := by
    refine h.stage.resolve_right fun hl => ?_
    rw [hl.outstanding] at hi
    simp at hi
  cases hlive with
  | reading hr hc hk hv => exact .reading hr hc hk hv
  | taken q ip hr hi hc hv hcap => exact .taken q ip hr hi hc hv hcap

/-- The handler of the timer. -/
theorem Traced.handleTimer {s : AsyncConnection} (h : Traced srv s) (a : Answers)
    (err : ErrorCode) (generation : ℕ) : Ready srv (Tail.handleTimer srv a err generation s) := by
  have hset : ∀ {t : AsyncConnection}, t.world = s.world → GoesOn s t → Traced srv t :=
    fun hw hg => h.goesOn (A := NoEvent) (Trail.silent (by rw [hw]) (by rw [hw]; exact id))
      (fun _ ho => absurd ho id) hg (by rw [hw])
  unfold Tail.handleTimer
  split
  · exact h
  split
  · exact h
  dsimp only
  split
  · have hout : Traced srv { s with hasTimedOut := true } := hset rfl ⟨rfl, id, rfl⟩
    refine hout.goesOn (A := fun o => o = .closed) (Trail.close _ rfl) ?_ ⟨rfl, id, rfl⟩ rfl
    rintro o rfl
    exact ⟨id, (by simp)⟩
  · refine Traced.stock ?_ .requestTimeout a ?_
    · exact hset rfl ⟨rfl, fun hk => absurd hk Bool.false_ne_true, rfl⟩
    · intro q hq
      rcases h.stage with hl | hl
      · exact Or.inl (hl.version q hq)
      · exact (hl.version q hq).imp_right fun hv => ⟨rfl, hv⟩

/-- A step keeps the exchanges traced, up to the last call. -/
theorem Traced.ready {s : AsyncConnection} {e : Event} {x : Outcome} (h : Traced srv s)
    (hinv : Inv srv s) (hx : Tail.step srv s e = some x) : Ready srv x := by
  -- these steps record nothing and settle nothing
  have hset : ∀ {t : AsyncConnection}, t.world.trace = s.world.trace →
      (s.world.socket = .closed → t.world.socket = .closed) → GoesOn s t →
      t.world.outstanding = s.world.outstanding → Traced srv t := fun ht hs hg ho =>
    h.goesOn (A := NoEvent) (Trail.silent ht hs) (fun _ ho => absurd ho id) hg ho
  cases e with
  | handshake i ok =>
    simp only [Tail.step, step] at hx
    split at hx
    · rename_i hi
      obtain rfl := Option.some.inj hx
      obtain ⟨hrel, hu, -⟩ := h.released hinv hi
      rw [hrel]
      show Traced srv (handleHandshake ok s.bare)
      unfold handleHandshake
      split
      · exact hu.await _
      · refine hu.traced.goesOn (A := fun o => o = .closed) (Trail.close _ rfl) ?_ ⟨rfl, id, rfl⟩ rfl
        rintro o rfl
        exact ⟨id, (by simp)⟩
    · cases hx
  | receive i bytes =>
    simp only [Tail.step, step] at hx
    split at hx
    · rename_i hi
      split at hx
      · obtain rfl := Option.some.inj hx
        obtain ⟨hrel, hu, -⟩ := h.released hinv hi
        rw [hrel]
        refine Underway.await ?_ _
        refine hu.goesOn (A := fun o => o = .received bytes) (Trail.emit _ rfl fun _ => id) ?_
          ⟨rfl, id, rfl⟩
        rintro o rfl
        exact ⟨id, (by simp)⟩
      · cases hx
    · cases hx
  | readFails i err a =>
    simp only [Tail.step] at hx
    split at hx
    · rename_i hi
      split at hx
      · obtain rfl := Option.some.inj hx
        obtain ⟨hrel, hu, hp⟩ := h.released hinv hi
        rw [hrel]
        have hr : Reading srv s.bare := hp
        exact hu.handleRead hr.direct hr.requests rfl a _ _
      · cases hx
    · cases hx
  | runRead i a =>
    simp only [Tail.step] at hx
    split at hx
    · rename_i bytes hi
      obtain rfl := Option.some.inj hx
      obtain ⟨hrel, hu, hp⟩ := h.released hinv hi
      rw [hrel]
      have hr : Reading srv s.bare := hp
      exact hu.handleRead hr.direct hr.requests rfl a _ _
    · cases hx
  | runTask i a =>
    simp only [Tail.step] at hx
    split at hx
    · rename_i pool task hi
      obtain rfl := Option.some.inj hx
      obtain ⟨hrel, hu, hp⟩ := h.released hinv hi
      rw [hrel]
      cases task with
      | handleCompletedRead view =>
        have hq : Queued srv s.bare := hp
        obtain ⟨q, hr, hhead⟩ := hq.request
        have hcancel : Underway srv (cancelTimer s.bare) :=
          hu.goesOn (A := NoEvent) (Trail.silent rfl id) (fun _ ho => absurd ho id) ⟨rfl, id, rfl⟩
        exact hcancel.handleCompletedRead hq.direct hr hhead a
      | getNextChunk => exact hu.getNextChunk a
      | getNextChunkedChunk => exact hu.getNextChunkedChunk a
    · cases hx
  | writeSome i n a =>
    simp only [Tail.step] at hx
    split at hx
    · rename_i handler buffer hi
      split at hx
      · rename_i hn
        obtain rfl := Option.some.inj hx
        obtain ⟨hrel, hu, -⟩ := h.released hinv hi
        rw [hrel]
        refine Underway.runWriteHandler ?_ a handler _ n
        refine hu.goesOn (A := DeliveryEvent) (Trail.emit _ trivial fun hc => ?_)
          (fun _ ho => telling_of_deliveryEvent ho) ⟨rfl, id, rfl⟩
        exact absurd (hn.2.symm.trans hc) (by simp)
      · cases hx
    · cases hx
  | writeFails i a =>
    simp only [Tail.step] at hx
    split at hx
    · rename_i handler buffer hi
      obtain rfl := Option.some.inj hx
      obtain ⟨hrel, hu, -⟩ := h.released hinv hi
      rw [hrel]
      refine Underway.runWriteHandler ?_ a handler _ 0
      refine hu.goesOn (A := DeliveryEvent) ?_ (fun _ ho => telling_of_deliveryEvent ho)
        ⟨rfl, id, rfl⟩
      refine (Trail.emit s.bare (o := .writeError .handler) trivial fun _ => id).trans
        (Trail.silent rfl fun hc => ?_)
      show (if _ = SocketState.open then _ else _) = SocketState.closed
      have hc' : s.bare.world.socket = .closed := hc
      exact (if_neg (by rw [hc']; simp)).trans hc'
    · cases hx
  | timerExpires =>
    simp only [Tail.step, step] at hx
    split at hx
    · obtain rfl := Option.some.inj hx
      exact hset rfl id ⟨rfl, id, rfl⟩ rfl
    · cases hx
  | runTimer generation a =>
    simp only [Tail.step] at hx
    split at hx
    · obtain rfl := Option.some.inj hx
      refine Traced.handleTimer ?_ a _ generation
      exact hset rfl id ⟨rfl, id, rfl⟩ rfl
    · cases hx
  | requestShutdown =>
    obtain rfl := Option.some.inj hx
    exact hset rfl id ⟨rfl, id, rfl⟩ rfl

/-- **Every step keeps what is told of the exchanges.** -/
theorem Traced.step {s s' : AsyncConnection} {e : Event} (h : Traced srv s) (hinv : Inv srv s)
    (hstep : step srv s e = some s') : Traced srv s' := by
  obtain ⟨x, hx, rfl⟩ := exists_outcome srv hstep
  exact (h.ready hinv hx).run e.answers

variable (srv)

/-- Nothing is to be traced on a connection that has just been started. -/
theorem traced_start : Traced srv (start srv) := by
  have hexchange : (start srv).exchange = {} := by
    unfold exchange
    rw [start_trace]
    rfl
  have hpast : past (start srv).world.trace = [] := by
    rw [start_trace]
    rfl
  have hmembers : (start srv).itsResponse = {} ∧ (start srv).itsRequestCount = 0 ∧
      (start srv).itsKeepAlive = false ∧ (start srv).itsResponseVersion = .v1_0 := by
    unfold start
    dsimp only
    split
    · exact ⟨rfl, rfl, rfl, rfl⟩
    · exact ⟨rfl, rfl, rfl, rfl⟩
  obtain ⟨hresponse, hcount, hk, hv⟩ := hmembers
  refine ⟨⟨?_, ?_, ?_, ?_⟩, Or.inl (.reading ?_ ?_ hk hv)⟩
  · rw [hresponse]
    exact fun hc => absurd rfl hc
  · intro x hx
    rcases mem_exchanges.mp hx with hx | rfl
    · rw [hpast] at hx
      cases hx
    · rw [show current (start srv).world.trace = {} from hexchange]
      exact answered_empty srv
  · rw [start_trace]
    exact eachHead_cons.mpr ⟨(by simp), fun new m r head old heq => by simp at heq⟩
  · rw [hpast]
    exact id
  · rw [hexchange]
  · rw [hcount, hpast]
    rfl

/-- **What the exchanges of a connection tell.** -/
theorem traced_reachable {s : AsyncConnection} (h : Reachable srv s) :
    Inv srv s ∧ Traced srv s := by
  obtain ⟨es, hrun⟩ := h
  refine Transition.run_preserves (P := fun u => Inv srv u ∧ Traced srv u) ?_
    ⟨inv_start srv, traced_start srv⟩ hrun
  rintro u e u' ⟨hinv, ht⟩ hstep
  exact ⟨inv_step srv hinv hstep, ht.step hinv hstep⟩

end AsyncConnection

end SmartMet
