/-
# Responses to HEAD

The response of a handler to a HEAD request is its header section.  The server's
own replies do not know the method: a stock reply to a HEAD request
(`AnswersHead`) is followed by its page.
-/
import SmartMetServer.MinimalSpine
import SmartMetServer.Transcript

namespace SmartMet

open Exchange

namespace Exchange

/-- The request of the exchange is a HEAD. -/
def IsHead (x : Exchange) : Prop := ∃ r ∈ x.requests, r.method = .head

/-- The server itself has not answered a HEAD request. -/
def Unpaged (x : Exchange) : Prop := x.IsHead → x.path = none → x.heads = [] ∧ x.serverBytes = []

/-- No HEAD request waits for a reply. -/
def NoHead (x : Exchange) : Prop := x.path ≠ none ∨ ¬ x.IsHead

theorem NoHead.unpaged {x : Exchange} (h : NoHead x) : Unpaged x := fun hh hp =>
  h.elim (fun h => absurd hp h) fun h => absurd hh h

theorem noHead_empty : NoHead {} := Or.inr fun ⟨_, hr, _⟩ => by cases hr

/-- Only a request makes an exchange one of a HEAD. -/
theorem NoHead.observe {x : Exchange} (h : NoHead x) {o : Obs} (ho : ∀ r, o ≠ .parsed r) :
    NoHead (x.observe o) := by
  cases o with
  | parsed r => exact absurd rfl (ho r)
  | started p => exact Or.inl (by simp [Exchange.observe])
  | _ => exact h

/-- The server answers with a header section and with bytes. -/
theorem Unpaged.observe {x : Exchange} (h : Unpaged x) {o : Obs} (hp : ∀ r, o ≠ .parsed r)
    (hr : ∀ m r b, o ≠ .rendered m r b)
    (hw : ∀ m b, o = .wrote m b → m = .handler ∨ m = .interim) : Unpaged (x.observe o) := by
  cases o with
  | parsed r => exact absurd rfl (hp r)
  | rendered m r b => exact absurd rfl (hr m r b)
  | started p =>
    intro _ hpath
    cases hpath
  | wrote m b =>
    intro hh hpath
    obtain ⟨hheads, hserver⟩ := h hh hpath
    refine ⟨hheads, ?_⟩
    show (x.wire ++ [(m, b)]).flatMap _ = []
    rw [List.flatMap_append, show x.wire.flatMap _ = [] from hserver, List.flatMap_singleton,
      if_pos (hw m b rfl)]
    rfl
  | _ => exact h

end Exchange

namespace AsyncConnection

variable (srv : Server)

/-- The request is put into an executor: it names the host where it must, a
handler is found for it, the load permits, and the executor takes it. -/
def Schedules (a : Answers) (r : Request) : Prop :=
  ¬ (negotiateVersion srv.spine r.version = .v1_1 ∧ r.headers.get "Host".toList = none) ∧
    ∃ view, srv.spine.getHandlerView
        (maskHead { r with headers := stripHopByHopHeaders r.headers }) = some view ∧
      ((!view.isCatchNoMatch && view.isAdminQuery && srv.adminPoolSize > 0) = true ∨
        a.loadHigh = false) ∧
      a.accepts = true

/-- The server itself answers a HEAD request: one that is not scheduled, or whose
exchange it has answered before it was parsed; one a handler has turned down; or
one the timer has caught up with. -/
def AnswersHead (s : AsyncConnection) : Event → Prop
  | .runRead i a => ∃ bytes r n, s.world.outstanding[i]? = some (.handleRead bytes) ∧
      srv.spine.parseOneRequest (s.itsBuffer ++ bytes) = .complete r n ∧ r.method = .head ∧
      (¬ s.exchange.Unanswered ∨ s.world.socket ≠ .closed ∧ ∃ peer, a.peer = some peer ∧
        ¬ Schedules srv a { r with
          clientIP := srv.spine.resolveClientIP peer
            (r.headers.get "X-Forwarded-For".toList) })
  | .runTask i a => s.exchange.IsHead ∧ s.world.socket ≠ .closed ∧
      (∃ pool view, s.world.outstanding[i]? = some (.task pool (.handleCompletedRead view))) ∧
      ∃ response, a.handler = .returned false response false
  | .runTimer generation _ => s.exchange.IsHead ∧ s.itsIdle = false ∧
      generation = s.itsTimerGeneration ∧
      ∃ w, s.readyWait generation = some w ∧ w.status ≠ .aborted
  | _ => False

/-- The server itself has answered no HEAD request. -/
def Clear (s : AsyncConnection) : Prop := ∀ x ∈ exchanges s.world.trace, Unpaged x

variable {srv}

/-- A property the events of a trail preserve. -/
theorem Clear.trail {A : Obs → Prop} {R : Exchange → Prop} {s t : AsyncConnection}
    (h : Clear s) (ht : Trail A s t) (hcur : R s.exchange) (h0 : R {})
    (hobs : ∀ o, A o → o ≠ .rearmed → ∀ x, R x → R (x.observe o))
    (hR : ∀ x, R x → Unpaged x) : Clear t ∧ R t.exchange := by
  obtain ⟨new, hnew, hev⟩ := ht.events
  obtain ⟨hc, hp⟩ := exchange_append hcur h0
    fun o (ho : o ∈ new) => hobs o (hev o ho).1
  unfold Clear exchange
  rw [hnew]
  refine ⟨?_, hc⟩
  intro x hx
  rcases mem_exchanges.mp hx with hx | rfl
  · rcases hp x hx with hx | hx
    · exact h x (mem_exchanges.mpr (Or.inl hx))
    · exact hR x hx
  · exact hR _ hc

/-- Where no HEAD request waits, and none is parsed. -/
theorem Clear.noHead {A : Obs → Prop} {s t : AsyncConnection} (h : Clear s) (ht : Trail A s t)
    (hcur : NoHead s.exchange) (hA : ∀ o, A o → ∀ r, o ≠ .parsed r) :
    Clear t ∧ NoHead t.exchange :=
  h.trail ht hcur noHead_empty (fun o ho _ _ hx => hx.observe (hA o ho)) fun _ => NoHead.unpaged

/-- Where the server does not answer. -/
theorem Clear.quiet {A : Obs → Prop} {s t : AsyncConnection} (h : Clear s) (ht : Trail A s t)
    (hA : ∀ o, A o → (∀ r, o ≠ .parsed r) ∧ (∀ m r b, o ≠ .rendered m r b) ∧
      ∀ m b, o = .wrote m b → m = .handler ∨ m = .interim) : Clear t :=
  (h.trail ht (h _ (mem_exchanges.mpr (Or.inr rfl))) noHead_empty.unpaged
    (fun o ho _ _ hx => hx.observe (hA o ho).1 (hA o ho).2.1 (hA o ho).2.2) fun _ hx => hx).1

end AsyncConnection

/-- An outcome without a reply of the server's own. -/
def Outcome.Silent : Outcome → Prop
  | .reply _ _ _ => False
  | _ => True

namespace AsyncConnection

variable {srv : Server}

/-- The last call answers no HEAD request. -/
theorem Clear.run {x : Outcome} (h : Clear x.state) (hx : x.Silent ∨ NoHead x.state.exchange)
    (a : Answers) : Clear (x.run srv a) := by
  rcases hx with hx | hx
  · refine h.quiet (trail_run srv a x) ?_
    intro o ho
    cases x with
    | stop s => exact absurd ho id
    | reply m s books => exact absurd hx id
    | finish s =>
      rcases ho with rfl | ⟨_, _, rfl⟩
      · simp
      · simp
  · exact (h.noHead (trail_run srv a x) hx fun o ho => not_parsed_of_lastEvent srv ho).1

theorem silent_scheduleRequest {view : HandlerView} {s : AsyncConnection} {a : Answers}
    (ha : a.accepts = true) : (Tail.scheduleRequest srv a view s).Silent := by
  unfold Tail.scheduleRequest
  rw [ha]
  split
  · trivial
  · trivial

/-- A request that is scheduled is not answered by the server itself. -/
theorem silent_handleParsedRequest {s : AsyncConnection} {a : Answers}
    (hm : s.itsRequest.method = .head)
    (h : s.world.socket = .closed ∨ ∀ peer, a.peer = some peer →
      Schedules srv a { s.itsRequest with
        clientIP := srv.spine.resolveClientIP peer
          (s.itsRequest.headers.get "X-Forwarded-For".toList) }) :
    (Tail.handleParsedRequest srv a s).Silent := by
  unfold Tail.handleParsedRequest
  dsimp only
  cases hu : resolveClientIP srv a (s.emit (.parsed s.itsRequest)) with
  | none => trivial
  | some u =>
    unfold resolveClientIP at hu
    split at hu
    · cases hu
    · rename_i hopen
      cases hpeer : a.peer with
      | none =>
        rw [hpeer] at hu
        cases hu
      | some peer =>
        rw [hpeer] at hu
        obtain rfl := Option.some.inj hu
        obtain ⟨hhost, view, hview, hload, haccepts⟩ := (h.resolve_left hopen) peer hpeer
        dsimp only
        split
        · rename_i hmissing
          simp only [Bool.and_eq_true, decide_eq_true_eq, Option.isNone_iff_eq_none] at hmissing
          exact absurd hmissing hhost
        · unfold Tail.routeRequest
          -- the plugin sees a GET, so this is no answer to OPTIONS
          have hget : (prepareRequest (negotiate srv { s.emit (.parsed s.itsRequest) with
              itsRequest.clientIP := srv.spine.resolveClientIP peer
                (s.itsRequest.headers.get "X-Forwarded-For".toList) })).itsRequest.method
              = .get := by
            unfold prepareRequest maskHead
            dsimp only
            rw [if_pos (by exact hm)]
          split
          · rename_i hopt
            simp only [Bool.and_eq_true, decide_eq_true_eq] at hopt
            have := hget.symm.trans hopt.1
            cases this
          · split
            · rename_i hnone
              have := hview.symm.trans hnone
              cases this
            · rename_i view' hsome
              obtain rfl : view = view' := Option.some.inj (hview.symm.trans hsome)
              dsimp only
              split
              · rename_i hhigh
                simp only [Bool.and_eq_true, Bool.not_eq_true'] at hhigh
                rcases hload with hadmin | hlow
                · rw [hadmin] at hhigh
                  cases hhigh.1
                · rw [hlow] at hhigh
                  cases hhigh.2
              · exact silent_scheduleRequest haccepts

/-! ## One step -/

/-- What has to hold in front of the last call. -/
def Settled (x : Outcome) : Prop := Clear x.state ∧ (x.Silent ∨ NoHead x.state.exchange)

theorem Clear.settled_of_noHead {A : Obs → Prop} {s : AsyncConnection} {x : Outcome}
    (h : Clear s) (ht : Trail A s x.state) (hcur : NoHead s.exchange)
    (hA : ∀ o, A o → ∀ r, o ≠ .parsed r) : Settled x := by
  obtain ⟨hc, hn⟩ := h.noHead ht hcur hA
  exact ⟨hc, Or.inr hn⟩

/-- A request is parsed: a HEAD is scheduled, and nothing was answered before. -/
theorem Clear.settled_handleParsedRequest {s : AsyncConnection} {a : Answers} (h : Clear s)
    (hr : s.exchange.requests = [])
    (hhead : s.itsRequest.method = .head → s.exchange.Unanswered ∧
      (s.world.socket = .closed ∨ ∀ peer, a.peer = some peer →
        Schedules srv a { s.itsRequest with
          clientIP := srv.spine.resolveClientIP peer
            (s.itsRequest.headers.get "X-Forwarded-For".toList) })) :
    Settled (Tail.handleParsedRequest srv a s) := by
  let u := s.emit (.parsed s.itsRequest)
  have hu : u.exchange = { s.exchange with requests := [s.itsRequest] } := by
    show s.exchange.observe (.parsed s.itsRequest) = _
    have : s.exchange.requests ++ [s.itsRequest] = [s.itsRequest] := by rw [hr]; rfl
    rw [← this]
    rfl
  have hpast : ∀ {R : Exchange → Prop}, R u.exchange →
      (∀ x ∈ past s.world.trace, R x) → ∀ x ∈ exchanges u.world.trace, R x := by
    intro R hcur hp x hx
    rcases mem_exchanges.mp hx with hx | rfl
    · exact hp x hx
    · exact hcur
  have hold : ∀ x ∈ past s.world.trace, Unpaged x := fun x hx =>
    h x (mem_exchanges.mpr (Or.inl hx))
  have ht := (stretch_handleParsedRequest srv a s).toTrail
  have hpeer : ∀ o, PeerEvent o → (∀ r, o ≠ .parsed r) ∧ (∀ m r b, o ≠ .rendered m r b) ∧
      ∀ m b, o = .wrote m b → m = .handler ∨ m = .interim := by
    rintro o rfl
    exact ⟨by simp, by simp, by simp⟩
  -- for a HEAD the condition says that nothing is said before its handler is called
  by_cases hm : s.itsRequest.method = .head
  · obtain ⟨hun, hsched⟩ := hhead hm
    have hclear : Clear u := by
      refine hpast (R := Unpaged) ?_ hold
      rw [hu]
      refine fun _ _ => ⟨hun.1, serverBytes_eq_nil fun p hp => Or.inr (hun.2 p hp)⟩
    exact ⟨hclear.quiet ht hpeer,
      Or.inl (silent_handleParsedRequest hm hsched)⟩
  · have hno : NoHead u.exchange := by
      rw [hu]
      refine Or.inr ?_
      rintro ⟨r, hr, hmr⟩
      obtain rfl := List.mem_singleton.mp hr
      exact hm hmr
    have hclear : Clear u := hpast hno.unpaged hold
    exact hclear.settled_of_noHead ht hno fun o ho => (hpeer o ho).1

/-- A firing that does not act, or one on an idle connection, answers nothing. -/
theorem silent_handleTimer {s : AsyncConnection} {a : Answers} {err : ErrorCode}
    {generation : ℕ}
    (h : err = .operationAborted ∨ generation ≠ s.itsTimerGeneration ∨ s.itsIdle = true) :
    (Tail.handleTimer srv a err generation s).Silent := by
  unfold Tail.handleTimer
  split
  · trivial
  rename_i herr
  split
  · trivial
  rename_i hgen
  dsimp only
  rw [if_pos ((h.resolve_left herr).resolve_left (not_not.mpr (not_not.mp hgen)))]
  trivial

/-- A queued call of `handleRead`. -/
theorem Clear.settled_runRead {s : AsyncConnection} {a : Answers} {bytes : Bytes} (h : Clear s)
    (hr : s.exchange.requests = [])
    (hhead : ∀ r n, srv.spine.parseOneRequest (s.itsBuffer ++ bytes) = .complete r n →
      r.method = .head → s.exchange.Unanswered ∧
      (s.world.socket = .closed ∨ ∀ peer, a.peer = some peer →
        Schedules srv a { r with
          clientIP := srv.spine.resolveClientIP peer
            (r.headers.get "X-Forwarded-For".toList) })) :
    Settled (Tail.handleRead srv a .success bytes s) := by
  have hno : NoHead s.exchange := Or.inr fun ⟨r, hmem, _⟩ => by
    rw [hr] at hmem
    cases hmem
  -- the swap of the timer leaves the exchange, the buffer and the socket alone
  have hidle : ∀ t : AsyncConnection, Trail (fun o => ∃ g n, o = .armed g n) t (leaveIdle srv t) ∧
      (leaveIdle srv t).exchange = t.exchange ∧ (leaveIdle srv t).itsBuffer = t.itsBuffer ∧
      (leaveIdle srv t).world.socket = t.world.socket := by
    intro t
    unfold leaveIdle
    split
    · exact ⟨Trail.behind (trail_armTimer _ _) rfl fun h => h, rfl, rfl, rfl⟩
    · exact ⟨Trail.silent rfl fun h => h, rfl, rfl, rfl⟩
  unfold Tail.handleRead
  split
  · exact h.settled_of_noHead (A := NoEvent) (Trail.silent rfl fun h => h) hno
      fun o ho => absurd ho id
  dsimp only
  rw [if_pos rfl]
  obtain ⟨ht, hx, hb, hs⟩ := hidle { s with itsFinalStatus := .success }
  generalize leaveIdle srv { s with itsFinalStatus := .success } = t at ht hx hb hs
  have hclear : Clear t ∧ NoHead t.exchange := by
    refine h.noHead (ht.behind rfl fun h => h) hno ?_
    rintro o ⟨_, _, rfl⟩ r
    simp
  unfold Tail.handleReadBytes
  dsimp only
  split
  · exact hclear.1.settled_of_noHead (A := NoEvent) (Trail.silent rfl fun h => h) hclear.2
      fun o ho => absurd ho id
  unfold Tail.parseBuffer
  dsimp only
  rw [hb]
  cases hp : srv.spine.parseOneRequest (s.itsBuffer ++ bytes) with
  | complete r n =>
    refine Clear.settled_handleParsedRequest (s := _) ?_ ?_ ?_
    · exact hclear.1
    · exact (congrArg Exchange.requests hx).trans hr
    · intro hm
      obtain ⟨hun, hsched⟩ := hhead r n hp hm
      refine ⟨?_, hsched.imp hs.trans id⟩
      show t.exchange.Unanswered
      rw [hx]
      exact hun
  | failed =>
    exact hclear.1.settled_of_noHead (A := NoEvent) (Trail.silent rfl fun h => h) hclear.2
      fun o ho => absurd ho id
  | incomplete =>
    refine hclear.1.settled_of_noHead
      (Trail.behind (stretch_handleIncompleteRequest srv a _).toTrail rfl fun h => h) hclear.2 ?_
    rintro o (⟨_, rfl⟩ | rfl) r
    · simp
    · simp

/-- The handler of a HEAD request is called: it does not turn it down. -/
theorem Clear.settled_handleCompletedRead {s : AsyncConnection} {a : Answers} (h : Clear s)
    (hhandler : s.world.socket ≠ .closed → ∀ response, a.handler ≠ .returned false response false) :
    Settled (Tail.handleCompletedRead srv a s) := by
  unfold Tail.handleCompletedRead
  split
  · exact ⟨h, Or.inl trivial⟩
  split
  · exact ⟨h, Or.inl trivial⟩
  rename_i hs
  let A : Obs → Prop := fun o => (∃ ip, o = .clientStarted ip) ∨ (∃ r, o = .dispatched r) ∨
    ∃ r, o = .handled r
  let t := Tail.called s
  have hcalled : Trail A s t :=
    (Trail.emit _ (Or.inl ⟨_, rfl⟩) fun _ => id).trans
      (Trail.emit _ (Or.inr (Or.inl ⟨_, rfl⟩)) fun hc => absurd hc hs)
  have hA : ∀ o, A o → (∀ r, o ≠ .parsed r) ∧ (∀ m r b, o ≠ .rendered m r b) ∧
      ∀ m b, o = .wrote m b → m = .handler ∨ m = .interim := by
    rintro o (⟨_, rfl⟩ | ⟨_, rfl⟩ | ⟨_, rfl⟩)
    · simp
    · simp
    · simp
  have hhandled : ∀ response, Clear (Tail.handled response t) := fun response =>
    h.quiet (hcalled.trans ((Trail.emit t (Or.inr (Or.inr ⟨_, rfl⟩)) fun _ => id).trans
      (Trail.silent rfl fun h => h))) hA
  rw [Tail.callHandler_eq]
  rcases Tail.returnFromHandler_cases srv a t with
    ⟨-, heq⟩ | ⟨response, ⟨-, heq⟩ | ⟨hh, -⟩ | ⟨-, heq⟩⟩
  · rw [heq]
    exact ⟨h.quiet hcalled hA, Or.inl trivial⟩
  · rw [heq]
    exact ⟨hhandled response, Or.inl trivial⟩
  · exact absurd hh (hhandler hs response)
  · -- from its first event on the reply is that of the handler
    rw [heq]
    have hstart := (stretch_startReply srv a (Tail.handled response t)).toTrail
    refine Clear.settled_of_noHead (s := (Tail.handled response t).emit (.started _)) ?_ hstart
      ?_ ?_
    · refine (hhandled response).quiet (A := fun o => ∃ p, o = .started p)
        (Trail.emit _ ⟨_, rfl⟩ fun _ => id) ?_
      rintro o ⟨p, rfl⟩
      simp
    · exact Or.inl (by simp [AsyncConnection.exchange, AsyncConnection.emit, current_cons,
        Exchange.observe])
    · rintro o (ho | ⟨rfl, -⟩) r
      · exact not_parsed_of_replyEvent srv ho r
      · simp

/-- A HEAD request that waits for a reply has its handler queued, or nothing is
outstanding any more. -/
theorem Inv.queued_of_head {s : AsyncConnection} (h : Inv srv s) (hno : ¬ NoHead s.exchange) :
    ∀ x, s.world.outstanding[0]? = some x → ∃ pool view,
      x = .task pool (.handleCompletedRead view) := by
  have hhead : s.exchange.IsHead := by
    by_contra hn
    exact hno (Or.inr hn)
  have hpath : s.exchange.path = none := by
    by_contra hn
    exact hno (Or.inl hn)
  have hreading : ¬ Reading srv s.bare := by
    intro hr
    obtain ⟨r, hmem, -⟩ := hhead
    rw [show s.exchange.requests = [] from hr.requests] at hmem
    cases hmem
  have hstreaming : ∀ b, ¬ Streaming srv s.bare b := by
    intro b hb
    rcases hb.path with hp | hp
    · exact absurd (hpath.symm.trans hp) (by simp)
    · exact absurd (hpath.symm.trans hp) (by simp)
  have hchunking : ∀ b, ¬ Chunking srv s.bare b := fun b hb =>
    absurd (hpath.symm.trans hb.path) (by simp)
  intro x hx
  rcases h.2 with ⟨ho, -⟩ | ⟨y, ho, hp⟩
  · rw [ho] at hx
    cases hx
  · rw [ho] at hx
    obtain rfl : y = x := Option.some.inj hx
    rcases y with _ | _ | bytes | ⟨pool, view | _ | _⟩ | ⟨_ | _ | _ | _, buffer⟩
    · exact absurd hp hreading
    · exact absurd hp hreading
    · exact absurd hp hreading
    · exact ⟨pool, view, rfl⟩
    · exact absurd hp.2.2 (hstreaming _)
    · exact absurd hp.2.2 (hchunking _)
    · exact absurd (hpath.symm.trans hp.2.path) (by simp)
    · exact absurd hp.2 (hstreaming _)
    · exact absurd hp.2 (hchunking _)
    · exact absurd (hpath.symm.trans hp.2.1.path) (by simp)

/-- In front of its last call a step that answers no HEAD request leaves all of
them without a reply of the server's own. -/
theorem Clear.settled {s : AsyncConnection} {e : Event} {x : Outcome} (hinv : Inv srv s)
    (h : Clear s) (hg : ¬ AnswersHead srv s e) (hx : Tail.step srv s e = some x) : Settled x := by
  have ht := trail_step srv hx
  by_cases hread : ∃ i a, e = .runRead i a
  · obtain ⟨i, a, rfl⟩ := hread
    simp only [Tail.step] at hx
    split at hx
    · rename_i bytes hi
      obtain rfl := Option.some.inj hx
      obtain ⟨hrel, -, hph⟩ := hinv.released srv hi
      have hr : s.exchange.requests = [] := (show Reading srv s.bare from hph).requests
      refine Clear.settled_runRead (s := s.release i) h hr ?_
      intro r n hp hm
      by_contra hcon
      refine hg ⟨bytes, r, n, hi, hp, hm, ?_⟩
      by_cases hun : s.exchange.Unanswered
      · refine Or.inr ?_
        by_contra hsched
        refine hcon ⟨hun, ?_⟩
        by_cases hcl : s.world.socket = .closed
        · exact Or.inl hcl
        · refine Or.inr fun peer hpeer => ?_
          by_contra hnot
          exact hsched ⟨hcl, peer, hpeer, hnot⟩
      · exact Or.inl hun
    · cases hx
  have hread' : ∀ i a, e ≠ .runRead i a := fun i a he => hread ⟨i, a, he⟩
  by_cases hno : NoHead s.exchange
  · exact h.settled_of_noHead ht hno fun o ho => not_parsed_of_stepEvent srv hread' ho
  -- a HEAD request waits for a reply
  have hhead : s.exchange.IsHead := by
    by_contra hn
    exact hno (Or.inr hn)
  have honly : ∀ (i : ℕ) (y : Activity), s.world.outstanding[i]? = some y → ∃ pool view,
      y = .task pool (.handleCompletedRead view) := by
    intro i y hy
    have hi := (hinv.released srv hy).1
    have hlen : s.world.outstanding.length ≤ 1 := by
      rcases hinv.2 with ⟨ho, -⟩ | ⟨z, ho, -⟩
      · rw [ho]
        exact Nat.zero_le 1
      · rw [ho]
        exact Nat.le_refl 1
    have h0 : i = 0 := by
      have := (List.getElem?_eq_some_iff.mp hy).1
      omega
    rw [h0] at hy
    exact hinv.queued_of_head hno y hy
  have hnone : ∀ (i : ℕ) (y : Activity), s.world.outstanding[i]? = some y →
      (∀ pool view, y ≠ .task pool (.handleCompletedRead view)) → False := by
    intro i y hy hne
    obtain ⟨pool, view, rfl⟩ := honly i y hy
    exact hne pool view rfl
  cases e with
  | runRead i a => exact absurd rfl (hread' i a)
  | handshake i ok =>
    simp only [Tail.step, step] at hx
    split at hx
    · rename_i hi
      exact (hnone i _ hi (by simp)).elim
    · cases hx
  | receive i bytes =>
    simp only [Tail.step, step] at hx
    split at hx
    · rename_i hi
      exact (hnone i _ hi (by simp)).elim
    · cases hx
  | readFails i err a =>
    simp only [Tail.step] at hx
    split at hx
    · rename_i hi
      exact (hnone i _ hi (by simp)).elim
    · cases hx
  | writeSome i n a =>
    simp only [Tail.step] at hx
    split at hx
    · rename_i hi
      exact (hnone i _ hi (by simp)).elim
    · cases hx
  | writeFails i a =>
    simp only [Tail.step] at hx
    split at hx
    · rename_i hi
      exact (hnone i _ hi (by simp)).elim
    · cases hx
  | timerExpires =>
    simp only [Tail.step, step] at hx
    split at hx
    · obtain rfl := Option.some.inj hx
      exact ⟨h, Or.inl trivial⟩
    · cases hx
  | requestShutdown =>
    obtain rfl := Option.some.inj hx
    exact ⟨h, Or.inl trivial⟩
  | runTimer generation a =>
    refine ⟨h.quiet ht ?_, Or.inl ?_⟩
    · rintro o rfl
      simp
    · simp only [Tail.step] at hx
      split at hx
      · rename_i w hw
        obtain rfl := Option.some.inj hx
        refine silent_handleTimer ?_
        by_contra hcon
        obtain ⟨habort, hgen, hidle⟩ := by simpa only [not_or] using hcon
        refine hg ⟨hhead, by simpa using hidle, not_not.mp hgen, w, hw, ?_⟩
        intro haborted
        exact habort (if_pos haborted)
      · cases hx
  | runTask i a =>
    simp only [Tail.step] at hx
    split at hx
    · rename_i pool task hi
      obtain rfl := Option.some.inj hx
      obtain ⟨pool', view, hy⟩ := honly i _ hi
      obtain ⟨rfl, rfl⟩ : pool = pool' ∧ task = .handleCompletedRead view := by simpa using hy
      refine Clear.settled_handleCompletedRead (s := cancelTimer (s.release i)) h ?_
      intro hopen response hresp
      exact hg ⟨hhead, hopen, ⟨pool, view, hi⟩, response, hresp⟩
    · cases hx

/-! ## Runs -/

/-- **HEAD gets no content**, in every run in which the server itself answers no
HEAD request: what has been sent in answer to a HEAD request is a part of the
header section of the handler's response, and all of it once the connection was
re-armed. -/
theorem head_without_content {s : AsyncConnection} {es : List Event}
    (hg : Transition.Along (step srv) (fun s e => ¬ AnswersHead srv s e) (start srv) es)
    (hrun : runFrom srv (start srv) es = some s) {x : Exchange}
    (hx : x ∈ exchanges s.world.trace) (hhead : x.IsHead) :
    (x.out = [] ∨ ∃ r head rest, x.heads = (.handler, r, head) :: rest ∧
      head = srv.spine.headerSection r ∧ x.out <+: head) ∧
    (x ∈ past s.world.trace → ∃ r head, x.heads = [(.handler, r, head)] ∧
      head = srv.spine.headerSection r ∧ x.out = head) := by
  have hall : Inv srv s ∧ Clear s := by
    refine Transition.run_preserves_of (P := fun s => Inv srv s ∧ Clear s) ?_ hg ?_ hrun
    · rintro u e u' ⟨hinv, hclear⟩ hge hstep
      refine ⟨inv_step srv hinv hstep, ?_⟩
      obtain ⟨o, ho, rfl⟩ := exists_outcome srv hstep
      obtain ⟨hc, hs⟩ := hclear.settled hinv hge ho
      exact hc.run hs e.answers
    · refine ⟨inv_start srv, ?_⟩
      intro y hy
      rw [start_trace] at hy
      obtain rfl : y = {} := List.mem_singleton.mp hy
      exact noHead_empty.unpaged
  obtain ⟨hinv, hclear⟩ := hall
  have hsound := sound_exchanges srv hinv hx
  have hreach : Reachable srv s := ⟨es, hrun⟩
  obtain ⟨r, hr, hm⟩ := hhead
  have hpre : x.handlerBytes <+: x.headBytes := hsound.head r hr hm
  -- nothing of the server's own follows
  have hserver : x.serverBytes = [] := by
    by_cases hp : x.path = none
    · exact (hclear x hx ⟨r, hr, hm⟩ hp).2
    · by_contra hne
      exact hsound.method (hsound.server hp hne).1 r hr hm
  have hout : x.out = x.handlerBytes := by
    rw [out_eq hsound.ordered, hserver, List.append_nil]
  rw [hout]
  constructor
  · by_cases hnil : x.headBytes = []
    · rw [hnil] at hpre
      exact Or.inl (List.prefix_nil.mp hpre)
    · refine Or.inr ?_
      unfold headBytes at hnil hpre
      split at hnil
      · rename_i response head hheads
        obtain ⟨rest, hrest⟩ : ∃ rest, x.heads = (.handler, response, head) :: rest := by
          cases hc : x.heads with
          | nil =>
            rw [hc] at hheads
            cases hheads
          | cons p rest =>
            rw [hc] at hheads
            exact ⟨rest, by rw [Option.some.inj hheads]⟩
        rw [hheads] at hpre
        have hmem : (.handler, response, head) ∈ x.heads := by
          rw [hrest]
          exact List.mem_cons_self
        exact ⟨response, head, rest, hrest, head_eq srv hreach hx hmem, hpre⟩
      · exact absurd rfl hnil
  · intro hpast
    have hdone : Done srv x := hinv.1.past x hpast
    obtain ⟨m, response, head, hheads, -, -⟩ := hdone.framed
    have hpath : x.path ≠ none := by
      intro hp
      have := (hclear x hx ⟨r, hr, hm⟩ hp).1
      rw [hheads] at this
      cases this
    obtain ⟨response', head', rest, hheads'⟩ := hsound.headed hpath hdone.path
    rw [hheads] at hheads'
    obtain ⟨hp, rfl⟩ := List.cons.inj hheads'
    obtain ⟨rfl, rfl, rfl⟩ : m = .handler ∧ response = response' ∧ head = head' := by
      simpa using hp
    have hmem : (.handler, response, head) ∈ x.heads := by
      rw [hheads]
      exact List.mem_singleton.mpr rfl
    refine ⟨response, head, hheads, head_eq srv hreach hx hmem, ?_⟩
    rw [hdone.head r hr hm hpath, headBytes_of_heads hheads]

/-- A HEAD request for the path the reactor serves; the response is written in one
piece. -/
def headRun : List Event :=
  [.receive 0 "HEAD /x HTTP/1.1\r\nHost: h\r\n\r\n".toList, .runRead 0 MinimalSpine.answers,
    .runTask 0 { MinimalSpine.answers with
      handler := .returned true { status := some 200, content := .buffer "hello".toList } false },
    .writeSome 0 87 MinimalSpine.answers]

/-- The only HEAD request of the run is scheduled. -/
theorem schedules_headRun {r : Request} {n : ℕ}
    (h : MinimalSpine.parseBodyless "HEAD /x HTTP/1.1\r\nHost: h\r\n\r\n".toList = .complete r n)
    (ip : Bytes) : Schedules MinimalSpine.server MinimalSpine.answers { r with clientIP := ip } := by
  have hr : (r.headers.get "Host".toList).isSome ∧ r.resource = "/x".toList := by
    have hall : (match MinimalSpine.parseBodyless
        "HEAD /x HTTP/1.1\r\nHost: h\r\n\r\n".toList with
      | .complete r _ => (r.headers.get "Host".toList).isSome && r.resource == "/x".toList
      | _ => false) = true := by decide +kernel
    rw [h] at hall
    simpa using hall
  refine ⟨?_, ⟨false, false, true⟩, ?_, Or.inr rfl, rfl⟩
  · rintro ⟨-, hnone⟩
    rw [show r.headers.get "Host".toList = none from hnone] at hr
    cases hr.1
  · have hres : (maskHead { r with
        clientIP := ip
        headers := stripHopByHopHeaders r.headers }).resource = "/x".toList := by
      unfold maskHead
      dsimp only
      split
      · exact hr.2
      · exact hr.2
    exact if_pos hres

theorem along_headRun : Transition.Along (step MinimalSpine.server)
    (fun s e => ¬ AnswersHead MinimalSpine.server s e) (start MinimalSpine.server) headRun := by
  refine ⟨id, fun s₁ h₁ => ⟨?_, fun s₂ h₂ => ⟨?_, fun s₃ h₃ => ⟨id, fun s₄ h₄ => trivial⟩⟩⟩⟩
  · obtain rfl := Option.some.inj h₁
    rintro ⟨bytes, r, n, hi, hp, -, hc⟩
    obtain rfl : "HEAD /x HTTP/1.1\r\nHost: h\r\n\r\n".toList = bytes := by
      exact (Activity.handleRead.inj (Option.some.inj hi))
    rcases hc with hc | ⟨-, peer, -, hc⟩
    · exact hc unanswered_empty
    · exact hc (schedules_headRun hp _)
  · rintro ⟨-, -, -, response, hr⟩
    simp at hr

theorem head_without_content_served :
    ∃ s x, runFrom MinimalSpine.server (start MinimalSpine.server) headRun = some s ∧
      x ∈ past s.world.trace ∧ x.IsHead ∧
      ∃ r head, x.heads = [(.handler, r, head)] ∧ x.out = head := by
  obtain ⟨s, hs, hp⟩ := MinimalSpine.reached headRun
    (fun s => (past s.world.trace).any fun x => x.requests.any fun r => r.method == .head)
    (by decide +kernel)
  obtain ⟨x, hx, hr⟩ := List.any_eq_true.mp hp
  obtain ⟨r, hmem, hm⟩ := List.any_eq_true.mp hr
  have hhead : x.IsHead := ⟨r, hmem, by simpa using hm⟩
  obtain ⟨response, head, hheads, -, hout⟩ :=
    (head_without_content along_headRun hs (mem_exchanges.mpr (Or.inl hx)) hhead).2 hx
  exact ⟨s, x, hs, hx, hhead, response, head, hheads, hout⟩

/-- **A stock reply to HEAD brings its page**: the connection is re-armed behind
it, and the client takes the page for the next response. -/
theorem head_with_page :
    ∃ s x, Reachable MinimalSpine.server s ∧ x ∈ past s.world.trace ∧ x.IsHead ∧
      ∃ r head, x.heads = [(.stock .notFound, r, head)] ∧ x.out = head ++ "<h1>404</h1>".toList := by
  obtain ⟨s, hs, hp⟩ := MinimalSpine.reached
    [.receive 0 "HEAD /a HTTP/1.1\r\nHost: h\r\n\r\n".toList, .runRead 0 MinimalSpine.answers]
    (fun s => (past s.world.trace).any fun x => (x.requests.any fun r => r.method == .head) &&
      (x.heads.length == 1 && x.heads.all fun p =>
        p.1 == .stock .notFound && x.out == p.2.2 ++ "<h1>404</h1>".toList))
    (by decide +kernel)
  obtain ⟨x, hx, hall⟩ := List.any_eq_true.mp hp
  obtain ⟨hr, hh⟩ := (Bool.and_eq_true _ _).mp hall
  obtain ⟨r, hmem, hm⟩ := List.any_eq_true.mp hr
  refine ⟨s, x, ⟨_, hs⟩, hx, ⟨r, hmem, by simpa using hm⟩, ?_⟩
  obtain ⟨hone, hpage⟩ := (Bool.and_eq_true _ _).mp hh
  obtain ⟨⟨m, response, head⟩, hheads⟩ := List.length_eq_one_iff.mp (beq_iff_eq.mp hone)
  rw [hheads] at hpage
  simp only [List.all_cons, List.all_nil, Bool.and_true, Bool.and_eq_true, beq_iff_eq] at hpage
  obtain ⟨rfl, hout⟩ := hpage
  exact ⟨response, head, hheads, hout⟩

end AsyncConnection

end SmartMet
