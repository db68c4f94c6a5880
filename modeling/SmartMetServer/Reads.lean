/-
# A call of `handleRead`

What `handleRead` has in front of it when it has swapped the timer: the server
refuses because of a shutdown or of the size of what is buffered, or looks at
the request at the front of the buffer.
-/
import SmartMetServer.Transcript

namespace SmartMet

/-- The bytes an event brings. -/
def Event.arrived : Event → Bytes
  | .receive _ bytes => bytes
  | _ => []

theorem parsedOf_parsed (r : Request) (t : List Obs) :
    parsedOf (.parsed r :: t) = parsedOf t ++ [r] := by
  unfold parsedOf
  rw [List.reverse_cons, List.flatMap_append, List.flatMap_singleton]

theorem receivedOf_received (b : Bytes) (t : List Obs) :
    receivedOf (.received b :: t) = receivedOf t ++ b := by
  unfold receivedOf
  rw [List.reverse_cons, List.flatMap_append, List.flatMap_singleton]

namespace AsyncConnection

variable (srv : Server)

/-- What a run has received are the bytes of its reads. -/
theorem receivedOf_run {s s' : AsyncConnection} {es : List Event}
    (hrun : runFrom srv s es = some s') :
    receivedOf s'.world.trace = receivedOf s.world.trace ++ es.flatMap Event.arrived := by
  induction es generalizing s with
  | nil =>
    obtain rfl := Option.some.inj hrun
    exact (List.append_nil _).symm
  | cons e es ih =>
    obtain ⟨t, ht, hrest⟩ := Transition.run_cons.mp hrun
    rw [ih hrest, List.flatMap_cons, ← List.append_assoc]
    congr 1
    obtain ⟨x, -, -, htrail⟩ := trail_whole srv ht
    by_cases he : ∃ i b, e = .receive i b
    · obtain ⟨i, b, rfl⟩ := he
      simp only [step] at ht
      split at ht
      · split at ht
        · obtain rfl := Option.some.inj ht
          exact receivedOf_received b _
        · cases ht
      · cases ht
    · have harrived : e.arrived = [] := by
        cases e with
        | receive i b => exact absurd ⟨i, b, rfl⟩ he
        | _ => rfl
      rw [harrived, List.append_nil]
      refine htrail.receivedOf ?_
      rintro o (ho | ho)
      · exact not_received_of_stepEvent srv (fun i b h => he ⟨i, b, h⟩) ho
      · exact not_received_of_lastEvent srv ho

/-- The first exchange of a connection. -/
theorem eachExchange_start {R : ℕ → Exchange → Prop} (h : R 0 {}) :
    EachExchange R (start srv).world.trace := by
  rw [start_trace]
  exact eachExchange_iff.mpr ⟨fun k x hk => by simp [past] at hk, h⟩

/-- The code between `s` and `t` has called the handler of the read and swapped
the timer. -/
structure Fetched (s t : AsyncConnection) : Prop where
  trail : Trail (fun o => ∃ g n, o = .armed g n) s t
  common : Common srv t
  waiting : Waiting srv t
  keepAlive : t.itsKeepAlive = false
  exchange : t.exchange = s.exchange
  socket : t.world.socket = s.world.socket
  shutdown : t.world.shutdownRequested = s.world.shutdownRequested
  timedOut : t.hasTimedOut = s.hasTimedOut
  expectHandled : t.itsExpectHandled = s.itsExpectHandled

variable {srv}

theorem Fetched.unread {s t : AsyncConnection} (h : Fetched srv s t) : t.unread = [] := by
  unfold AsyncConnection.unread
  rw [h.common.outstanding]
  rfl

theorem Fetched.parsedOf {s t : AsyncConnection} (h : Fetched srv s t) :
    SmartMet.parsedOf t.world.trace = SmartMet.parsedOf s.world.trace := by
  refine h.trail.parsedOf ?_
  rintro o ⟨_, _, rfl⟩ r
  simp

theorem Fetched.receivedOf {s t : AsyncConnection} (h : Fetched srv s t) :
    SmartMet.receivedOf t.world.trace = SmartMet.receivedOf s.world.trace := by
  refine h.trail.receivedOf ?_
  rintro o ⟨_, _, rfl⟩ b
  simp

theorem Fetched.past {s t : AsyncConnection} (h : Fetched srv s t) :
    SmartMet.past t.world.trace = SmartMet.past s.world.trace := by
  obtain ⟨new, hnew, hev⟩ := h.trail.events
  rw [hnew]
  refine past_append ?_
  intro o ho
  obtain ⟨_, _, rfl⟩ := (hev o ho).1
  simp

variable (srv)

/-- More is buffered than a request may have. -/
def TooLarge (buffered : Bytes) : Prop :=
  0 < srv.itsMaxRequestSize ∧ srv.itsMaxRequestSize < buffered.length

variable {srv}

/-- **A queued call of `handleRead`**: a shutdown comes first, then the size of
what is buffered, then the request at the front. -/
theorem Inv.runRead_cases {s : AsyncConnection} (h : Inv srv s) {i : ℕ} {bytes : Bytes}
    (hi : s.world.outstanding[i]? = some (.handleRead bytes)) (a : Answers) :
    ∃ t, Fetched srv s t ∧
      (s.world.shutdownRequested = true ∧
        Tail.handleRead srv a .success bytes (s.release i)
          = Tail.sendStockReply srv a srv.spine.shutdown t ∨
      s.world.shutdownRequested = false ∧ TooLarge srv (s.itsBuffer ++ bytes) ∧
        Tail.handleRead srv a .success bytes (s.release i)
          = Tail.sendStockReply srv a .requestEntityTooLarge t ∨
      s.world.shutdownRequested = false ∧ ¬ TooLarge srv (s.itsBuffer ++ bytes) ∧
        Reading srv t ∧ t.itsBuffer = s.itsBuffer ++ bytes ∧
        Tail.handleRead srv a .success bytes (s.release i) = Tail.parseBuffer srv a t) := by
  obtain ⟨hrel, hc, hph⟩ := h.released srv hi
  have hr : Reading srv s.bare := hph
  rw [hrel]
  unfold Tail.handleRead
  split
  · rename_i hs
    exact ⟨s.bare, ⟨Trail.silent rfl fun h => h, hc, hr.toWaiting, hr.keepAlive, rfl, rfl, rfl, rfl,
      rfl⟩, Or.inl ⟨hs, rfl⟩⟩
  rename_i hs
  have hs' : s.world.shutdownRequested = false := by
    simpa using (show ¬ s.world.shutdownRequested = true from hs)
  dsimp only
  rw [if_pos rfl]
  obtain ⟨hr', hc'⟩ := Reading.leaveIdle srv
    (t := { s.bare with itsFinalStatus := .success }) (hr.agree srv (.of rfl)) (hc.update srv rfl)
  -- the swap of the timer leaves all but the timer's members alone
  have hidle : ∀ t : AsyncConnection,
      Trail (fun o => ∃ g n, o = .armed g n) t (AsyncConnection.leaveIdle srv t) ∧
      (AsyncConnection.leaveIdle srv t).exchange = t.exchange ∧
      (AsyncConnection.leaveIdle srv t).itsBuffer = t.itsBuffer ∧
      (AsyncConnection.leaveIdle srv t).world.socket = t.world.socket ∧
      (AsyncConnection.leaveIdle srv t).world.shutdownRequested = t.world.shutdownRequested ∧
      (AsyncConnection.leaveIdle srv t).hasTimedOut = t.hasTimedOut ∧
      (AsyncConnection.leaveIdle srv t).itsExpectHandled = t.itsExpectHandled := by
    intro t
    unfold AsyncConnection.leaveIdle
    split
    · exact ⟨Trail.behind (trail_armTimer _ _) rfl fun h => h, rfl, rfl, rfl, rfl, rfl, rfl⟩
    · exact ⟨Trail.silent rfl fun h => h, rfl, rfl, rfl, rfl, rfl, rfl⟩
  obtain ⟨ht, hx, hb, hsock, hshut, htime, hexp⟩ :=
    hidle { s.bare with itsFinalStatus := .success }
  generalize AsyncConnection.leaveIdle srv { s.bare with itsFinalStatus := .success } = t
    at hr' hc' ht hx hb hsock hshut htime hexp
  have hreceived : t.itsReceivedBytes + bytes.length = (s.itsBuffer ++ bytes).length := by
    rw [hr'.received, hb, List.length_append]
    rfl
  have hbuffer : t.itsBuffer ++ bytes = s.itsBuffer ++ bytes := by rw [hb]; rfl
  have ht' : Trail (fun o => ∃ g n, o = .armed g n) s t := ht.behind rfl fun h => h
  unfold Tail.handleReadBytes
  dsimp only
  rw [hreceived]
  split
  · rename_i hmax
    refine ⟨{ t with itsReceivedBytes := (s.itsBuffer ++ bytes).length }, ?_,
      Or.inr (Or.inl ⟨hs', ?_, rfl⟩)⟩
    · exact ⟨ht'.trans (Trail.silent rfl fun h => h), hc'.update srv rfl, ⟨hr'.direct, hr'.live⟩,
        hr'.keepAlive, hx, hsock, hshut, htime, hexp⟩
    · simpa [TooLarge] using hmax
  · rename_i hmax
    refine ⟨{ t with
        itsReceivedBytes := (s.itsBuffer ++ bytes).length, itsBuffer := t.itsBuffer ++ bytes }, ?_,
      Or.inr (Or.inr ⟨hs', ?_, ?_, hbuffer, rfl⟩)⟩
    · exact ⟨ht'.trans (Trail.silent rfl fun h => h), hc'.update srv rfl, ⟨hr'.direct, hr'.live⟩,
        hr'.keepAlive, hx, hsock, hshut, htime, hexp⟩
    · simpa [TooLarge] using hmax
    · exact ⟨⟨hr'.direct, hr'.live⟩, ⟨(congrArg List.length hbuffer).symm, hr'.pendingHeaders⟩,
        hr'.keepAlive, hr'.requests,
        fun hs => ⟨(hr'.blank hs).1, (hr'.blank hs).2, (hr'.blank hs).3, (hr'.blank hs).4,
          (hr'.blank hs).5⟩⟩

/-! ## The beginning of a request -/

variable (srv)

/-- The header section goes beyond the limit, and has no end yet. -/
def EndlessHead (buffered : Bytes) : Prop :=
  0 < srv.itsMaxHeaderSize ∧ srv.itsMaxHeaderSize < buffered.length ∧
    find crlfcrlf buffered 0 = none

/-- What is peeked of the header section at the front makes the server refuse the
request. -/
def RefusesExpectation (buffered : Bytes) : Prop :=
  let head := peekRequestHead buffered
  head.complete = true ∧ head.expect ≠ [] ∧ negotiateVersion srv.spine head.version = .v1_1 ∧
    hasHeaderToken head.expect "100-continue".toList = false

/-- What is peeked of the header section at the front makes the server send a
`100 Continue`. -/
def SendsContinue (buffered : Bytes) : Prop :=
  let head := peekRequestHead buffered
  head.complete = true ∧ negotiateVersion srv.spine head.version = .v1_1 ∧
    hasHeaderToken head.expect "100-continue".toList = true

/-- The interim response. -/
def continueReply : Bytes := "HTTP/1.1 100 Continue\r\n\r\n".toList

/-- The state behind the interim response. -/
def continued (a : Answers) (t : AsyncConnection) : AsyncConnection :=
  write .interim continueReply a.interimWrite { t with itsExpectHandled := true }

/-- **The expectation of a request** is looked at once its header section is whole:
it is refused, or it is met, or there is none. -/
theorem handleExpectContinue_cases (a : Answers) (t : AsyncConnection) :
    (t.itsExpectHandled = true ∨ (peekRequestHead t.itsBuffer).complete = false) ∧
      Tail.handleExpectContinue srv a t = (.stop t, true) ∨
    t.itsExpectHandled = false ∧ RefusesExpectation srv t.itsBuffer ∧
      Tail.handleExpectContinue srv a t = (Tail.sendStockReply srv a .expectationFailed
        { t with itsExpectHandled := true, itsKeepAlive := false }, false) ∨
    t.itsExpectHandled = false ∧ (peekRequestHead t.itsBuffer).complete = true ∧
      ¬ RefusesExpectation srv t.itsBuffer ∧
      (¬ SendsContinue srv t.itsBuffer ∧
        Tail.handleExpectContinue srv a t = (.stop { t with itsExpectHandled := true }, true) ∨
      SendsContinue srv t.itsBuffer ∧
        (t.world.writeFails continueReply a.interimWrite = true ∧
          Tail.handleExpectContinue srv a t = (.stop { continued a t with
            itsFinalStatus := .other, itsKeepAlive := false }, false) ∨
        t.world.writeFails continueReply a.interimWrite = false ∧
          Tail.handleExpectContinue srv a t = (.stop (continued a t), true))) := by
  unfold Tail.handleExpectContinue
  split
  · rename_i hdone
    exact Or.inl ⟨Or.inl hdone, rfl⟩
  rename_i hdone
  have hdone' : t.itsExpectHandled = false := by simpa using hdone
  dsimp only
  split
  · rename_i hc
    exact Or.inl ⟨Or.inr (by simpa using hc), rfl⟩
  rename_i hc
  have hc' : (peekRequestHead t.itsBuffer).complete = true := by simpa using hc
  refine Or.inr ?_
  split
  · rename_i hempty
    have hnil : (peekRequestHead t.itsBuffer).expect = [] := by simpa using hempty
    refine Or.inr ⟨hdone', hc', fun h => h.2.1 hnil, Or.inl ⟨?_, rfl⟩⟩
    rintro ⟨-, -, h⟩
    rw [hnil] at h
    revert h
    decide
  rename_i hne
  split
  · rename_i hv
    exact Or.inr ⟨hdone', hc', fun h => hv h.2.2.1, Or.inl ⟨fun h => hv h.2.1, rfl⟩⟩
  rename_i hv
  split
  · rename_i h100
    refine Or.inr ⟨hdone', hc', ?_, Or.inr ⟨⟨hc', not_not.mp hv, h100⟩, ?_⟩⟩
    · rintro ⟨-, -, -, h⟩
      rw [h] at h100
      cases h100
    · split
      · rename_i hfails
        exact Or.inl ⟨hfails, rfl⟩
      · rename_i hfails
        exact Or.inr ⟨Bool.not_eq_true _ ▸ hfails, rfl⟩
  · rename_i h100
    refine Or.inl ⟨hdone', ⟨hc', ?_, not_not.mp hv, by simpa using h100⟩, rfl⟩
    simpa using hne

/-- **An incomplete request**: the limit of the header section comes first, then
the expectation, once for each request. -/
theorem handleIncompleteRequest_cases (a : Answers) (t : AsyncConnection) :
    EndlessHead srv t.itsBuffer ∧ Tail.handleIncompleteRequest srv a t
        = Tail.sendStockReply srv a .requestHeaderFieldsTooLarge { t with itsKeepAlive := false } ∨
    ¬ EndlessHead srv t.itsBuffer ∧
      ((t.itsExpectHandled = true ∨ (peekRequestHead t.itsBuffer).complete = false) ∧
        Tail.handleIncompleteRequest srv a t = .stop (startRead t) ∨
      t.itsExpectHandled = false ∧ RefusesExpectation srv t.itsBuffer ∧
        Tail.handleIncompleteRequest srv a t = Tail.sendStockReply srv a .expectationFailed
          { t with itsExpectHandled := true, itsKeepAlive := false } ∨
      t.itsExpectHandled = false ∧ (peekRequestHead t.itsBuffer).complete = true ∧
        ¬ RefusesExpectation srv t.itsBuffer ∧
        ∃ u, u.itsExpectHandled = true ∧
          (Tail.handleIncompleteRequest srv a t = .stop (startRead u) ∨
            u.world.outstanding = t.world.outstanding ∧
              Tail.handleIncompleteRequest srv a t = .stop u)) := by
  unfold Tail.handleIncompleteRequest
  split
  · rename_i h
    refine Or.inl ⟨?_, rfl⟩
    simpa [EndlessHead, and_assoc] using h
  rename_i h
  refine Or.inr ⟨?_, ?_⟩
  · simpa [EndlessHead, and_assoc] using h
  dsimp only
  rcases handleExpectContinue_cases srv a t with ⟨hdone, heq⟩ | ⟨hdone, hunmet, heq⟩ |
    ⟨hdone, hc, hmet, ⟨-, heq⟩ | ⟨-, ⟨-, heq⟩ | ⟨-, heq⟩⟩⟩
  · rw [heq]
    exact Or.inl ⟨hdone, rfl⟩
  · rw [heq]
    exact Or.inr (Or.inl ⟨hdone, hunmet, rfl⟩)
  · rw [heq]
    exact Or.inr (Or.inr ⟨hdone, hc, hmet, _, rfl, Or.inl rfl⟩)
  · rw [heq]
    refine Or.inr (Or.inr ⟨hdone, hc, hmet, _, rfl, Or.inr ⟨?_, rfl⟩⟩)
    exact (World.write_delivers _ _ _ _).outstanding
  · rw [heq]
    exact Or.inr (Or.inr ⟨hdone, hc, hmet, _, rfl, Or.inl rfl⟩)

end AsyncConnection

end SmartMet
