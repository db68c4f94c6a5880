/-
# Expectations

`handleExpectContinue` looks at the raw bytes of a request that has not arrived
whole, and of its `Expect` fields only at the first.  A request with an expectation
the server does not meet is refused unless it arrives whole with the end of its
header section, or its first `Expect` field is empty.
-/
import SmartMetServer.HeaderLimit
import SmartMetServer.HeadFields

namespace SmartMet

open StreamFraming

namespace AsyncConnection

variable (srv : Server)

/-! ## Expectations -/

/-- The message in front has an `Expect` field that is not empty, in none of them
`100-continue`, and its client knows what that is. -/
def UnmetExpectation (b : Bytes) : Prop :=
  ∃ target version lines, HeadOf b target version lines ∧
    negotiateVersion srv.spine version = .v1_1 ∧ (∃ v ∈ expectFields lines, v ≠ []) ∧
    "100-continue".toList ∉ (expectFields lines).flatMap options

/-- The message in front has `100-continue` in one of its `Expect` fields, and its client
knows what that is. -/
def AwaitsContinue (b : Bytes) : Prop :=
  ∃ target version lines, HeadOf b target version lines ∧
    negotiateVersion srv.spine version = .v1_1 ∧
    "100-continue".toList ∈ (expectFields lines).flatMap options

/-- The first `Expect` field of the message in front is empty. -/
def BlankExpect (b : Bytes) : Prop :=
  ∃ target version lines, HeadOf b target version lines ∧ (expectFields lines).head? = some []

/-- The head is complete once there is a blank line. -/
theorem peekRequestHead_complete {b : Bytes} :
    (peekRequestHead b).complete = true ↔ (find crlfcrlf b 0).isSome := by
  unfold peekRequestHead
  cases find crlfcrlf b 0 with
  | none => simp
  | some stop => simp

section Fields

variable {srv} {b : Bytes}

/-- An unmet expectation is one of the header section, -/
theorem headOnly_unmetExpectation : HeadOnly (UnmetExpectation srv) := fun b c hb => by
  unfold UnmetExpectation
  simp only [headOf_append hb]

/-- and so is the wait for an interim reply. -/
theorem headOnly_awaitsContinue : HeadOnly (AwaitsContinue srv) := fun b c hb => by
  unfold AwaitsContinue
  simp only [headOf_append hb]

/-- The header section with an unmet expectation is whole, -/
theorem UnmetExpectation.isSome (h : UnmetExpectation srv b) : (find crlfcrlf b 0).isSome := by
  obtain ⟨_, _, _, hhead, -⟩ := h
  exact hhead.isSome

/-- and so is that of a client who awaits the interim reply. -/
theorem AwaitsContinue.isSome (h : AwaitsContinue srv b) : (find crlfcrlf b 0).isSome := by
  obtain ⟨_, _, _, hhead, -⟩ := h
  exact hhead.isSome

/-- `peekRequestHead` stops at the first field, though it is empty. -/
theorem BlankExpect.peek (h : BlankExpect b) : (peekRequestHead b).expect = [] := by
  obtain ⟨_, _, _, hhead, hblank⟩ := h
  rw [hhead.peek, hblank]
  rfl

/-- A request line without a version is one of HTTP/1.0. -/
theorem negotiateVersion_nil : negotiateVersion srv.spine [] = .v1_0 := rfl

/-- An unmet expectation that the server does not refuse is behind an empty field. -/
theorem UnmetExpectation.blank (h : UnmetExpectation srv b) (hmet : ¬ RefusesExpectation srv b) :
    BlankExpect b := by
  obtain ⟨target, version, lines, hhead, hversion, ⟨v, hv, -⟩, hnone⟩ := h
  refine ⟨target, version, lines, hhead, ?_⟩
  cases hfields : expectFields lines with
  | nil =>
    rw [hfields] at hv
    cases hv
  | cons first fields =>
    have hfirst : hasHeaderToken first "100-continue".toList = false := by
      refine Bool.eq_false_iff.mpr fun hlist => hnone ?_
      rw [hfields, List.flatMap_cons]
      exact List.mem_append_left _ (hasHeaderToken_iff.mp hlist)
    by_contra hne
    refine hmet ?_
    unfold RefusesExpectation
    rw [hhead.peek, hfields]
    exact ⟨rfl, fun hnil => hne (congrArg some hnil), hversion, hfirst⟩

/-- A message the server sends a `100 Continue` for awaits it. -/
theorem SendsContinue.awaits (h : SendsContinue srv b) : AwaitsContinue srv b := by
  obtain ⟨hcomplete, hversion, hlist⟩ := h
  have hsome : (peekRequestHead b).version ≠ [] := by
    intro hnil
    rw [hnil] at hversion
    cases negotiateVersion_nil.symm.trans hversion
  obtain ⟨target, version, lines, hhead⟩ :=
    exists_headOf (peekRequestHead_complete.mp hcomplete) hsome
  rw [hhead.peek] at hversion hlist
  refine ⟨target, version, lines, hhead, hversion, ?_⟩
  dsimp only at hlist
  cases hfields : expectFields lines with
  | nil =>
    rw [hfields] at hlist
    cases hasHeaderToken_iff.mp hlist
  | cons first fields =>
    rw [hfields] at hlist
    rw [List.flatMap_cons]
    exact List.mem_append_left _ (hasHeaderToken_iff.mp hlist)

/-- **Whom the server tells to go on**: of the messages that await it and are not refused,
those whose first `Expect` field is not empty. -/
theorem AwaitsContinue.sends_iff (h : AwaitsContinue srv b) (hmet : ¬ RefusesExpectation srv b) :
    SendsContinue srv b ↔ ¬ BlankExpect b := by
  constructor
  · rintro ⟨-, -, hlist⟩ hblank
    rw [hblank.peek] at hlist
    cases hasHeaderToken_iff.mp hlist
  · intro hblank
    obtain ⟨target, version, lines, hhead, hversion, hlisted⟩ := h
    cases hfields : expectFields lines with
    | nil =>
      rw [hfields] at hlisted
      cases hlisted
    | cons first fields =>
      have hne : first ≠ [] := by
        rintro rfl
        exact hblank ⟨target, version, lines, hhead, by rw [hfields]; rfl⟩
      have hpeek : peekRequestHead b =
          { complete := true, version := version, expect := first } := by
        rw [hhead.peek, hfields]
        rfl
      unfold SendsContinue
      rw [hpeek]
      refine ⟨rfl, hversion, ?_⟩
      cases hlist : hasHeaderToken first "100-continue".toList with
      | true => rfl
      | false =>
        refine absurd ?_ hmet
        unfold RefusesExpectation
        rw [hpeek]
        exact ⟨rfl, hne, hversion, hlist⟩

end Fields

/-! ## Expectations and reads -/

/-- A read brings the end of a header section with an unmet expectation, and the rest of
the request as well, or the first `Expect` field is empty; or all that was left over. -/
def LateExpectation (s : AsyncConnection) : Event → Prop
  | .runRead i _ =>
    ∃ bytes, s.world.outstanding[i]? = some (.handleRead bytes) ∧
      s.world.shutdownRequested = false ∧ ¬ TooLarge srv (s.itsBuffer ++ bytes) ∧
      ((∃ r n, srv.spine.parseOneRequest (s.itsBuffer ++ bytes) = .complete r n) ∨
        BlankExpect (s.itsBuffer ++ bytes)) ∧
      UnmetExpectation srv (s.itsBuffer ++ bytes) ∧
      (bytes = [] ∨ find crlfcrlf s.itsBuffer 0 = none)
  | _ => False

/-- An expectation that was looked at is not an unmet one. -/
def Remembers (_ : Activity) (buffer : Bytes) (handled : Bool) : Prop :=
  handled = true → (find crlfcrlf buffer 0).isSome ∧ ¬ UnmetExpectation srv buffer

/-- The flag is down where an exchange begins, and reading does not raise it. -/
theorem watches_remembers : Watches (Remembers srv) where
  start h := by cases h
  handshake _ _ h := h
  receive _ _ _ _ h := h
  idle h := by cases h
  leftover _ h := by cases h

variable {srv}

/-- Reading goes on only where the expectation was met. -/
theorem not_unmet_of_startRead {s t u : AsyncConnection} {a : Answers} {i : ℕ} {bytes : Bytes}
    (hinv : Inv srv s) (hscreened : Looked (Screens (UnmetExpectation srv)) s)
    (h : Looked (Remembers srv) s) (hi : s.world.outstanding[i]? = some (.handleRead bytes))
    (hshut : s.world.shutdownRequested = false) (hsize : ¬ TooLarge srv (s.itsBuffer ++ bytes))
    (hlate : ¬ LateExpectation srv s (.runRead i a)) (hf : Fetched srv s t)
    (hb : t.itsBuffer = s.itsBuffer ++ bytes)
    (hu : Tail.handleIncompleteRequest srv a t = .stop (startRead u)) :
    ((find crlfcrlf (s.itsBuffer ++ bytes) 0).isSome →
      ¬ UnmetExpectation srv (s.itsBuffer ++ bytes)) ∧
    Remembers srv .read (s.itsBuffer ++ bytes) u.itsExpectHandled := by
  obtain ⟨ho, -, -, -⟩ := hinv.held_release hi
  have hold : s.itsExpectHandled = true → (find crlfcrlf (s.itsBuffer ++ bytes) 0).isSome ∧
      ¬ UnmetExpectation srv (s.itsBuffer ++ bytes) := by
    intro hs
    obtain ⟨hsome, hmet⟩ := h (.handleRead bytes) ho id hs
    obtain ⟨stop, hstop⟩ := Option.isSome_iff_exists.mp hsome
    refine ⟨by rw [find_append bytes hstop]; rfl, ?_⟩
    rwa [headOnly_unmetExpectation _ bytes hsome]
  have hsame : ∀ v, Tail.handleIncompleteRequest srv a t = .stop (startRead v) →
      u.itsExpectHandled = v.itsExpectHandled := by
    intro v hv
    rw [hv] at hu
    exact (congrArg itsExpectHandled (Outcome.stop.inj hu)).symm
  have hmet' : ¬ RefusesExpectation srv t.itsBuffer →
      ¬ UnmetExpectation srv (s.itsBuffer ++ bytes) := by
    intro hmet hun
    rw [hb] at hmet
    exact hlate ⟨bytes, hi, hshut, hsize, Or.inr (hun.blank hmet), hun,
      fresh_of_bad headOnly_unmetExpectation hinv hscreened hi hun⟩
  rcases handleIncompleteRequest_cases srv a t with
    ⟨-, heq⟩ | ⟨-, ⟨hdone, heq⟩ | ⟨-, -, heq⟩ | ⟨-, hc, hmet, v, hv, heq | ⟨-, heq⟩⟩⟩
  · rw [heq] at hu
    cases hu
  · have hu' : u.itsExpectHandled = s.itsExpectHandled := (hsame t heq).trans hf.expectHandled
    refine ⟨fun hsome => ?_, fun hhandled => hold (hu'.symm.trans hhandled)⟩
    rcases hdone with hdone | hdone
    · exact (hold (hf.expectHandled.symm.trans hdone)).2
    · rw [← hb, ← peekRequestHead_complete, hdone] at hsome
      cases hsome
  · rw [heq] at hu
    cases hu
  · rw [hb, peekRequestHead_complete] at hc
    exact ⟨fun _ => hmet' hmet, fun _ => ⟨hc, hmet' hmet⟩⟩
  · rw [hb, peekRequestHead_complete] at hc
    exact ⟨fun _ => hmet' hmet, fun _ => ⟨hc, hmet' hmet⟩⟩

/-- **An unmet expectation is refused**, in every run in which no read brings the
end of such a header section with the rest of the request, or with an empty first
`Expect` field: no handler is called, and the read behind which the header section is
whole is answered with 417 and ends the connection. -/
theorem expectation_refused {s : AsyncConnection} {es : List Event} {stream : Bytes}
    (hparse : Stable srv.spine.parseOneRequest)
    (hg : Transition.Along (step srv) (fun s e => ¬ LateExpectation srv s e) (start srv) es)
    (hrun : runFrom srv (start srv) es = some s) (hstream : es.flatMap Event.arrived <+: stream)
    {k : ℕ} {x : Exchange} {m : Bytes} (hx : (exchanges s.world.trace)[k]? = some x)
    (hm : MessageAt srv.spine.parseOneRequest stream k m) (hunmet : UnmetExpectation srv m) :
    x.dispatched = [] ∧
      ∀ i a bytes s', k = (past s.world.trace).length →
        s.world.outstanding[i]? = some (.handleRead bytes) →
        s.world.shutdownRequested = false → ¬ TooLarge srv (s.itsBuffer ++ bytes) →
        (find crlfcrlf (s.itsBuffer ++ bytes) 0).isSome →
        ¬ LateExpectation srv s (.runRead i a) → step srv s (.runRead i a) = some s' →
        (∃ r head, s'.exchange.heads
          = s.exchange.heads ++ [(.stock .expectationFailed, r, head)]) ∧
          s'.exchange.dispatched = [] ∧ s'.world.socket = .closed ∧ s'.world.outstanding = [] := by
  let Good : Bytes → Prop := fun m => ¬ UnmetExpectation srv m
  obtain ⟨hinv, hre, hreceived, hparsed, hscreened, hremembers⟩ := stream_run
    (Q := fun s => EachExchange (ParsedOnly srv Good stream) s.world.trace ∧
      Looked (Screens (UnmetExpectation srv)) s ∧ Looked (Remembers srv) s) hparse
    ⟨eachExchange_start srv fun hne => absurd rfl hne, looked_start srv (watches_screens _),
      looked_start srv (watches_remembers srv)⟩
    (by
      intro u e u' hinv hre _ hu hq hgu hstep
      refine ⟨parsedOnly_step hparse hinv hre hu hq.1 ?_ hstep,
        hq.2.1.step (watches_screens _) hinv hstep ?_,
        hq.2.2.step (watches_remembers srv) hinv hstep ?_⟩
      · rintro i a bytes m r rfl hi hshut hsize hp ⟨c, hc⟩ hm
        have hfront : UnmetExpectation srv (u.itsBuffer ++ bytes) := by
          rw [← hc]
          exact (headOnly_unmetExpectation m c hm.isSome).mpr hm
        exact hgu ⟨bytes, hi, hshut, hsize, Or.inl ⟨r, _, hp⟩, hfront,
          fresh_of_bad headOnly_unmetExpectation hinv hq.2.1 hi hfront⟩
      · rintro i a bytes t v rfl hi hshut hsize - hf hb hv -
        exact (not_unmet_of_startRead hinv hq.2.1 hq.2.2 hi hshut hsize hgu hf hb hv).1
      · rintro i a bytes t v rfl hi hshut hsize - hf hb hv
        exact (not_unmet_of_startRead hinv hq.2.1 hq.2.2 hi hshut hsize hgu hf hb hv).2)
    hg hrun hstream
  refine ⟨?_, ?_⟩
  · by_contra hd
    have hmem : x ∈ exchanges s.world.trace := List.mem_of_getElem? hx
    exact hparsed k x hx (requests_of_dispatched srv ⟨es, hrun⟩ hmem hd) m hm hunmet
  intro i a bytes s' hk hi hshut hsize hblank hgi hstep
  obtain ⟨hreq, hbehind⟩ := hre.behind_eq hinv hi
  subst hk
  obtain ⟨later, hlater⟩ := hreceived
  rw [← hlater] at hm
  obtain ⟨hfailed, -, -⟩ := hm.parse_eq hparse hbehind
  have hfront : UnmetExpectation srv (s.itsBuffer ++ bytes) :=
    (bad_iff headOnly_unmetExpectation hparse hm hbehind hblank hunmet.isSome).mpr hunmet
  have hp : srv.spine.parseOneRequest (s.itsBuffer ++ bytes) = .incomplete := by
    cases hp : srv.spine.parseOneRequest (s.itsBuffer ++ bytes) with
    | incomplete => rfl
    | failed => exact absurd hp hfailed
    | complete r n =>
      exact absurd ⟨bytes, hi, hshut, hsize, Or.inl ⟨r, n, hp⟩, hfront,
        fresh_of_bad headOnly_unmetExpectation hinv hscreened hi hfront⟩ hgi
  obtain ⟨t, hf, hr, hb, rfl⟩ := hinv.runRead_incomplete hi hshut hsize hp hstep
  have hgo : ∀ u, Tail.handleIncompleteRequest srv a t ≠ .stop (startRead u) := fun u hu =>
    (not_unmet_of_startRead hinv hscreened hremembers hi hshut hsize hgi hf hb hu).1 hblank hfront
  rcases handleIncompleteRequest_cases srv a t with
    ⟨⟨-, -, hno⟩, -⟩ | ⟨-, ⟨-, h⟩ | ⟨-, -, h417⟩ | ⟨-, -, hmet, -⟩⟩
  · rw [hb] at hno
    rw [hno] at hblank
    cases hblank
  · exact absurd h (hgo t)
  · rw [h417]
    exact hr.refused_with (u := { t with itsExpectHandled := true, itsKeepAlive := false }) hf a
      .expectationFailed rfl rfl
  · rw [hb] at hmet
    exact absurd ⟨bytes, hi, hshut, hsize, Or.inr (hfront.blank hmet), hfront,
      fresh_of_bad headOnly_unmetExpectation hinv hscreened hi hfront⟩ hgi

/-- A server for requests with a body of five bytes. -/
def bodyServer : Server :=
  { MinimalSpine.server with
    spine := { MinimalSpine.spine with parseOneRequest := MinimalSpine.parseWithBody 5 } }

/-- The header section of a request with an expectation no server knows. -/
def expectingHead : Bytes := "POST /x HTTP/1.1\r\nHost: h\r\nExpect: tea\r\n\r\n".toList

/-- The whole request, with its body. -/
def expectingRequest : Bytes := expectingHead ++ "hello".toList

/-- The header section in front of the request. -/
theorem headOf_expecting (b : Bytes) : HeadOf (expectingHead ++ b) "POST /x ".toList "1.1".toList
    ["Host: h".toList, "Expect: tea".toList] :=
  ⟨⟨b, congrArg (· ++ b) (show renderHead _ _ = expectingHead from by decide +kernel)⟩,
    by decide +kernel, by decide +kernel, by decide +kernel⟩

/-- The request is the first of its stream, and its expectation is unmet. -/
theorem messageAt_expectingRequest :
    MessageAt bodyServer.spine.parseOneRequest expectingRequest 0 expectingRequest ∧
      UnmetExpectation bodyServer expectingRequest := by
  have h : (match MinimalSpine.parseWithBody 5 expectingRequest with
      | .complete _ n => n == expectingRequest.length
      | _ => false) = true := by decide +kernel
  refine ⟨⟨?_, [], by rw [List.append_nil]; rfl⟩, ?_⟩
  · show ∃ a, MinimalSpine.parseWithBody 5 expectingRequest = _
    split at h
    · rename_i a n hp
      exact ⟨a, by rw [hp, beq_iff_eq.mp h]⟩
    · cases h
  · exact ⟨_, _, _, headOf_expecting "hello".toList, by decide +kernel,
      ⟨"tea".toList, by decide +kernel, by decide⟩, by decide +kernel⟩

/-- The body is withheld. -/
theorem expectation_refused_withheld :
    ∃ s s', runFrom bodyServer (start bodyServer) [.receive 0 expectingHead] = some s ∧
      step bodyServer s (.runRead 0 MinimalSpine.answers) = some s' ∧
      (∃ r head, s'.exchange.heads = [(.stock .expectationFailed, r, head)]) ∧
      s'.world.socket = .closed := by
  refine ⟨_, _, rfl, rfl, ?_⟩
  have hlate : ∀ s, s.world.outstanding = [.handleRead expectingHead] → s.itsBuffer = [] →
      ¬ LateExpectation bodyServer s (.runRead 0 MinimalSpine.answers) := by
    rintro s ho hb ⟨bytes, hi, -, -, ⟨r, n, hp⟩ | hblank, -⟩
    all_goals
      rw [ho] at hi
      obtain rfl : expectingHead = bytes := Activity.handleRead.inj (Option.some.inj hi)
    rotate_left
    · rw [hb] at hblank
      exact absurd hblank.peek (by decide +kernel)
    rw [hb] at hp
    have hincomplete : (match MinimalSpine.parseWithBody 5 expectingHead with
      | .complete _ _ => false
      | _ => true) = true := by decide +kernel
    rw [show MinimalSpine.parseWithBody 5 expectingHead = .complete r n from hp] at hincomplete
    cases hincomplete
  obtain ⟨hheads, -, hclosed, -⟩ := (@expectation_refused bodyServer _
    [.receive 0 expectingHead] expectingRequest (MinimalSpine.stable_parseWithBody 5)
    ⟨id, fun _ _ => trivial⟩ rfl (by decide +kernel) 0 _ _ rfl
    messageAt_expectingRequest.1 messageAt_expectingRequest.2).2 0 MinimalSpine.answers
    expectingHead _ rfl rfl rfl (fun h => absurd h.1 (by decide)) (by decide +kernel)
    (hlate _ rfl rfl) rfl
  exact ⟨hheads, hclosed⟩

/-- **An unmet expectation is overlooked**: the request arrives whole in one read,
and the handler is called. -/
theorem expectation_overlooked :
    ∃ s x, runFrom bodyServer (start bodyServer) [.receive 0 expectingRequest,
        .runRead 0 MinimalSpine.answers, .runTask 0 MinimalSpine.answers] = some s ∧
      MessageAt bodyServer.spine.parseOneRequest expectingRequest 0 expectingRequest ∧
      UnmetExpectation bodyServer expectingRequest ∧
      (exchanges s.world.trace)[0]? = some x ∧ x.dispatched ≠ [] := by
  obtain ⟨s, hs, hp⟩ := (Option.any_eq_true _ _).mp (show (runFrom bodyServer (start bodyServer)
    [.receive 0 expectingRequest, .runRead 0 MinimalSpine.answers,
      .runTask 0 MinimalSpine.answers]).any
    (fun s => match (exchanges s.world.trace)[0]? with
      | some x => !x.dispatched.isEmpty
      | none => false) = true from by decide +kernel)
  split at hp
  · rename_i x hx
    exact ⟨s, x, hs, messageAt_expectingRequest.1, messageAt_expectingRequest.2, hx,
      by simpa using hp⟩
  · cases hp

end AsyncConnection

end SmartMet
