/-
# The interim response

`100 Continue` is for the client that holds back the body of its request.  A
trace in which it was sent was `Inviting` right before: the request was whole up
to its header section, and nothing had been said about it.  `Tells` is what a
connection that reads has made of the expectation.
-/
import SmartMetServer.Expectation
import SmartMetServer.OwnBodies

namespace SmartMet

open StreamFraming Exchange

namespace AsyncConnection

variable (srv : Server)

/-! ## The places of the interim response -/

/-- The request under way is unanswered and incomplete, its client awaits a
`100 Continue`, and the exchanges before are over. -/
structure Inviting (t : List Obs) : Prop where
  requests : (current t).requests = []
  heads : (current t).heads = []
  wire : (current t).wire = []
  request : ∃ buffered, behind srv.spine.parseOneRequest (past t).length (receivedOf t)
      = some buffered ∧ srv.spine.parseOneRequest buffered = .incomplete ∧
    AwaitsContinue srv buffered
  past : ∀ x ∈ past t, Done srv x

/-- Every interim response was invited. -/
def InterimsInvited (t : List Obs) : Prop :=
  ∀ new b old, t = new ++ .wrote .interim b :: old → Inviting srv old ∧ b <+: continueReply

section Invited

variable {srv}

/-- The interim replies of the past were invited. -/
theorem InterimsInvited.tail {o : Obs} {t : List Obs} (h : InterimsInvited srv (o :: t)) :
    InterimsInvited srv t := by
  rintro new b old rfl
  exact h (o :: new) b old rfl

/-- Events that are no interim reply, -/
theorem InterimsInvited.append {new t : List Obs} (h : InterimsInvited srv t)
    (hnew : ∀ o ∈ new, ∀ b, o ≠ .wrote .interim b) : InterimsInvited srv (new ++ t) := by
  induction new with
  | nil => exact h
  | cons o new ih =>
    obtain ⟨ho, hnew⟩ := List.forall_mem_cons.mp hnew
    intro new' b old heq
    cases new' with
    | nil => exact absurd (List.cons.inj heq).1 (ho b)
    | cons o' new' => exact ih hnew new' b old (List.cons.inj heq).2

/-- and one that was invited. -/
theorem InterimsInvited.cons {t : List Obs} {b : Bytes} (h : InterimsInvited srv t)
    (ht : Inviting srv t) (hb : b <+: continueReply) :
    InterimsInvited srv (.wrote .interim b :: t) := by
  intro new b' old heq
  cases new with
  | nil =>
    obtain ⟨hw, rfl⟩ := List.cons.inj heq
    obtain ⟨-, rfl⟩ := Obs.wrote.inj hw
    exact ⟨ht, hb⟩
  | cons o new => exact h new b' old (List.cons.inj heq).2

/-- A trail without interim replies. -/
theorem InterimsInvited.trail {A : Obs → Prop} {s t : AsyncConnection}
    (h : InterimsInvited srv s.world.trace) (ht : Trail A s t)
    (hA : ∀ o, A o → ∀ b, o ≠ .wrote .interim b) : InterimsInvited srv t.world.trace := by
  obtain ⟨new, hnew, hev⟩ := ht.events
  rw [hnew]
  exact h.append fun o ho => hA o (hev o ho).1

/-- What holds of the exchanges of a trace with invited interim responses, if the
first interim response of a request keeps it. -/
theorem InterimsInvited.each {R : ℕ → Exchange → Prop} {t : List Obs}
    (h : InterimsInvited srv t) (h0 : ∀ k, R k {})
    (hkeep : ∀ k x o, (∀ b, o ≠ .wrote .interim b) → R k x → R k (x.observe o))
    (hfirst : ∀ new b old, t = new ++ .wrote .interim b :: old → Inviting srv old →
      R (past old).length ((current old).observe (.wrote .interim b))) :
    EachExchange R t := by
  induction t with
  | nil => exact eachExchange_iff.mpr ⟨fun k x hk => by simp [past] at hk, h0 0⟩
  | cons o t ih =>
    have ht := ih h.tail fun new b old heq => hfirst (o :: new) b old (by rw [heq]; rfl)
    by_cases hr : o = .rearmed
    · subst hr
      exact ht.rearmed (h0 _)
    refine ht.cons hr ?_
    by_cases hi : ∃ b, o = .wrote .interim b
    · obtain ⟨b, rfl⟩ := hi
      exact hfirst [] b t rfl (h [] b t rfl).1
    · exact hkeep _ _ o (fun b hb => hi ⟨b, hb⟩) (eachExchange_iff.mp ht).2

/-- **At most one** interim response is sent for a request. -/
theorem InterimsInvited.one {t : List Obs} (h : InterimsInvited srv t) :
    EachExchange (fun _ x => x.interims.length ≤ 1) t := by
  refine h.each (fun _ => Nat.zero_le 1) ?_ ?_
  · intro _ x o ho hx
    rw [Exchange.interims_observe ho]
    exact hx
  · intro _ b old _ hold
    show (((current old).wire ++ [(Message.interim, b)]).flatMap _).length ≤ 1
    rw [hold.wire]
    exact le_refl 1

end Invited

/-! ## An incomplete request -/

variable {srv}

/-- The trace behind an incomplete request: at most the interim response is new. -/
theorem handleIncompleteRequest_trace (a : Answers) (t : AsyncConnection) :
    (Tail.handleIncompleteRequest srv a t).state.world.trace = t.world.trace ∨
    t.itsExpectHandled = false ∧ SendsContinue srv t.itsBuffer ∧
      (Tail.handleIncompleteRequest srv a t).state.world.trace
        = (t.world.write .interim continueReply a.interimWrite).trace := by
  unfold Tail.handleIncompleteRequest
  split
  · exact Or.inl rfl
  dsimp only
  rcases handleExpectContinue_cases srv a t with ⟨-, heq⟩ | ⟨-, -, heq⟩ |
    ⟨hdone, -, -, ⟨-, heq⟩ | ⟨hawaits, ⟨-, heq⟩ | ⟨-, heq⟩⟩⟩
  · rw [heq]
    exact Or.inl rfl
  · rw [heq]
    exact Or.inl rfl
  · rw [heq]
    exact Or.inl rfl
  · rw [heq]
    exact Or.inr ⟨hdone, hawaits, rfl⟩
  · rw [heq]
    exact Or.inr ⟨hdone, hawaits, rfl⟩

/-- A connection goes on reading a request whose expectation was looked at. -/
theorem startRead_of_incomplete {a : Answers} {t u : AsyncConnection}
    (hnone : t.world.outstanding = [])
    (hu : Tail.handleIncompleteRequest srv a t = .stop (startRead u)) :
    (t.itsExpectHandled = true ∨ (peekRequestHead t.itsBuffer).complete = false) ∧
      u.itsExpectHandled = t.itsExpectHandled ∧ u.exchange = t.exchange ∨
    t.itsExpectHandled = false ∧ (peekRequestHead t.itsBuffer).complete = true ∧
      u.itsExpectHandled = true ∧ ¬ RefusesExpectation srv t.itsBuffer ∧
      (SendsContinue srv t.itsBuffer →
        u.exchange.interims = t.exchange.interims ++ [continueReply]) ∧
      (¬ SendsContinue srv t.itsBuffer → u.exchange.interims = t.exchange.interims) := by
  have hsame : ∀ {v}, Outcome.stop (startRead v) = .stop (startRead u) →
      u.itsExpectHandled = v.itsExpectHandled ∧ u.exchange = v.exchange := by
    intro v hv
    have hread := Outcome.stop.inj hv
    exact ⟨(congrArg itsExpectHandled hread).symm, (congrArg AsyncConnection.exchange hread).symm⟩
  unfold Tail.handleIncompleteRequest at hu
  split at hu
  · cases hu
  dsimp only at hu
  rcases handleExpectContinue_cases srv a t with ⟨hdone, heq⟩ | ⟨-, -, heq⟩ |
    ⟨hdone, hc, hmet, ⟨hnot, heq⟩ | ⟨hsends, ⟨hfails, heq⟩ | ⟨hfails, heq⟩⟩⟩
  · rw [heq] at hu
    exact Or.inl ⟨hdone, hsame hu⟩
  · rw [heq] at hu
    cases hu
  · rw [heq] at hu
    exact Or.inr ⟨hdone, hc, (hsame hu).1, hmet, fun h => absurd h hnot,
      fun _ => congrArg Exchange.interims (hsame hu).2⟩
  · rw [heq] at hu
    -- the client is gone, and nothing is read
    have hout : (continued a t).world.outstanding = u.world.outstanding ++ [.read] :=
      congrArg (fun v => v.world.outstanding) (Outcome.stop.inj hu)
    rw [show (continued a t).world.outstanding = t.world.outstanding from
      (World.write_delivers _ _ _ _).outstanding, hnone] at hout
    exact absurd hout.symm (by simp)
  · rw [heq] at hu
    obtain ⟨he, hx⟩ := hsame hu
    refine Or.inr ⟨hdone, hc, he, hmet, fun _ => ?_, fun h => absurd hsends h⟩
    have hwrite : (continued a t).world = t.world.emit (.wrote .interim continueReply) := by
      rcases t.world.write_cases .interim continueReply a.interimWrite with
        ⟨-, hnil, -⟩ | ⟨-, -, h⟩ | ⟨h, -⟩ | ⟨h, -⟩
      · exact absurd hnil (by decide)
      · exact h
      · rw [h] at hfails
        cases hfails
      · rw [h] at hfails
        cases hfails
    rw [hx]
    show (current (continued a t).world.trace).interims = _
    rw [hwrite]
    show (t.exchange.wire ++ [(Message.interim, continueReply)]).flatMap _ = _
    rw [List.flatMap_append]
    rfl

/-! ## What a connection tells its client -/

/-- What `peekRequestHead` refuses depends on the header section alone, -/
theorem headOnly_refusesExpectation : HeadOnly (RefusesExpectation srv) := by
  intro b c hb
  unfold RefusesExpectation
  rw [peekRequestHead_append c hb]

/-- and so does what it answers with a 100. -/
theorem headOnly_sendsContinue : HeadOnly (SendsContinue srv) := by
  intro b c hb
  unfold SendsContinue
  rw [peekRequestHead_append c hb]

variable (srv)

/-- What a client was told whose header section was looked at. -/
structure ToldOf (buffer : Bytes) (ms : List Bytes) : Prop where
  whole : (find crlfcrlf buffer 0).isSome
  met : ¬ RefusesExpectation srv buffer
  sent : SendsContinue srv buffer → ms = [continueReply]
  unsent : ¬ SendsContinue srv buffer → ms = []

/-- The client was told to go on where the server sends that, and not before; a whole
header section is looked at before more is read. -/
def Tells (y : Activity) (buffer : Bytes) (handled : Bool) (ms : List Bytes) : Prop :=
  (handled = false → ms = []) ∧ (handled = true → ToldOf srv buffer ms) ∧
    (y.Waits → (find crlfcrlf buffer 0).isSome → handled = true)

/-- Nothing is told of an exchange that has just begun, and reading tells nothing more. -/
theorem hears_tells : Hears (Tells srv) where
  start := ⟨fun _ => rfl, fun h => (by cases h), fun _ h => absurd h (by decide)⟩
  handshake _ _ _ h := h
  receive _ _ _ _ _ h := ⟨h.1, h.2.1, fun _ => h.2.2 trivial⟩
  idle := ⟨fun _ => rfl, fun h => (by cases h), fun _ h => absurd h (by decide)⟩
  leftover _ := ⟨fun _ => rfl, fun h => (by cases h), fun h => absurd rfl h⟩

variable {srv}

/-- More bytes tell nothing else. -/
theorem ToldOf.append {buffer : Bytes} {ms : List Bytes} (h : ToldOf srv buffer ms)
    (bytes : Bytes) : ToldOf srv (buffer ++ bytes) ms := by
  obtain ⟨stop, hstop⟩ := Option.isSome_iff_exists.mp h.whole
  refine ⟨by rw [find_append bytes hstop]; rfl, ?_, ?_, ?_⟩
  · rw [headOnly_refusesExpectation _ bytes h.whole]
    exact h.met
  · rw [headOnly_sendsContinue _ bytes h.whole]
    exact h.sent
  · rw [headOnly_sendsContinue _ bytes h.whole]
    exact h.unsent

/-- Reading goes on only where the client was told. -/
theorem tells_of_startRead {s t u : AsyncConnection} {a : Answers} {i : ℕ} {bytes : Bytes}
    (hinv : Inv srv s) (h : Heard (Tells srv) s)
    (hi : s.world.outstanding[i]? = some (.handleRead bytes)) (hf : Fetched srv s t)
    (hb : t.itsBuffer = s.itsBuffer ++ bytes)
    (hu : Tail.handleIncompleteRequest srv a t = .stop (startRead u)) :
    Tells srv .read (s.itsBuffer ++ bytes) u.itsExpectHandled u.exchange.interims := by
  obtain ⟨ho, -, -, -⟩ := hinv.held_release hi
  obtain ⟨hfalse, htrue, -⟩ := h (.handleRead bytes) ho id
  rw [← hf.expectHandled, ← hf.exchange] at hfalse htrue
  rw [← hb]
  rcases startRead_of_incomplete hf.common.outstanding hu with
    ⟨hdone, he, hx⟩ | ⟨hdone, hc, he, hmet, hsent, hunsent⟩
  · rw [he, hx]
    refine ⟨hfalse, fun hhandled => ?_, fun _ hsome => ?_⟩
    · rw [hb]
      exact (htrue hhandled).append bytes
    · rcases hdone with hdone | hdone
      · exact hdone
      · rw [← peekRequestHead_complete, hdone] at hsome
        cases hsome
  · rw [he]
    rw [hfalse hdone] at hsent hunsent
    exact ⟨fun h => (by cases h),
      fun _ => ⟨peekRequestHead_complete.mp hc, hmet, hsent, hunsent⟩, fun _ _ => rfl⟩

/-! ## One step -/

/-- The last call sends no interim reply. -/
theorem not_interim_of_lastEvent {x : Outcome}
    (hm : ∀ m t books, x = .reply m t books → m ≠ .interim) {o : Obs} (h : LastEvent srv x o)
    (b : Bytes) : o ≠ .wrote .interim b := by
  rintro rfl
  cases x with
  | stop s => exact h
  | reply m s books =>
    rcases h with (⟨_, h⟩ | ⟨_, h⟩ | h | h | h | ⟨_, _, h⟩) | h
    · cases h
    · exact hm m s books rfl (Obs.wrote.inj h).1.symm
    · cases h
    · cases h
    · cases h
    · cases h
    · exact h
  | finish s =>
    rcases h with h | ⟨_, _, h⟩
    · cases h
    · cases h

/-- Only a read sends an interim response. -/
theorem not_interim_of_stepEvent {e : Event} (he : ∀ i a, e ≠ .runRead i a) {o : Obs}
    (h : StepEvent srv e o) (b : Bytes) : o ≠ .wrote .interim b := by
  have hgetter : ∀ p, ¬ GetterEvent srv p (.wrote .interim b) := by
    rintro p (ho | ⟨ho, -⟩)
    · exact ho
    · cases ho
  rintro rfl
  cases e with
  | runRead i a => exact he i a rfl
  | runTask i a =>
    rcases h with h | ⟨_, h⟩ | ⟨_, h⟩ | ⟨_, h⟩ | ⟨_, h⟩
    · exact hgetter _ h
    all_goals cases h
  | writeSome i n a =>
    rcases h with ⟨_, h⟩ | h
    · cases h
    · exact hgetter _ h
  | writeFails i a => exact hgetter _ h
  | timerExpires => exact h
  | requestShutdown => exact h
  | _ => cases h

/-- An interim response that a read sends is invited. -/
theorem inviting_of_read {s t : AsyncConnection} {i : ℕ} {bytes : Bytes} (hinv : Inv srv s)
    (hre : Reassembled srv s) (hheard : Heard (Tells srv) s)
    (hi : s.world.outstanding[i]? = some (.handleRead bytes)) (hf : Fetched srv s t)
    (hr : Reading srv t) (hb : t.itsBuffer = s.itsBuffer ++ bytes)
    (hp : srv.spine.parseOneRequest (s.itsBuffer ++ bytes) = .incomplete)
    (hdone : t.itsExpectHandled = false) (hawaits : AwaitsContinue srv t.itsBuffer)
    (hsock : t.world.socket = .open) : Inviting srv t.world.trace := by
  obtain ⟨ho, -, -, -⟩ := hinv.held_release hi
  obtain ⟨-, hbehind⟩ := hre.behind_eq hinv hi
  obtain ⟨hheads, hwire⟩ := hr.live (by rw [hsock]; simp)
  refine ⟨hr.requests, hheads, ?_, ⟨s.itsBuffer ++ bytes, ?_, hp, ?_⟩, hf.common.past⟩
  · have hnone : t.exchange.interims = [] := by
      rw [hf.exchange]
      exact (hheard (.handleRead bytes) ho id).1 (hf.expectHandled.symm.trans hdone)
    refine List.eq_nil_iff_forall_not_mem.mpr ?_
    intro p hp
    have hmem : p.2 ∈ t.exchange.interims :=
      List.mem_flatMap.mpr ⟨p, hp, by rw [if_pos (hwire p hp)]; exact List.mem_singleton_self _⟩
    rw [hnone] at hmem
    cases hmem
  · rw [hf.past, hf.receivedOf]
    exact hbehind
  · rw [← hb]
    exact hawaits

/-- **One step** sends no interim response that is not invited. -/
theorem invited_step {s s' : AsyncConnection} {e : Event} (hinv : Inv srv s)
    (hre : Reassembled srv s) (hheard : Heard (Tells srv) s)
    (h : InterimsInvited srv s.world.trace) (hstep : step srv s e = some s') :
    InterimsInvited srv s'.world.trace := by
  obtain ⟨x, hx, rfl⟩ := exists_outcome srv hstep
  refine InterimsInvited.trail ?_ (trail_run srv e.answers x) fun o ho =>
    not_interim_of_lastEvent (fun m t books hm => (own_message (by rw [hx, hm])).2) ho
  -- an interim reply is written in a read only
  by_cases he : ∃ i a, e = .runRead i a
  · obtain ⟨i, a, rfl⟩ := he
    simp only [Tail.step] at hx
    split at hx
    · rename_i bytes hi
      obtain rfl := Option.some.inj hx
      obtain ⟨t, hf, hcase⟩ := hinv.runRead_cases hi a
      have ht : InterimsInvited srv t.world.trace := by
        refine h.trail hf.trail ?_
        rintro o ⟨_, _, rfl⟩ b
        simp
      rcases hcase with ⟨-, hx⟩ | ⟨-, -, hx⟩ | ⟨hshut, hsize, hr, hb, hx⟩
      · rw [hx]
        exact ht
      · rw [hx]
        exact ht
      · rw [hx]
        unfold Tail.parseBuffer
        rw [hb]
        cases hp : srv.spine.parseOneRequest (s.itsBuffer ++ bytes) with
        | complete r n =>
          refine InterimsInvited.trail ?_ (stretch_handleParsedRequest srv a _).toTrail
            fun o (ho : o = .peerUnknown) => by simp [ho]
          show InterimsInvited srv ([.parsed r] ++ t.world.trace)
          exact ht.append (by simp)
        | failed => exact ht
        | incomplete =>
          show InterimsInvited srv (Tail.handleIncompleteRequest srv a t).state.world.trace
          rcases handleIncompleteRequest_trace a t with heq | ⟨hdone, hawaits, heq⟩
          · rw [heq]
            exact ht
          rw [heq]
          -- what is held then is a message that awaits the reply and was not told yet
          have hinviting := inviting_of_read hinv hre hheard hi hf hr hb hp hdone hawaits.awaits
          rcases t.world.write_cases .interim continueReply a.interimWrite with
            ⟨-, -, h⟩ | ⟨-, hs, h⟩ | ⟨-, hs, n, h⟩ | ⟨-, -, h⟩
          · rw [h]
            exact ht
          · rw [h]
            exact ht.cons (hinviting hs) (List.prefix_refl _)
          · rw [h]
            have hcut : continueReply.dropLast.take n <+: continueReply :=
              (List.take_prefix n _).trans (List.dropLast_prefix _)
            have hcons := ht.cons (hinviting hs) hcut
            exact @InterimsInvited.append srv [.writeError .interim] _ hcons (by simp)
          · rw [h]
            exact @InterimsInvited.append srv [.writeError .interim] _ ht (by simp)
    · cases hx
  · exact h.trail (trail_step srv hx) fun o ho =>
      not_interim_of_stepEvent (fun i a h => he ⟨i, a, h⟩) ho

/-! ## Whole runs -/

/-- The rest of the stream completes what has arrived of an incomplete message. -/
theorem awaitsContinue_of_message {old : List Obs} {stream m : Bytes}
    (hparse : Stable srv.spine.parseOneRequest) (h : Inviting srv old)
    (hstream : receivedOf old <+: stream)
    (hm : MessageAt srv.spine.parseOneRequest stream (past old).length m) :
    AwaitsContinue srv m := by
  obtain ⟨buffered, hbehind, hp, hawaits⟩ := h.request
  obtain ⟨later, rfl⟩ := hstream
  obtain ⟨⟨r, hr⟩, rest, hrest⟩ := id hm
  obtain ⟨-, -, hwhole⟩ := hm.parse_eq hparse hbehind
  rw [behind_append hparse later hbehind] at hrest
  have heq : buffered ++ later = m ++ rest := Option.some.inj hrest
  have hshort : buffered.length < m.length := by
    by_contra hlong
    obtain ⟨q, hq⟩ := hwhole (not_lt.mp hlong)
    rw [hp] at hq
    cases hq
  have hfront : buffered <+: m ++ rest := by
    rw [← heq]
    exact List.prefix_append buffered later
  obtain ⟨more, rfl⟩ : buffered <+: m :=
    List.prefix_of_prefix_length_le hfront (List.prefix_append m rest) hshort.le
  exact (headOnly_awaitsContinue buffered more hawaits.isSome).mpr hawaits

/-- The interim replies of a reached state were invited. -/
theorem invited_reachable {s : AsyncConnection} (hparse : Stable srv.spine.parseOneRequest)
    (h : Reachable srv s) :
    Inv srv s ∧ Reassembled srv s ∧ Heard (Tells srv) s ∧ InterimsInvited srv s.world.trace := by
  obtain ⟨es, hrun⟩ := h
  refine Transition.run_preserves (P := fun u => Inv srv u ∧ Reassembled srv u ∧
    Heard (Tells srv) u ∧ InterimsInvited srv u.world.trace) ?_ ?_ hrun
  · rintro u e u' ⟨hinv, hre, hheard, hinvited⟩ hstep
    refine ⟨inv_step srv hinv hstep, hre.step hparse hinv hstep, ?_,
      invited_step hinv hre hheard hinvited hstep⟩
    refine hheard.step (hears_tells srv) hinv hstep ?_
    rintro i a bytes t v rfl hi - - - hf hb hv
    exact tells_of_startRead hinv hheard hi hf hb hv
  · refine ⟨inv_start srv, reassembled_start srv, heard_start srv (hears_tells srv), ?_⟩
    rw [start_trace]
    intro new b old heq
    have hmem : Obs.wrote .interim b ∈ [Obs.armed 1 srv.itsTimeout] := by
      rw [heq]
      simp
    cases List.mem_singleton.mp hmem

/-- **`100 Continue`**: a client is told to go on where it awaits that and has not
sent its request yet, behind all exchanges before and in front of the reply, once
for a request; and a connection that reads has told it, unless the first `Expect` field
of its request is empty. -/
theorem continue_invited {s : AsyncConnection} {es : List Event} {stream : Bytes}
    (hparse : Stable srv.spine.parseOneRequest) (hrun : runFrom srv (start srv) es = some s)
    (hstream : es.flatMap Event.arrived <+: stream) :
    (∀ new b old, s.world.trace = new ++ .wrote .interim b :: old →
      Inviting srv old ∧ b <+: continueReply ∧ (past old).reverse <+: exchanges s.world.trace) ∧
    (∀ k x, (exchanges s.world.trace)[k]? = some x →
      x.interims.length ≤ 1 ∧ Ordered x.wire ∧
      (x.interims ≠ [] → ∀ m, MessageAt srv.spine.parseOneRequest stream k m →
        AwaitsContinue srv m)) ∧
    ∀ i : ℕ, s.world.outstanding[i]? = some .read →
      behind srv.spine.parseOneRequest (past s.world.trace).length (receivedOf s.world.trace)
        = some s.itsBuffer ∧
      (AwaitsContinue srv s.itsBuffer →
        (s.exchange.interims = [continueReply] ↔ ¬ BlankExpect s.itsBuffer)) := by
  obtain ⟨hinv, hre, hheard, hinvited⟩ := invited_reachable hparse ⟨es, hrun⟩
  have hreceived : receivedOf s.world.trace <+: stream := by
    rw [receivedOf_run srv hrun, start_trace]
    exact hstream
  refine ⟨?_, ?_, ?_⟩
  · intro new b old heq
    obtain ⟨hold, hb⟩ := hinvited new b old heq
    refine ⟨hold, hb, ?_⟩
    rw [heq]
    have hsuffix := past_suffix (new ++ [.wrote .interim b]) old
    rw [List.append_assoc, List.singleton_append] at hsuffix
    exact (List.reverse_prefix.mpr hsuffix).trans (List.prefix_append _ _)
  · have hone := hinvited.one
    -- the message is known by what had been read when the reply was written
    have hawaited : EachExchange (fun k x => x.interims ≠ [] →
        ∀ m, MessageAt srv.spine.parseOneRequest stream k m → AwaitsContinue srv m)
        s.world.trace := by
      refine hinvited.each (fun k hne => absurd rfl hne) ?_ ?_
      · intro k x o ho hx
        rw [Exchange.interims_observe ho]
        exact hx
      · intro new b old heq hold _ m hm
        refine awaitsContinue_of_message hparse hold (List.IsPrefix.trans ?_ hreceived) hm
        rw [heq]
        unfold receivedOf
        rw [flatMap_reverse_append, List.reverse_cons, List.flatMap_append, List.append_assoc]
        exact List.prefix_append _ _
    intro k x hx
    exact ⟨hone k x hx, (sound_exchanges srv hinv (List.mem_of_getElem? hx)).ordered,
      hawaited k x hx⟩
  · intro i hi
    obtain ⟨ho, hs, -, -⟩ := hinv.held_release hi
    obtain ⟨-, -, hph⟩ := hinv.released srv hi
    obtain ⟨-, hbehind⟩ := hre.behind_held hinv (show Reading srv s.bare from hph)
      (by rw [ho]; simp)
    have hheld : s.held = s.itsBuffer := hs.trans (List.append_nil _)
    rw [hheld] at hbehind
    refine ⟨hbehind, fun hawaits => ?_⟩
    -- a connection that reads has looked at the header section it holds
    obtain ⟨-, htold, hlooked⟩ := hheard .read ho id
    have ht := htold (hlooked trivial hawaits.isSome)
    rw [← hawaits.sends_iff ht.met]
    refine ⟨fun hms => ?_, ht.sent⟩
    by_contra hno
    cases hms.symm.trans (ht.unsent hno)

/-- A `POST` with these lines behind its `Host` field; the body is withheld. -/
def withheldHead (lines : List Bytes) : Bytes :=
  renderHead "POST /x HTTP/1.1".toList ("Host: h".toList :: lines)

/-- The client is told to go on. -/
theorem continue_invited_withheld :
    ∃ s, runFrom bodyServer (start bodyServer)
        [.receive 0 (withheldHead ["Expect: 100-continue".toList]),
          .runRead 0 MinimalSpine.answers] = some s ∧
      s.world.outstanding = [.read] ∧ s.exchange.interims = [continueReply] := by
  refine ⟨_, rfl, rfl, ?_⟩
  have hrun := @continue_invited bodyServer _
    [.receive 0 (withheldHead ["Expect: 100-continue".toList]), .runRead 0 MinimalSpine.answers] _
    (MinimalSpine.stable_parseWithBody 5) rfl (List.prefix_refl _)
  refine ((hrun.2.2 0 rfl).2 ⟨"POST /x ".toList, "1.1".toList,
    ["Host: h".toList, "Expect: 100-continue".toList], ⟨⟨[], by decide +kernel⟩,
      by decide +kernel, by decide +kernel, by decide +kernel⟩, by decide +kernel,
    by decide +kernel⟩).mpr ?_
  exact fun hblank => absurd hblank.peek (by decide +kernel)

/-- **A client is left waiting** whose first `Expect` field is empty and whose second asks
for the interim response. -/
theorem continue_withheld :
    ∃ s, runFrom bodyServer (start bodyServer)
        [.receive 0 (withheldHead ["Expect:".toList, "Expect: 100-continue".toList]),
          .runRead 0 MinimalSpine.answers] = some s ∧
      s.world.outstanding = [.read] ∧ AwaitsContinue bodyServer s.itsBuffer ∧
      s.exchange.interims = [] := by
  refine ⟨_, rfl, by decide +kernel, ⟨"POST /x ".toList, "1.1".toList,
    ["Host: h".toList, "Expect:".toList, "Expect: 100-continue".toList], ⟨⟨[], ?_⟩,
      by decide +kernel, by decide +kernel, by decide +kernel⟩, by decide +kernel,
    by decide +kernel⟩, by decide +kernel⟩
  decide +kernel

end AsyncConnection

end SmartMet
