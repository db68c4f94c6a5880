/-
# The transcript of a connection

A trace, read as a sequence of exchanges: `exchanges` lists them from the first
to the one under way.  Whatever an exchange collects from its events, the
exchanges together collect from the whole trace: `flatMap_exchanges`.
-/
import SmartMetServer.Stretches

namespace SmartMet

/-- The exchanges of a trace, from the first to the one under way. -/
def exchanges (t : List Obs) : List Exchange := (past t).reverse ++ [current t]

/-- The requests `handleParsedRequest` was entered with, in order. -/
def parsedOf (t : List Obs) : List Request :=
  t.reverse.flatMap fun
    | .parsed r => [r]
    | _ => []

/-- The bytes on the wire, in order, with what they belong to. -/
def wireOf (t : List Obs) : List (Message × Bytes) :=
  t.reverse.flatMap fun
    | .wrote m b => [(m, b)]
    | _ => []

/-- The requests handlers were called with, in order. -/
def dispatchedOf (t : List Obs) : List Request :=
  t.reverse.flatMap fun
    | .dispatched r => [r]
    | _ => []

/-- The header sections that were built, in order. -/
def headsOf (t : List Obs) : List (Message × Response × Bytes) :=
  t.reverse.flatMap fun
    | .rendered m r h => [(m, r, h)]
    | _ => []

/-- The bytes the client has sent, as far as they have arrived. -/
def receivedOf (t : List Obs) : Bytes :=
  t.reverse.flatMap fun
    | .received b => b
    | _ => []

/-- The exchanges are those of the past and the one under way. -/
theorem mem_exchanges {t : List Obs} {x : Exchange} :
    x ∈ exchanges t ↔ x ∈ past t ∨ x = current t := by
  simp [exchanges]

/-- Newer events come behind the older ones. -/
theorem flatMap_reverse_append {β : Type*} (f : Obs → List β) (new t : List Obs) :
    (new ++ t).reverse.flatMap f = t.reverse.flatMap f ++ new.reverse.flatMap f := by
  rw [List.reverse_append, List.flatMap_append]

/-- What the exchanges collect, the trace collects. -/
theorem flatMap_exchanges {β : Type*} (f : Exchange → List β) (g : Obs → List β)
    (hempty : f {} = []) (hrearmed : g .rearmed = [])
    (hobserve : ∀ x o, o ≠ .rearmed → f (x.observe o) = f x ++ g o) (t : List Obs) :
    (exchanges t).flatMap f = t.reverse.flatMap g := by
  have hone : ∀ t, (exchanges t).flatMap f
      = (past t).reverse.flatMap f ++ f (current t) := by
    intro t
    rw [exchanges, List.flatMap_append, List.flatMap_singleton]
  induction t with
  | nil =>
    rw [hone]
    exact hempty
  | cons o t ih =>
    rw [List.reverse_cons, List.flatMap_append, List.flatMap_singleton, ← ih, hone, hone]
    by_cases ho : o = .rearmed
    · subst ho
      show ((current t :: past t).reverse).flatMap f ++ f {} = _
      rw [hempty, hrearmed, List.reverse_cons, List.flatMap_append, List.flatMap_singleton]
    · rw [current_cons ho, past_cons ho, hobserve _ _ ho, List.append_assoc]

/-- Their requests are the parsed ones, in order, -/
theorem flatMap_requests (t : List Obs) :
    (exchanges t).flatMap Exchange.requests = parsedOf t := by
  refine flatMap_exchanges _ _ rfl rfl ?_ t
  intro x o _
  cases o with
  | parsed r => rfl
  | _ => exact (List.append_nil _).symm

/-- their bytes those of the wire, -/
theorem flatMap_wire (t : List Obs) : (exchanges t).flatMap Exchange.wire = wireOf t := by
  refine flatMap_exchanges _ _ rfl rfl ?_ t
  intro x o _
  cases o with
  | wrote m b => rfl
  | _ => exact (List.append_nil _).symm

/-- their calls those of the handlers -/
theorem flatMap_dispatched (t : List Obs) :
    (exchanges t).flatMap Exchange.dispatched = dispatchedOf t := by
  refine flatMap_exchanges _ _ rfl rfl ?_ t
  intro x o _
  cases o with
  | dispatched r => rfl
  | _ => exact (List.append_nil _).symm

/-- and their header sections the rendered ones. -/
theorem flatMap_heads (t : List Obs) : (exchanges t).flatMap Exchange.heads = headsOf t := by
  refine flatMap_exchanges _ _ rfl rfl ?_ t
  intro x o _
  cases o with
  | rendered m r h => rfl
  | _ => exact (List.append_nil _).symm

/-- The header sections of an exchange are in the trace. -/
theorem rendered_mem {t : List Obs} {x : Exchange} (hx : x ∈ exchanges t)
    {p : Message × Response × Bytes} (hp : p ∈ x.heads) : .rendered p.1 p.2.1 p.2.2 ∈ t := by
  have hall : p ∈ headsOf t := by
    rw [← flatMap_heads]
    exact List.mem_flatMap.mpr ⟨x, hx, hp⟩
  obtain ⟨o, ho, hpo⟩ := List.mem_flatMap.mp hall
  cases o with
  | rendered m r h =>
    obtain rfl := List.mem_singleton.mp hpo
    exact List.mem_reverse.mp ho
  | _ => cases hpo

/-- What the events of an exchange preserve, they preserve in every exchange they
belong to. -/
theorem exchange_append {R : Exchange → Prop} {new t : List Obs} (h : R (current t)) (h0 : R {})
    (hobs : ∀ o ∈ new, o ≠ .rearmed → ∀ x, R x → R (x.observe o)) :
    R (current (new ++ t)) ∧ ∀ x ∈ past (new ++ t), x ∈ past t ∨ R x := by
  induction new with
  | nil => exact ⟨h, fun x hx => Or.inl hx⟩
  | cons o new ih =>
    obtain ⟨ho, hnew⟩ := List.forall_mem_cons.mp hobs
    obtain ⟨hc, hp⟩ := ih hnew
    rw [List.cons_append]
    by_cases hre : o = .rearmed
    · subst hre
      refine ⟨h0, ?_⟩
      intro x hx
      rcases List.mem_cons.mp hx with rfl | hx
      · exact Or.inr hc
      · exact hp x hx
    · rw [current_cons hre, past_cons hre]
      exact ⟨ho hre _ hc, hp⟩

/-! ## Exchanges by their places -/

/-- Every exchange `x` of a trace, `k` exchanges standing before it, meets
`R k x`. -/
def EachExchange (R : ℕ → Exchange → Prop) (t : List Obs) : Prop :=
  ∀ k x, (exchanges t)[k]? = some x → R k x

/-- What holds of each exchange, of the past by its position. -/
theorem eachExchange_iff {R : ℕ → Exchange → Prop} {t : List Obs} :
    EachExchange R t ↔
      (∀ k x, (past t).reverse[k]? = some x → R k x) ∧ R (past t).length (current t) := by
  have hlast : (exchanges t)[(past t).length]? = some (current t) := by
    unfold exchanges
    rw [List.getElem?_append_right (by simp)]
    simp
  refine ⟨fun h => ⟨fun k x hk => h k x ?_, h _ _ hlast⟩, ?_⟩
  · unfold exchanges
    rw [List.getElem?_append_left (List.getElem?_eq_some_iff.mp hk).1]
    exact hk
  · rintro ⟨hpast, hcur⟩ k x hk
    unfold exchanges at hk
    by_cases hlt : k < (past t).reverse.length
    · rw [List.getElem?_append_left hlt] at hk
      exact hpast k x hk
    · rw [List.getElem?_append_right (Nat.le_of_not_lt hlt)] at hk
      rw [List.length_reverse] at hk hlt
      obtain ⟨hk', rfl⟩ := List.getElem?_eq_some_iff.mp hk
      rw [List.length_singleton] at hk'
      rw [List.getElem_singleton, show k = (past t).length by omega]
      exact hcur

/-- One more event of the exchange under way. -/
theorem EachExchange.cons {R : ℕ → Exchange → Prop} {t : List Obs} (h : EachExchange R t)
    {o : Obs} (ho : o ≠ .rearmed) (hR : R (past t).length ((current t).observe o)) :
    EachExchange R (o :: t) := by
  refine eachExchange_iff.mpr ?_
  rw [past_cons ho, current_cons ho]
  exact ⟨(eachExchange_iff.mp h).1, hR⟩

/-- Events that re-arm nothing leave the past. -/
theorem past_append {new t : List Obs} (h : ∀ o ∈ new, o ≠ .rearmed) :
    past (new ++ t) = past t := by
  induction new with
  | nil => rfl
  | cons o new ih =>
    obtain ⟨ho, hnew⟩ := List.forall_mem_cons.mp h
    rw [List.cons_append, past_cons ho, ih hnew]

/-- Exchanges that are over stay as they are. -/
theorem past_suffix (new old : List Obs) : past old <:+ past (new ++ old) := by
  induction new with
  | nil => exact List.suffix_refl _
  | cons o new ih =>
    by_cases hr : o = .rearmed
    · subst hr
      exact ih.trans (List.suffix_cons _ _)
    · rw [List.cons_append, past_cons hr]
      exact ih

/-- The next exchange begins. -/
theorem EachExchange.rearmed {R : ℕ → Exchange → Prop} {t : List Obs} (h : EachExchange R t)
    (h0 : R ((past t).length + 1) {}) : EachExchange R (.rearmed :: t) := by
  refine eachExchange_iff.mpr ⟨?_, h0⟩
  intro k x hk
  refine h k x ?_
  rwa [show (past (.rearmed :: t)).reverse = exchanges t from List.reverse_cons] at hk

/-- Events that keep `R` wherever they happen. -/
theorem EachExchange.append {R : ℕ → Exchange → Prop} {new t : List Obs} (h : EachExchange R t)
    (h0 : ∀ k, R k {}) (hobs : ∀ o ∈ new, o ≠ .rearmed → ∀ k x, R k x → R k (x.observe o)) :
    EachExchange R (new ++ t) := by
  induction new with
  | nil => exact h
  | cons o new ih =>
    obtain ⟨ho, hnew⟩ := List.forall_mem_cons.mp hobs
    have hR := ih hnew
    by_cases hre : o = .rearmed
    · subst hre
      exact hR.rearmed (h0 _)
    · exact hR.cons hre (ho hre _ _ (eachExchange_iff.mp hR).2)

/-- A trace without sent bytes has an empty wire. -/
theorem wireOf_eq_nil {t : List Obs} (h : ∀ o ∈ t, ¬ AsyncConnection.Outward o) :
    wireOf t = [] := by
  refine List.flatMap_eq_nil_iff.mpr ?_
  intro o ho
  have := h o (List.mem_reverse.mp ho)
  cases o with
  | wrote m b => exact absurd trivial this
  | _ => rfl

/-- No handler was called without an event outward. -/
theorem dispatchedOf_eq_nil {t : List Obs} (h : ∀ o ∈ t, ¬ AsyncConnection.Outward o) :
    dispatchedOf t = [] := by
  refine List.flatMap_eq_nil_iff.mpr ?_
  intro o ho
  have := h o (List.mem_reverse.mp ho)
  cases o with
  | dispatched r => exact absurd trivial this
  | _ => rfl

namespace AsyncConnection

variable (srv : Server)

/-- The exchange under way is sound in every phase. -/
theorem Phase.sound {t : AsyncConnection} {x : Activity} (h : Phase srv t x) :
    Exchange.Sound srv t.exchange := by
  rcases x with _ | _ | bytes | ⟨pool, _ | _ | _⟩ | ⟨_ | _ | _ | _, buffer⟩
  · exact (show Reading srv t from h).direct.sound
  · exact (show Reading srv t from h).direct.sound
  · exact (show Reading srv t from h).direct.sound
  · exact (show Queued srv t from h).direct.sound
  · obtain ⟨h1, -, h2⟩ := h
    exact h1.sound_self srv (Body.facts srv h1 (Or.inr (Or.inl h2)))
  · obtain ⟨h1, -, h2⟩ := h
    exact h1.sound_self srv (Body.facts srv h1 (Or.inr (Or.inr (Or.inl h2))))
  · obtain ⟨h1, h2⟩ := h
    exact h1.toAnswering.sound_self srv (Body.facts srv h1.toAnswering (Or.inl h2))
  · obtain ⟨h1, h2⟩ := h
    exact h1.toAnswering.sound_self srv (Body.facts srv h1.toAnswering (Or.inr (Or.inl h2)))
  · obtain ⟨h1, h2⟩ := h
    exact h1.toAnswering.sound_self srv
      (Body.facts srv h1.toAnswering (Or.inr (Or.inr (Or.inl h2))))
  · obtain ⟨h1, h2, -⟩ := h
    exact h1.toAnswering.sound_self srv
      (Body.facts srv h1.toAnswering (Or.inr (Or.inr (Or.inr h2))))

/-- Every exchange of a reachable state is sound. -/
theorem sound_exchanges {s : AsyncConnection} (h : Inv srv s) {x : Exchange}
    (hx : x ∈ exchanges s.world.trace) : Exchange.Sound srv x := by
  obtain ⟨hc, hph⟩ := h
  rcases mem_exchanges.mp hx with hx | rfl
  · exact (hc.past x hx).sound
  · rcases hph with ⟨-, hov⟩ | ⟨a, -, hp⟩
    · exact hov.sound
    · show Exchange.Sound srv s.bare.exchange
      exact Phase.sound srv hp

/-- A header section is the text of its response. -/
def Announced (o : Obs) : Prop :=
  ∀ m r h, o = .rendered m r h → h = srv.spine.headerSection r

/-- What a reply renders, -/
theorem announced_of_replyEvent {o : Obs} (ho : ReplyEvent srv o) : Announced srv o := by
  rintro m r h rfl
  cases m with
  | handler => exact ho
  | interim => exact absurd ho id
  | options => exact absurd ho id
  | stock st => exact absurd ho id

/-- a step -/
theorem announced_of_stepEvent {e : Event} {o : Obs} (ho : StepEvent srv e o) :
    Announced srv o := by
  have hgetter : ∀ p, GetterEvent srv p o → Announced srv o := by
    rintro p (h | ⟨rfl, -⟩)
    · exact announced_of_replyEvent srv h
    · rintro m r h ⟨⟩
  intro m r h hr
  subst hr
  cases e with
  | runTask i a =>
    rcases ho with ho | ⟨_, ⟨⟩⟩ | ⟨_, ⟨⟩⟩ | ⟨_, ⟨⟩⟩ | ⟨_, ⟨⟩⟩
    exact hgetter _ ho m r h rfl
  | writeSome i n a =>
    rcases ho with ⟨_, ⟨⟩⟩ | ho
    exact hgetter _ ho m r h rfl
  | writeFails i a => exact hgetter _ ho m r h rfl
  | handshake i ok => cases ho
  | receive i bytes => cases ho
  | readFails i err a => cases ho
  | timerExpires => exact absurd ho id
  | runTimer generation a => cases ho
  | requestShutdown => exact absurd ho id
  | runRead i a =>
    rcases ho with ⟨_, _, ⟨⟩⟩ | ⟨_, ⟨⟩⟩ | ho | ⟨_, ⟨⟩⟩ | ho
    all_goals cases ho

/-- or a last call, it writes. -/
theorem announced_of_lastEvent {x : Outcome} {o : Obs} (ho : LastEvent srv x o) :
    Announced srv o := by
  have hfinish : FinishEvent o → Announced srv o := by
    rintro (rfl | ⟨_, _, rfl⟩)
    · rintro m r h ⟨⟩
    · rintro m r h ⟨⟩
  cases x with
  | stop s => exact absurd ho id
  | reply m s books =>
    rcases ho with (⟨r, rfl⟩ | ⟨_, rfl⟩ | rfl | rfl | ho) | ho
    · rintro m' r' h' ⟨⟩
      rfl
    · rintro m' r' h' ⟨⟩
    · rintro m' r' h' ⟨⟩
    · rintro m' r' h' ⟨⟩
    · exact hfinish ho
    · exact announced_of_replyEvent srv ho
  | finish s => exact hfinish ho

/-- The timer is armed first. -/
theorem start_trace : (start srv).world.trace = [.armed 1 srv.itsTimeout] := by
  unfold start
  dsimp only
  split
  · rfl
  · rfl

/-- The header sections of a reachable state are the texts of their responses. -/
theorem announced_reachable {s : AsyncConnection} (h : Reachable srv s) :
    ∀ o ∈ s.world.trace, Announced srv o := by
  obtain ⟨es, hrun⟩ := h
  refine Transition.run_preserves (P := fun s => ∀ o ∈ s.world.trace, Announced srv o) ?_ ?_ hrun
  · intro u e u' hu hstep
    obtain ⟨x, -, -, ht⟩ := trail_whole srv hstep
    obtain ⟨new, hnew, hev⟩ := ht.events
    intro o ho
    rw [hnew] at ho
    rcases List.mem_append.mp ho with ho | ho
    · rcases (hev o ho).1 with h | h
      · exact announced_of_stepEvent srv h
      · exact announced_of_lastEvent srv h
    · exact hu o ho
  · intro o ho
    rw [start_trace] at ho
    obtain rfl := List.mem_singleton.mp ho
    rintro m r h ⟨⟩

/-- The header section of a response in an exchange of a reachable state. -/
theorem head_eq {s : AsyncConnection} (h : Reachable srv s) {x : Exchange}
    (hx : x ∈ exchanges s.world.trace) {m : Message} {r : Response} {head : Bytes}
    (hp : (m, r, head) ∈ x.heads) : head = srv.spine.headerSection r :=
  announced_reachable srv h _ (rendered_mem hx hp) m r head rfl

/-! ## What a client sends -/

/-- A reply parses no request, -/
theorem not_parsed_of_replyEvent {o : Obs} (h : ReplyEvent srv o) (r : Request) :
    o ≠ .parsed r := by
  rintro rfl
  exact h

/-- and neither does the last call, -/
theorem not_parsed_of_lastEvent {x : Outcome} {o : Obs} (h : LastEvent srv x o) (r : Request) :
    o ≠ .parsed r := by
  have hfinish : FinishEvent o → o ≠ .parsed r := by
    rintro (rfl | ⟨_, _, rfl⟩)
    · simp
    · simp
  cases x with
  | stop s => exact absurd h id
  | reply m s books =>
    rcases h with (⟨_, rfl⟩ | ⟨_, rfl⟩ | rfl | rfl | ho) | ho
    · simp
    · simp
    · simp
    · simp
    · exact hfinish ho
    · exact not_parsed_of_replyEvent srv ho r
  | finish s => exact hfinish h

/-- Only a queued call of `handleRead` parses a request. -/
theorem not_parsed_of_stepEvent {e : Event} (he : ∀ i a, e ≠ .runRead i a) {o : Obs}
    (h : StepEvent srv e o) (r : Request) : o ≠ .parsed r := by
  have hgetter : ∀ p, GetterEvent srv p o → o ≠ .parsed r := by
    rintro p (ho | ⟨rfl, -⟩)
    · exact not_parsed_of_replyEvent srv ho r
    · simp
  rintro rfl
  cases e with
  | runRead i a => exact he i a rfl
  | runTask i a =>
    rcases h with h | ⟨_, h⟩ | ⟨_, h⟩ | ⟨_, h⟩ | ⟨_, h⟩
    · exact hgetter _ h rfl
    all_goals cases h
  | writeSome i n a =>
    rcases h with ⟨_, h⟩ | h
    · cases h
    · exact hgetter _ h rfl
  | writeFails i a => exact hgetter _ h rfl
  | timerExpires => exact h
  | requestShutdown => exact h
  | _ => cases h

/-- which receives nothing either. -/
theorem not_received_of_lastEvent {x : Outcome} {o : Obs} (h : LastEvent srv x o) (b : Bytes) :
    o ≠ .received b := by
  rintro rfl
  cases x with
  | stop s => exact h
  | reply m s books =>
    rcases h with (⟨_, h⟩ | ⟨_, h⟩ | h | h | h | ⟨_, _, h⟩) | h
    all_goals cases h
  | finish s =>
    rcases h with h | ⟨_, _, h⟩
    · cases h
    · cases h

/-- Only a completed read receives bytes. -/
theorem not_received_of_stepEvent {e : Event} (he : ∀ i b, e ≠ .receive i b) {o : Obs}
    (h : StepEvent srv e o) (b : Bytes) : o ≠ .received b := by
  have hgetter : ∀ p, ¬ GetterEvent srv p (.received b) := by
    rintro p (ho | ⟨ho, -⟩)
    · exact ho
    · cases ho
  rintro rfl
  cases e with
  | receive i c => exact he i c rfl
  | runRead i a =>
    rcases h with ⟨_, _, h⟩ | ⟨_, h⟩ | h | ⟨_, h⟩ | h
    all_goals cases h
  | runTask i a =>
    rcases h with h | ⟨_, h⟩ | ⟨_, h⟩ | ⟨_, h⟩ | ⟨_, h⟩
    · exact hgetter _ h
    all_goals cases h
  | writeSome i n a =>
    rcases h with ⟨_, h⟩ | h
    · cases h
    · exact hgetter _ h
  | writeFails i a => exact hgetter _ h
  | timerExpires => exact h
  | requestShutdown => exact h
  | _ => cases h

/-- Events that are no requests leave the list of the requests alone. -/
theorem parsedOf_append {new t : List Obs} (h : ∀ o ∈ new, ∀ r, o ≠ .parsed r) :
    parsedOf (new ++ t) = parsedOf t := by
  unfold parsedOf
  rw [flatMap_reverse_append]
  refine List.append_right_eq_self.mpr (List.flatMap_eq_nil_iff.mpr ?_)
  intro o ho
  have := h o (List.mem_reverse.mp ho)
  cases o with
  | parsed r => exact absurd rfl (this r)
  | _ => rfl

/-- What was received, behind events that are no bytes. -/
theorem receivedOf_append {new t : List Obs} (h : ∀ o ∈ new, ∀ b, o ≠ .received b) :
    receivedOf (new ++ t) = receivedOf t := by
  unfold receivedOf
  rw [flatMap_reverse_append]
  refine List.append_right_eq_self.mpr (List.flatMap_eq_nil_iff.mpr ?_)
  intro o ho
  have := h o (List.mem_reverse.mp ho)
  cases o with
  | received b => exact absurd rfl (this b)
  | _ => rfl

/-- A trail without parsed requests, -/
theorem Trail.parsedOf {A : Obs → Prop} {s t : AsyncConnection} (h : Trail A s t)
    (hA : ∀ o, A o → ∀ r, o ≠ .parsed r) :
    SmartMet.parsedOf t.world.trace = SmartMet.parsedOf s.world.trace := by
  obtain ⟨new, hnew, hev⟩ := h.events
  rw [hnew, parsedOf_append fun o ho => hA o (hev o ho).1]

/-- and one without received bytes. -/
theorem Trail.receivedOf {A : Obs → Prop} {s t : AsyncConnection} (h : Trail A s t)
    (hA : ∀ o, A o → ∀ b, o ≠ .received b) :
    SmartMet.receivedOf t.world.trace = SmartMet.receivedOf s.world.trace := by
  obtain ⟨new, hnew, hev⟩ := h.events
  rw [hnew, receivedOf_append fun o ho => hA o (hev o ho).1]

/-! ## Handlers and requests -/

/-- Only the last call ends an exchange, -/
theorem not_rearmed_of_stepEvent {e : Event} {o : Obs} (h : StepEvent srv e o) : o ≠ .rearmed := by
  have hgetter : ∀ p, ¬ GetterEvent srv p .rearmed := by
    rintro p (ho | ⟨ho, -⟩)
    · exact ho
    · cases ho
  rintro rfl
  cases e with
  | runRead i a =>
    rcases h with ⟨_, _, h⟩ | ⟨_, h⟩ | h | ⟨_, h⟩ | h
    all_goals cases h
  | runTask i a =>
    rcases h with h | ⟨_, h⟩ | ⟨_, h⟩ | ⟨_, h⟩ | ⟨_, h⟩
    · exact hgetter _ h
    all_goals cases h
  | writeSome i n a =>
    rcases h with ⟨_, h⟩ | h
    · cases h
    · exact hgetter _ h
  | writeFails i a => exact hgetter _ h
  | timerExpires => exact h
  | requestShutdown => exact h
  | _ => cases h

/-- In front of the last call only header sections of a handler's response are
built. -/
theorem rendered_of_stepEvent {e : Event} {m : Message} {r : Response} {head : Bytes}
    (h : StepEvent srv e (.rendered m r head)) : m = .handler := by
  have hreply : ReplyEvent srv (.rendered m r head) → m = .handler := by
    intro h
    cases m with
    | handler => rfl
    | interim => exact absurd h id
    | options => exact absurd h id
    | stock st => exact absurd h id
  have hgetter : ∀ p, GetterEvent srv p (.rendered m r head) → m = .handler := by
    rintro p (h | ⟨h, -⟩)
    · exact hreply h
    · cases h
  cases e with
  | runRead i a =>
    rcases h with ⟨_, _, h⟩ | ⟨_, h⟩ | h | ⟨_, h⟩ | h
    all_goals cases h
  | runTask i a =>
    rcases h with h | ⟨_, h⟩ | ⟨_, h⟩ | ⟨_, h⟩ | ⟨_, h⟩
    · exact hgetter _ h
    all_goals cases h
  | writeSome i n a =>
    rcases h with ⟨_, h⟩ | h
    · cases h
    · exact hgetter _ h
  | writeFails i a => exact hgetter _ h
  | timerExpires => exact absurd h id
  | requestShutdown => exact absurd h id
  | _ => cases h

/-- and it calls no handler. -/
theorem not_dispatched_of_lastEvent {x : Outcome} {o : Obs} (h : LastEvent srv x o)
    (r : Request) : o ≠ .dispatched r := by
  rintro rfl
  cases x with
  | stop s => exact h
  | reply m s books =>
    rcases h with (⟨_, h⟩ | ⟨_, h⟩ | h | h | h | ⟨_, _, h⟩) | h
    all_goals cases h
  | finish s =>
    rcases h with h | ⟨_, _, h⟩
    · cases h
    · cases h

/-- Only a task calls a handler. -/
theorem not_dispatched_of_stepEvent {e : Event} (he : ∀ i a, e ≠ .runTask i a) {o : Obs}
    (h : StepEvent srv e o) (r : Request) : o ≠ .dispatched r := by
  have hgetter : ∀ p, ¬ GetterEvent srv p (.dispatched r) := by
    rintro p (ho | ⟨ho, -⟩)
    · exact ho
    · cases ho
  rintro rfl
  cases e with
  | runTask i a => exact he i a rfl
  | runRead i a =>
    rcases h with ⟨_, _, h⟩ | ⟨_, h⟩ | h | ⟨_, h⟩ | h
    all_goals cases h
  | writeSome i n a =>
    rcases h with ⟨_, h⟩ | h
    · cases h
    · exact hgetter _ h
  | writeFails i a => exact hgetter _ h
  | timerExpires => exact h
  | requestShutdown => exact h
  | _ => cases h

/-- A pool's task belongs to a request that was parsed. -/
theorem Inv.requests_of_task {s : AsyncConnection} (h : Inv srv s) {i : ℕ} {pool : Pool}
    {task : Task} (hi : s.world.outstanding[i]? = some (.task pool task)) :
    s.exchange.requests ≠ [] := by
  obtain ⟨-, -, hph⟩ := h.released srv hi
  have hone : ∀ {t : AsyncConnection}, (∃ r, t.exchange.requests = [r] ∧
      t.itsHeadRequest = decide (r.method = .head)) → t.exchange.requests ≠ [] := by
    rintro t ⟨r, hr, -⟩
    rw [hr]
    simp
  cases task with
  | handleCompletedRead view => exact hone (show Queued srv s.bare from hph).request
  | getNextChunk => exact hone hph.1.request
  | getNextChunkedChunk => exact hone hph.1.request

/-- **No handler without a request.** -/
theorem requests_of_dispatched {s : AsyncConnection} (h : Reachable srv s) {x : Exchange}
    (hx : x ∈ exchanges s.world.trace) (hd : x.dispatched ≠ []) : x.requests ≠ [] := by
  obtain ⟨es, hrun⟩ := h
  let R : Exchange → Prop := fun x => x.dispatched ≠ [] → x.requests ≠ []
  have hquiet : ∀ {o : Obs}, (∀ r, o ≠ .dispatched r) → ∀ x, R x → R (x.observe o) := by
    intro o ho x hx
    cases o with
    | dispatched r => exact absurd rfl (ho r)
    | parsed r => exact fun _ => by simp [Exchange.observe]
    | _ => exact hx
  have htrail : ∀ {A : Obs → Prop} {s t : AsyncConnection}, Trail A s t →
      (∀ o, A o → ∀ r, o ≠ .dispatched r) → (∀ x ∈ exchanges s.world.trace, R x) →
      ∀ x ∈ exchanges t.world.trace, R x := by
    intro A s t ht hA hall
    obtain ⟨new, hnew, hev⟩ := ht.events
    obtain ⟨hc, hp⟩ := exchange_append (R := R) (t := s.world.trace)
      (hall _ (mem_exchanges.mpr (Or.inr rfl))) (fun hd => absurd rfl hd)
      fun o (ho : o ∈ new) _ => hquiet (hA o (hev o ho).1)
    rw [hnew]
    intro x hx
    rcases mem_exchanges.mp hx with hx | rfl
    · rcases hp x hx with hx | hx
      · exact hall x (mem_exchanges.mpr (Or.inl hx))
      · exact hx
    · exact hc
  have hall : Inv srv s ∧ ∀ x ∈ exchanges s.world.trace, R x := by
    refine Transition.run_preserves
      (P := fun s => Inv srv s ∧ ∀ x ∈ exchanges s.world.trace, R x) ?_ ⟨inv_start srv, ?_⟩ hrun
    · rintro u e u' ⟨hinv, hR⟩ hstep
      refine ⟨inv_step srv hinv hstep, ?_⟩
      obtain ⟨o, ho, rfl⟩ := exists_outcome srv hstep
      refine htrail (trail_run srv e.answers o) (fun _ => not_dispatched_of_lastEvent srv) ?_
      have ht := trail_step srv ho
      by_cases he : ∃ i a, e = .runTask i a
      · obtain ⟨i, a, rfl⟩ := he
        have hreq : u.exchange.requests ≠ [] := by
          simp only [Tail.step] at ho
          split at ho
          · rename_i pool task hi
            exact hinv.requests_of_task srv hi
          · cases ho
        -- the request stays while the handler is called
        obtain ⟨new, hnew, hev⟩ := ht.events
        have hcur : ∀ new : List Obs, (∀ o ∈ new, o ≠ .rearmed) →
            (current (new ++ u.world.trace)).requests ≠ [] ∧
              past (new ++ u.world.trace) = past u.world.trace := by
          intro new
          induction new with
          | nil => exact fun _ => ⟨hreq, rfl⟩
          | cons o new ih =>
            intro hne
            obtain ⟨ho, hne⟩ := List.forall_mem_cons.mp hne
            obtain ⟨hr, hp⟩ := ih hne
            rw [List.cons_append, current_cons ho, past_cons ho]
            refine ⟨?_, hp⟩
            cases o with
            | parsed r => simp [Exchange.observe]
            | _ => exact hr
        obtain ⟨hr, hp⟩ := hcur new fun o ho => not_rearmed_of_stepEvent srv (hev o ho).1
        rw [hnew]
        intro y hy
        rcases mem_exchanges.mp hy with hy | rfl
        · rw [hp] at hy
          exact hR y (mem_exchanges.mpr (Or.inl hy))
        · exact fun _ => hr
      · exact htrail ht
          (fun _ => not_dispatched_of_stepEvent srv fun i a h => he ⟨i, a, h⟩) hR
    · intro y hy
      rw [start_trace] at hy
      obtain rfl : y = {} := List.mem_singleton.mp hy
      exact fun hd => absurd rfl hd
  exact hall.2 x hx hd

end AsyncConnection

end SmartMet
