/-
# Firings of the timer

What a call of `handleTimer` may do, with the threads of the connection anywhere
in their handlers: an obsolete firing does nothing, one that counts closes the
socket, silently or with a 408.

A 408 is to come only in front of any other response to the request.  The timer
that was armed for a request is cancelled by `handleCompletedRead` alone, so a
reply that needs no handler is written, and the connection re-armed behind it,
while that timer still runs.
-/
import SmartMetServer.Timers
import SmartMetServer.MinimalSpine

namespace SmartMet

open AsyncConnection

/-- A thread in a plugin, or behind a write of its response. -/
def Rest.Answers : Rest → Prop
  | .callHandler _ => True
  | .inHandler _ => True
  | .written _ _ _ _ => True
  | _ => False

namespace Threads

/-- A run of the threads of the server, computed. -/
theorem reached (es : List ThreadEvent) (P : Threads → Bool)
    (h : (runFrom MinimalSpine.server (start MinimalSpine.server) es).any P = true) :
    ∃ s, runFrom MinimalSpine.server (start MinimalSpine.server) es = some s ∧ P s = true := by
  rwa [Option.any_eq_true] at h

variable {srv : Server}

/-! ## Obsolete firings -/

/-- An idle connection: a response was finished, nothing is buffered, and no byte
of the next request was gone about. -/
def Idle (s : Threads) : Prop :=
  past s.conn.world.trace ≠ [] ∧ s.conn.itsBuffer = [] ∧ s.engaged = false

/-- A firing that acts belongs to the timer as it is armed now. -/
theorem Shared.armed_of_acts {c : AsyncConnection} {armed : Option ℕ} {engaged : Bool}
    (h : Shared c armed engaged) {generation : ℕ} (ha : Acts c generation) :
    armed = some generation := by
  obtain ⟨rfl, w, hw, -⟩ := ha
  obtain ⟨hmem, hgen, -⟩ := readyWait_spec hw
  cases harmed : armed with
  | none =>
    have := h.cancelled harmed w hmem
    omega
  | some g => rw [h.latest g harmed]

/-- The stamp of the timer as it is armed now is the last arming's, and no earlier
one has it. -/
theorem Shared.latest_arming {c : AsyncConnection} {armed : Option ℕ} {engaged : Bool}
    (h : Shared c armed engaged) {generation : ℕ} (harmed : armed = some generation) :
    ∃ earlier, armings c.world.trace = generation :: earlier ∧ generation ∉ earlier := by
  obtain ⟨earlier, hstamps⟩ := List.head?_eq_some_iff.mp (h.numbered.latest _ harmed)
  refine ⟨earlier, hstamps, fun hmem => ?_⟩
  have hdec := h.numbered.decreasing
  rw [hstamps] at hdec
  exact absurd (List.rel_of_pairwise_cons hdec hmem) (lt_irrefl generation)

/-- While a handler is called or its response is written the timer is cancelled. -/
theorem Inv.cancelled_of_answers {s : Threads} (h : Inv s)
    (ha : (∃ r ∈ s.running, r.Answers) ∨ ∃ y ∈ s.conn.world.outstanding, y.Answers) :
    s.armed = none := by
  obtain ⟨hs, hpos⟩ := h
  rcases hpos with ⟨hr, ho, -⟩ | ⟨r, hr, ho, hat⟩ | ⟨y, hr, ho, hd⟩
  · rw [hr, ho] at ha
    simp at ha
  · obtain ⟨q, hq, hans⟩ : ∃ q ∈ s.running, q.Answers := ha.resolve_right (by rw [ho]; simp)
    rw [hr] at hq
    obtain rfl := List.mem_singleton.mp hq
    cases q with
    | callHandler a => exact hat
    | inHandler a => exact hs.busy hat
    | written handler e n a => exact hs.busy hat
    | _ => exact absurd hans id
  · obtain ⟨q, hq, hans⟩ : ∃ q ∈ s.conn.world.outstanding, q.Answers :=
      ha.resolve_left (by rw [hr]; simp)
    rw [ho] at hq
    obtain rfl := List.mem_singleton.mp hq
    rcases q with _ | _ | bytes | ⟨pool, _ | _ | _⟩ | ⟨handler, buffer⟩
    · exact absurd hans id
    · exact absurd hans id
    · exact absurd hans id
    · exact absurd hans id
    · exact hs.busy hd
    · exact hs.busy hd
    · exact hs.busy hd

/-- A firing that has an effect: its stamp is that of the most recent arming and of
no earlier one, nothing has cancelled the timer since, no handler has been called for
the request, and the socket is closed: silently on an idle connection, else behind one
408. -/
structure Fires (srv : Server) (s : Threads) (generation : ℕ) (t : Threads) : Prop where
  latest : ∃ earlier, armings s.conn.world.trace = generation :: earlier ∧
    generation ∉ earlier
  armed : s.armed = some generation
  undispatched : s.conn.exchange.dispatched = []
  running : ∀ r ∈ s.running, ¬ r.Answers
  outstanding : ∀ y ∈ s.conn.world.outstanding, ¬ y.Answers
  closed : t.conn.world.socket = .closed
  silent : t.conn.world.trace = .closed :: s.conn.world.trace ↔ Idle s
  answered : ¬ Idle s → ∃ r extra f,
    r.status = some Status.requestTimeout ∧
    t.conn.exchange =
      s.conn.exchange.reply (.stock .requestTimeout) r (srv.spine.headerSection r) extra f ∧
    Sends (.stock .requestTimeout) (srv.spine.headerSection r ++ r.getContent) s.conn.world extra f

/-- **Stale firings are inert.**  The handler of a wait, called at any point of any
run of the threads, takes the wait out and nothing else, or it fires. -/
theorem stale_firing_inert {s t : Threads} {es : List ThreadEvent} {generation : ℕ} {a : Answers}
    (hrun : runFrom srv (start srv) es = some s)
    (hstep : step srv s (.handler (.runTimer generation a)) = some t) :
    (∃ w, t = s.leave (taken s.conn w)) ∨ Fires srv s generation t := by
  have hinv := inv_run hrun
  obtain ⟨c', hc', rfl⟩ := Option.map_eq_some_iff.mp
    (show (AsyncConnection.step srv s.conn (.runTimer generation a)).map s.leave = some t from hstep)
  rcases runTimer_cases hc' with ⟨w, -, -, rfl⟩ | ⟨hacts, hexp, hb⟩
  · exact Or.inl ⟨w, rfl⟩
  refine Or.inr ?_
  have harmed := hinv.1.armed_of_acts hacts
  -- the firing acts, so its stamp is that of the last arming, and nothing has cancelled it
  have hne : s.armed ≠ none := by
    rw [harmed]
    simp
  have hidle : s.conn.itsIdle = true ↔ Idle s := hinv.1.idle
  refine ⟨hinv.1.latest_arming harmed, harmed, not_not.mp fun hd => hne (hinv.1.busy hd),
    fun r hr hans => hne (hinv.cancelled_of_answers (Or.inl ⟨r, hr, hans⟩)),
    fun y hy hans => hne (hinv.cancelled_of_answers (Or.inr ⟨y, hy, hans⟩)),
    hexp.socket, ⟨fun htrace => ?_, fun h => hexp.silent (hidle.mpr h)⟩, fun h => ?_⟩
  · -- a 408 would stand in the exchange
    by_contra hnot
    obtain ⟨r, extra, f, -, hx, -⟩ :=
      hexp.answered (by simpa using fun h => hnot (hidle.mp h))
    have hheads := congrArg Exchange.heads hx
    have hsame : c'.exchange = s.conn.exchange := by
      unfold AsyncConnection.exchange
      rw [show c'.world.trace = _ from htrace]
      rfl
    rw [hsame] at hheads
    simp [Exchange.reply] at hheads
  · exact hexp.answered (by simpa using fun hi => h (hidle.mp hi))

/-- The timer runs out before a byte has arrived. -/
def silentClient : List ThreadEvent := [.go 0, .handler .timerExpires]

theorem stale_firing_inert_first :
    ∃ s t, runFrom MinimalSpine.server (start MinimalSpine.server) silentClient = some s ∧
      step MinimalSpine.server s (.handler (.runTimer 1 MinimalSpine.answers)) = some t ∧
      Fires MinimalSpine.server s 1 t := by
  obtain ⟨s, hs, hp⟩ := reached silentClient (fun s => s.conn.world.socket == .open &&
    (step MinimalSpine.server s (.handler (.runTimer 1 MinimalSpine.answers))).any fun t =>
      t.conn.world.socket == .closed) (by decide +kernel)
  simp only [Bool.and_eq_true, beq_iff_eq, Option.any_eq_true] at hp
  obtain ⟨hopen, t, ht, hclosed⟩ := hp
  refine ⟨s, t, hs, ht, (stale_firing_inert hs ht).resolve_left ?_⟩
  rintro ⟨w, rfl⟩
  cases hopen.symm.trans hclosed

/-! ## Responses that are not followed by a 408 -/

/-- A firing answers with a 408: some of it is sent. -/
def SendsTimeout (s t : Threads) : Prop :=
  ∃ p ∈ t.conn.exchange.wire.drop s.conn.exchange.wire.length, p.1 = .stock .requestTimeout

/-- A thread behind the first write of a reply of the server's own. -/
def behind : Rest → Bool
  | .content _ _ _ _ => true
  | .settle _ => true
  | .finish _ => true
  | .armNext _ => true
  | _ => false

/-- The server's own reply has begun, and the timer was not armed again since: a
thread is on its way to do so, or has left the connection open though the reply said
that it persists. -/
def Overtaken (s : Threads) : Prop :=
  (∃ r ∈ s.running, behind r = true) ∨
    s.running = [] ∧ s.conn.world.outstanding = [] ∧ s.conn.itsKeepAlive = true

/-- A timer expiry counts while the server's own reply is under way, on an open
socket and a connection that is not idle. -/
def FiresBehind (s : Threads) : ThreadEvent → Prop
  | .handler (.runTimer generation _) =>
    Acts s.conn generation ∧ s.conn.itsIdle = false ∧ s.conn.world.socket = .open ∧ Overtaken s
  | _ => False

instance (s : Threads) (e : ThreadEvent) : Decidable (FiresBehind s e) :=
  match e with
  | .handler (.runTimer generation _) => inferInstanceAs (Decidable (Acts s.conn generation ∧
      s.conn.itsIdle = false ∧ s.conn.world.socket = .open ∧ (_ ∨ _)))
  | .handler (.handshake _ _) => inferInstanceAs (Decidable False)
  | .handler (.receive _ _) => inferInstanceAs (Decidable False)
  | .handler (.readFails _ _ _) => inferInstanceAs (Decidable False)
  | .handler (.runRead _ _) => inferInstanceAs (Decidable False)
  | .handler (.runTask _ _) => inferInstanceAs (Decidable False)
  | .handler (.writeSome _ _ _) => inferInstanceAs (Decidable False)
  | .handler (.writeFails _ _) => inferInstanceAs (Decidable False)
  | .handler .timerExpires => inferInstanceAs (Decidable False)
  | .handler .requestShutdown => inferInstanceAs (Decidable False)
  | .go _ => inferInstanceAs (Decidable False)

/-- A 408 of the timer comes in front of every final response to the request, and
of every one since the timer was armed. -/
def TimeoutFirst (srv : Server) (s : Threads) (e : ThreadEvent) : Prop :=
  ∀ generation a t, e = .handler (.runTimer generation a) → step srv s e = some t →
    SendsTimeout s t → begun s.conn.world.trace = false ∧ s.conn.exchange.Unspoken

/-- Where a firing counts and no reply has been overtaken, nothing has begun. -/
theorem Inv.unspoken_of_acts {s : Threads} (h : Inv s) {generation : ℕ}
    (ha : Acts s.conn generation) (hsock : s.conn.world.socket = .open) (hno : ¬ Overtaken s) :
    begun s.conn.world.trace = false ∧ s.conn.exchange.Unspoken := by
  have harmed : s.armed ≠ none := by
    rw [h.1.armed_of_acts ha]
    simp
  have hopen : s.conn.world.socket ≠ .closed := by
    rw [hsock]
    simp
  have hquiet : Quiet s.conn s.armed → begun s.conn.world.trace = false := by
    intro hq
    cases hb : begun s.conn.world.trace with
    | false => rfl
    | true => exact absurd (hq hb) (by rintro (h | h); exacts [hopen h, harmed h])
  have hbusy : ¬ s.conn.exchange.dispatched ≠ [] := fun hd => harmed (h.1.busy hd)
  have hbegun : begun s.conn.world.trace = false := by
    rcases h.2 with ⟨hr, ho, hset⟩ | ⟨r, hr, ho, hat⟩ | ⟨y, hr, ho, hd⟩
    · refine hquiet (hset.resolve_right fun hk => hno (Or.inr ⟨hr, ho, hk⟩))
    · have hnot : ¬ behind r = true := fun hb => hno (Or.inl ⟨r, by rw [hr]; simp, hb⟩)
      cases r with
      | beginReading => exact hquiet (Attentive.quiet hat)
      | armForRequest bytes a => exact hquiet hat.1.quiet
      | readBytes bytes a => exact hquiet hat.1.quiet
      | callHandler a => exact absurd hat harmed
      | inHandler a => exact absurd hat hbusy
      | written handler e n a => exact absurd hat hbusy
      | head m books a => exact hquiet hat
      | content m bytes books a => exact absurd rfl hnot
      | settle books => exact absurd rfl hnot
      | finish books => exact absurd rfl hnot
      | armNext books => exact absurd rfl hnot
      | resume books => exact hquiet (Attentive.quiet hat)
    · rcases y with _ | _ | bytes | ⟨pool, _ | _ | _⟩ | ⟨handler, buffer⟩
      · exact hquiet (Attentive.quiet hd)
      · exact hquiet (Attentive.quiet hd)
      · exact hquiet (Attentive.quiet hd)
      · exact hquiet hd
      · exact absurd hd hbusy
      · exact absurd hd hbusy
      · exact absurd hd hbusy
  exact ⟨hbegun, ((h.1.unspoken hbegun).resolve_left harmed).resolve_left hopen⟩

/-- What a firing sends it sends on an open socket, and not on an idle
connection. -/
theorem acts_of_sends {s t : Threads} {generation : ℕ} {a : Answers}
    (hstep : step srv s (.handler (.runTimer generation a)) = some t) (hsends : SendsTimeout s t) :
    Acts s.conn generation ∧ s.conn.itsIdle = false ∧ s.conn.world.socket = .open := by
  obtain ⟨c', hc', rfl⟩ := Option.map_eq_some_iff.mp
    (show (AsyncConnection.step srv s.conn (.runTimer generation a)).map s.leave = some t from hstep)
  obtain ⟨p, hmem, -⟩ := hsends
  have hne : c'.exchange.wire ≠ s.conn.exchange.wire := by
    intro heq
    rw [show (s.leave c').conn.exchange.wire = _ from heq, List.drop_length] at hmem
    cases hmem
  rcases runTimer_cases hc' with ⟨w, -, -, rfl⟩ | ⟨hacts, hexp, -⟩
  · exact absurd rfl hne
  refine ⟨hacts, ?_⟩
  cases hidle : s.conn.itsIdle with
  | true =>
    refine absurd ?_ hne
    unfold AsyncConnection.exchange
    rw [hexp.silent hidle]
    rfl
  | false =>
    refine ⟨rfl, ?_⟩
    obtain ⟨r, extra', f, -, hx, hs⟩ := hexp.answered hidle
    by_contra hsock
    rw [hx, hs.socket hsock] at hne
    exact hne (List.append_nil _)

/-- **No 408 behind a response**, in every run in which no timer expiry counts
while the server's own reply is under way. -/
theorem timeout_first {es : List ThreadEvent}
    (hG : Transition.Along (step srv) (fun s e => ¬ FiresBehind s e) (start srv) es) :
    Transition.Along (step srv) (TimeoutFirst srv) (start srv) es := by
  refine Transition.along_of_preserves (P := Inv) (fun _ _ _ h _ hstep => h.step hstep) ?_
    (inv_start srv) hG
  rintro s e hinv hno generation a t rfl hstep hsends
  -- a firing that answers has the present stamp, of a connection that is not idle
  obtain ⟨hacts, hidle, hsock⟩ := acts_of_sends hstep hsends
  exact hinv.unspoken_of_acts hacts hsock fun ho => hno ⟨hacts, hidle, hsock, ho⟩

/-- The expiry of `silentClient` is answered with a 408. -/
theorem sends_silentClient : ∃ s t,
    runFrom MinimalSpine.server (start MinimalSpine.server) silentClient = some s ∧
      step MinimalSpine.server s (.handler (.runTimer 1 MinimalSpine.answers)) = some t ∧
      SendsTimeout s t := by
  obtain ⟨s, hs, hp⟩ := reached silentClient (fun s =>
    (step MinimalSpine.server s (.handler (.runTimer 1 MinimalSpine.answers))).any fun t =>
      (t.conn.exchange.wire.drop s.conn.exchange.wire.length).any fun p =>
        p.1 == .stock .requestTimeout) (by decide +kernel)
  obtain ⟨t, ht, hp⟩ := (Option.any_eq_true _ _).mp hp
  obtain ⟨p, hmem, hp⟩ := List.any_eq_true.mp hp
  exact ⟨s, t, hs, ht, p, hmem, beq_iff_eq.mp hp⟩

theorem timeout_first_silent : ∃ s t,
    runFrom MinimalSpine.server (start MinimalSpine.server) silentClient = some s ∧
      step MinimalSpine.server s (.handler (.runTimer 1 MinimalSpine.answers)) = some t ∧
      SendsTimeout s t ∧ begun s.conn.world.trace = false := by
  obtain ⟨s, t, hs, ht, hsends⟩ := sends_silentClient
  have hG : Transition.Along (step MinimalSpine.server) (fun s e => ¬ FiresBehind s e)
      (start MinimalSpine.server)
      (silentClient ++ [.handler (.runTimer 1 MinimalSpine.answers)]) := by decide +kernel
  exact ⟨s, t, hs, ht, hsends,
    (Transition.along_last (timeout_first hG) hs 1 MinimalSpine.answers t rfl ht hsends).1⟩

/-- The timer of a request runs out; its handler is called when the header section
of a persistent 404 has been written. -/
def notFoundRun : List ThreadEvent :=
  [.go 0, .handler (.receive 0 "GET /a HTTP/1.1\r\nHost: h\r\n\r\n".toList),
    .handler .timerExpires, .handler (.runRead 0 MinimalSpine.answers), .go 0, .go 0]

/-- **A 408 behind a 404** that was announced as persistent. -/
theorem timeout_behind_notFound :
    ¬ Transition.Along (step MinimalSpine.server) (TimeoutFirst MinimalSpine.server)
      (start MinimalSpine.server)
      (notFoundRun ++ [.handler (.runTimer 1 MinimalSpine.answers)]) := by
  intro h
  obtain ⟨s, hs, hp⟩ := reached notFoundRun (fun s => begun s.conn.world.trace &&
    (step MinimalSpine.server s (.handler (.runTimer 1 MinimalSpine.answers))).any fun t =>
      (t.conn.exchange.wire.drop s.conn.exchange.wire.length).any fun p =>
        p.1 == .stock .requestTimeout) (by decide +kernel)
  rw [Bool.and_eq_true, Option.any_eq_true] at hp
  obtain ⟨hbegun, t, ht, hp⟩ := hp
  obtain ⟨p, hmem, hp⟩ := List.any_eq_true.mp hp
  have hfirst := (Transition.along_last h hs 1 MinimalSpine.answers t rfl ht
    ⟨p, hmem, beq_iff_eq.mp hp⟩).1
  rw [hbegun] at hfirst
  cases hfirst

end Threads

end SmartMet
