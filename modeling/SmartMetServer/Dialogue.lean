/-
# The dialogue of a connection

What a connection is for, told by its trace alone: it takes one request at a time from
the front of what the client has sent, gives it to a handler at most once, sends what
the handler has answered or a reply of its own, and only behind bytes of that response,
or behind a write that has failed, looks for the next one.  `Dialogue` accepts the traces
that do so; it knows nothing of timers, pools and threads.

* `Floor.step`, `Delivery.step` : what may happen, and whose turn it is then; how far
  the response has come;
* `Keeps` : where the floor and its connection stand together;
* `Proceeds.run` : the last call of a completion handler goes on with the dialogue.
-/
import SmartMetServer.Rearming

namespace SmartMet

open StreamFraming

/-! ## The protocol -/

/-- Whose turn it is. -/
inductive Turn where
  /-- The client sends a request. -/
  | reading
  /-- A request was taken. -/
  | taken
  /-- Its handler was called. -/
  | serving
  /-- The server answers it with a reply of its own. -/
  | answering (m : Message)
  /-- The server takes its leave of a client whose request it does not take. -/
  | parting (m : Message)
  | closed
  deriving DecidableEq

namespace Turn

/-- Bytes of a message are sent. -/
def write : Turn → Message → Option Turn
  | reading, .interim => some reading
  | reading, .stock status => some (parting (.stock status))
  | taken, .options => some (answering .options)
  | taken, .stock status => some (answering (.stock status))
  | serving, .handler => some serving
  | serving, .stock status => some (answering (.stock status))
  | answering m, m' => if m = m' then some (answering m) else none
  | parting m, m' => if m = m' then some (parting m) else none
  | _, _ => none

/-- A request was taken, and its response is to come or under way. -/
def owes : Turn → Bool
  | taken => true
  | serving => true
  | answering _ => true
  | _ => false

/-- A reply of the server's own has begun. -/
def replies : Turn → Bool
  | answering _ => true
  | parting _ => true
  | _ => false

/-- Sending leaves the turn as it is, or begins a reply of the server's own. -/
theorem write_cases {t u : Turn} {m : Message} (h : t.write m = some u) :
    t ≠ closed ∧
      (u = t ∨ t.owes = true ∧ u = answering m ∨ t = reading ∧ u = parting m) := by
  unfold write at h
  split at h
  · exact ⟨by simp, Or.inl (Option.some.inj h).symm⟩
  · exact ⟨by simp, Or.inr (Or.inr ⟨rfl, (Option.some.inj h).symm⟩)⟩
  · exact ⟨by simp, Or.inr (Or.inl ⟨rfl, (Option.some.inj h).symm⟩)⟩
  · exact ⟨by simp, Or.inr (Or.inl ⟨rfl, (Option.some.inj h).symm⟩)⟩
  · exact ⟨by simp, Or.inl (Option.some.inj h).symm⟩
  · exact ⟨by simp, Or.inr (Or.inl ⟨rfl, (Option.some.inj h).symm⟩)⟩
  · split at h
    · exact ⟨by simp, Or.inl (Option.some.inj h).symm⟩
    · cases h
  · split at h
    · exact ⟨by simp, Or.inl (Option.some.inj h).symm⟩
    · cases h
  · cases h

/-- A message goes on as it has begun. -/
theorem write_again {t u : Turn} {m : Message} (h : t.write m = some u) : u.write m = some u := by
  rcases (write_cases h).2 with rfl | ⟨-, rfl⟩ | ⟨-, rfl⟩
  · exact h
  · exact if_pos rfl
  · exact if_pos rfl

/-- A response that was owed is owed behind a write too. -/
theorem write_owes {t u : Turn} {m : Message} (h : t.write m = some u) (ht : t.owes = true) :
    u.owes = true := by
  rcases (write_cases h).2 with rfl | ⟨-, rfl⟩ | ⟨rfl, -⟩
  · exact ht
  · rfl
  · cases ht

/-- Who writes has not closed. -/
theorem write_open {t u : Turn} {m : Message} (h : t.write m = some u) : u ≠ closed := by
  obtain ⟨hopen, rfl | ⟨-, rfl⟩ | ⟨-, rfl⟩⟩ := write_cases h
  · exact hopen
  · simp
  · simp

/-- A page of the server may be sent while the connection is open and no reply has begun. -/
theorem write_stock {t : Turn} (hopen : t ≠ closed) (hreply : t.replies = false)
    (status : Status) : (t.write (.stock status)).isSome = true := by
  cases t with
  | closed => exact absurd rfl hopen
  | answering m => cases hreply
  | parting m => cases hreply
  | _ => rfl

end Turn

/-- Whose turn it is in a dialogue with a client. -/
structure Floor where
  turn : Turn := .reading
  /-- What the client has sent, as far as no request was taken from it. -/
  unread : Bytes := []
  deriving DecidableEq

/-- The events of a dialogue.  What had arrived before the connection was closed may
still be looked at; the events left over are the server's own affairs. -/
def Floor.step (parse : Bytes → Parsed Request) (d : Floor) : Obs → Option Floor
  | .received b =>
    if d.turn = .reading then some { d with unread := d.unread ++ b } else none
  | .parsed r =>
    match parse d.unread with
    | .complete r' n =>
      if r = r' then
        match d.turn with
        | .reading => some { turn := .taken, unread := d.unread.drop n }
        | .closed => some { turn := .closed, unread := d.unread.drop n }
        | _ => none
      else none
    | _ => none
  | .clientStarted _ => if d.turn = .taken then some d else none
  | .dispatched _ => if d.turn = .taken then some { d with turn := .serving } else none
  | .handled _ => if d.turn = .serving then some d else none
  | .started _ => if d.turn = .serving then some d else none
  | .chunk _ _ => if d.turn = .serving then some d else none
  | .streamEnded _ _ => if d.turn = .serving then some d else none
  | .refused => if d.turn = .serving then some d else none
  | .wrote m _ => (d.turn.write m).map fun t => { d with turn := t }
  | .rearmed => if d.turn.owes then some { d with turn := .reading } else none
  | .closed => some { d with turn := .closed }
  | _ => some d

/-- A request is taken from the front of what is unread. -/
theorem Floor.step_parsed {parse : Bytes → Parsed Request} {d : Floor} {r : Request} {n : ℕ}
    {τ : Turn} (h : parse d.unread = .complete r n)
    (hτ : d.turn = .reading ∧ τ = .taken ∨ d.turn = .closed ∧ τ = .closed) :
    Floor.step parse d (.parsed r) = some { turn := τ, unread := d.unread.drop n } := by
  simp only [Floor.step, h, if_true]
  rcases hτ with ⟨hd, rfl⟩ | ⟨hd, rfl⟩
  · rw [hd]
  · rw [hd]

/-- How far the response to a request has come. -/
inductive Delivery where
  /-- Nothing of it was sent. -/
  | due
  /-- Bytes of it were sent. -/
  | begun
  /-- A write has failed before any of them. -/
  | lost
  deriving DecidableEq

/-- The events that tell of a response: bytes that are not those of an interim one, and
writes that fail.  The next request is not looked for while the response is due. -/
def Delivery.step (d : Delivery) : Obs → Option Delivery
  | .wrote m b => some (if m = .interim ∨ b = [] then d else .begun)
  | .writeError _ => some (if d = .due then .lost else d)
  | .rearmed => if d = .due then none else some .due
  | _ => some d

/-- A dialogue with a client. -/
abbrev Dialogue := Floor × Delivery

/-- A dialogue at its start. -/
def Dialogue.start : Dialogue := ({}, .due)

/-- What may happen in a dialogue. -/
def Dialogue.step (parse : Bytes → Parsed Request) : Dialogue → Obs → Option Dialogue :=
  Transition.both (Floor.step parse) Delivery.step

/-- How far the response of an exchange has come. -/
def Exchange.delivery (x : Exchange) : Delivery :=
  if x.out = [] then if x.failed then .lost else .due else .begun

/-- A response is due when nothing of it was sent and no write has failed. -/
theorem Exchange.delivery_eq_due {x : Exchange} :
    x.delivery = .due ↔ x.out = [] ∧ x.failed = false := by
  unfold Exchange.delivery
  by_cases ho : x.out = []
  · cases hf : x.failed with
    | true => simp [ho]
    | false => simp [ho]
  · simp [ho]

/-- One more event of an exchange. -/
theorem Delivery.step_observe (x : Exchange) {o : Obs} (ho : o ≠ .rearmed) :
    Delivery.step x.delivery o = some (x.observe o).delivery := by
  cases o with
  | rearmed => exact absurd rfl ho
  | wrote m b =>
    have hout : (x.observe (.wrote m b)).out = x.out ++ if m = .interim then [] else b := by
      show (x.wire ++ [(m, b)]).flatMap _ = _
      rw [List.flatMap_append, List.flatMap_singleton]
      rfl
    refine congrArg some ?_
    unfold Exchange.delivery
    rw [hout]
    by_cases hb : m = .interim ∨ b = []
    · have hnone : (if m = .interim then ([] : Bytes) else b) = [] := by
        rcases hb with hm | hb
        · exact if_pos hm
        · rw [hb, ite_self]
      rw [if_pos hb, hnone, List.append_nil]
      rfl
    · obtain ⟨hm, hb'⟩ := not_or.mp hb
      rw [if_neg hb, if_neg hm, if_neg fun h => hb' (List.append_eq_nil_iff.mp h).2]
  | writeError m =>
    refine congrArg some ?_
    unfold Exchange.delivery
    show _ = if x.out = [] then Delivery.lost else .begun
    by_cases hout : x.out = []
    · cases hf : x.failed with
      | true => simp [hout]
      | false => simp [hout]
    · simp [hout]
  | _ => rfl

/-- Where no exchange before was left with its response due, the deliveries are those of a
dialogue. -/
theorem Delivery.run_trace {t : List Obs} (h : ∀ x ∈ past t, x.delivery ≠ .due) :
    Transition.run Delivery.step .due t.reverse = some (current t).delivery := by
  induction t with
  | nil => rfl
  | cons o t ih =>
    rw [List.reverse_cons]
    by_cases ho : o = .rearmed
    · subst ho
      refine Transition.run_append (ih fun x hx => h x (List.mem_cons_of_mem _ hx)) ?_
      refine Transition.run_cons.mpr ⟨.due, ?_, rfl⟩
      exact if_neg (h (current t) List.mem_cons_self)
    · rw [past_cons ho] at h
      refine Transition.run_append (ih h) (Transition.run_cons.mpr ⟨_, ?_, rfl⟩)
      rw [current_cons ho]
      exact Delivery.step_observe _ ho

/-- The turn in which an activity is outstanding. -/
def Activity.turn : Activity → Turn
  | .handshake => .reading
  | .read => .reading
  | .handleRead _ => .reading
  | .task _ (.handleCompletedRead _) => .taken
  | .task _ _ => .serving
  | .write _ _ => .serving

namespace AsyncConnection

/-- Where a dialogue and its connection stand together. -/
structure Keeps (d : Floor) (s : AsyncConnection) : Prop where
  closed : d.turn = .closed ↔ s.world.socket = .closed
  unread : s.world.outstanding ≠ [] → d.unread = s.held
  turn : s.world.socket ≠ .closed → ∀ y ∈ s.world.outstanding, d.turn = y.turn
  serving : ∀ y ∈ s.world.outstanding, y.turn = .serving → s.world.socket ≠ .closed
  replied : d.turn.replies = true → s.exchange.heads ≠ []

variable (srv : Server)

/-- The events from `s` to `t` lead the dialogue from `d` to `d'`. -/
def Leads (d d' : Floor) (s t : AsyncConnection) : Prop :=
  ∃ new, t.world.trace = new ++ s.world.trace ∧
    Transition.run (Floor.step srv.spine.parseOneRequest) d new.reverse = some d'

/-- The code from `s` to `t` goes on with the dialogue. -/
def Continues (d : Floor) (s t : AsyncConnection) : Prop := ∃ d', Leads srv d d' s t ∧ Keeps d' t

section Leads

variable {srv} {d d' d'' : Floor} {s t u : AsyncConnection}

/-- Nothing is recorded. -/
theorem Leads.silent (h : t.world.trace = s.world.trace) : Leads srv d d s t := ⟨[], h, rfl⟩

/-- Two parts in a row. -/
theorem Leads.trans (h : Leads srv d d' s t) (h' : Leads srv d' d'' t u) : Leads srv d d'' s u := by
  obtain ⟨n, hn, hrun⟩ := h
  obtain ⟨n', hn', hrun'⟩ := h'
  refine ⟨n' ++ n, by rw [hn', hn, List.append_assoc], ?_⟩
  rw [List.reverse_append]
  exact Transition.run_append hrun hrun'

/-- One event. -/
theorem Leads.emit {o : Obs} (h : Floor.step srv.spine.parseOneRequest d o = some d')
    (s : AsyncConnection) : Leads srv d d' s (s.emit o) :=
  ⟨[o], rfl, Transition.run_cons.mpr ⟨d', h, rfl⟩⟩

/-- Events that leave it to the same side. -/
theorem Leads.of_trail {A : Obs → Prop} (h : Trail A s t)
    (hA : ∀ o, A o → Floor.step srv.spine.parseOneRequest d o = some d) : Leads srv d d s t := by
  obtain ⟨new, hnew, hall⟩ := h.events
  refine ⟨new, hnew, Transition.run_of_fixed fun o ho => hA o (hall o ?_).1⟩
  exact List.mem_reverse.mp ho

/-- What leads to a state that goes on goes on. -/
theorem Leads.continues (h : Leads srv d d' s t) (h' : Continues srv d' t u) :
    Continues srv d s u := by
  obtain ⟨e, he, hk⟩ := h'
  exact ⟨e, h.trans he, hk⟩

end Leads

/-! ## The last call -/

section Last

variable {srv} {d : Floor} {s : AsyncConnection}

/-- The dialogue allows bytes of this message, unless nothing can be sent any more. -/
structure MaySend (m : Message) (d : Floor) (s : AsyncConnection) : Prop where
  closed : d.turn = .closed ↔ s.world.socket = .closed
  message : d.turn = .closed ∨ (d.turn.write m).isSome = true

/-- A blocking write of a message that may be sent. -/
theorem leads_write (srv : Server) {m : Message} (h : MaySend m d s) (b : Bytes)
    (o : WriteOutcome) :
    ∃ d', Leads srv d d' s (write m b o s) ∧ MaySend m d' (write m b o s) ∧
      d'.unread = d.unread ∧ (d'.turn = d.turn ∨ d.turn.write m = some d'.turn) := by
  have herr : ∀ u : AsyncConnection, Leads srv d d u (u.emit (.writeError m)) := fun u =>
    Leads.emit rfl u
  -- bytes that go out
  have hwrote : s.world.socket = .open → ∀ c, ∃ d', Leads srv d d' s (s.emit (.wrote m c)) ∧
      d'.turn ≠ .closed ∧ (d'.turn.write m).isSome = true ∧ d'.unread = d.unread ∧
      d.turn.write m = some d'.turn := by
    intro hs c
    have hopen : d.turn ≠ .closed := fun hc => by
      rw [h.closed.mp hc] at hs
      cases hs
    obtain ⟨t, ht⟩ := Option.isSome_iff_exists.mp (h.message.resolve_left hopen)
    refine ⟨{ d with turn := t }, Leads.emit ?_ s, Turn.write_open ht, ?_, rfl, ht⟩
    · show (d.turn.write m).map _ = _
      rw [ht]
      rfl
    · show (t.write m).isSome = true
      rw [Turn.write_again ht]
      rfl
  unfold write
  rcases s.world.write_cases m b o with ⟨-, -, hw⟩ | ⟨-, hs, hw⟩ | ⟨-, hs, n, hw⟩ | ⟨-, -, hw⟩
  · rw [hw]
    exact ⟨d, Leads.silent rfl, h, rfl, Or.inl rfl⟩
  · rw [hw]
    obtain ⟨d', hleads, hopen, hmay, hunread, hturn⟩ := hwrote hs b
    refine ⟨d', hleads, ⟨⟨fun hc => absurd hc hopen, fun hc => ?_⟩, Or.inr hmay⟩, hunread,
      Or.inr hturn⟩
    have hc' : s.world.socket = .closed := hc
    rw [hs] at hc'
    cases hc'
  · rw [hw]
    obtain ⟨d', hleads, hopen, hmay, hunread, hturn⟩ := hwrote hs (b.dropLast.take n)
    refine ⟨d', (hleads.trans (Leads.emit rfl _)).trans (Leads.silent rfl),
      ⟨⟨fun hc => absurd hc hopen, fun hc => ?_⟩, Or.inr hmay⟩, hunread, Or.inr hturn⟩
    cases hc
  · rw [hw]
    exact ⟨d, herr s, ⟨h.closed, h.message⟩, rfl, Or.inl rfl⟩

/-- A response was given: the connection is re-armed, or left as it is. -/
theorem continues_finishResponse (hk : Keeps d s) (ho : s.world.outstanding = [])
    (hre : s.itsKeepAlive = true → d.turn.owes = true ∧ d.unread = s.itsBuffer) :
    Continues srv d s (finishResponse srv s) := by
  have hheld := held_finishResponse srv s
  unfold finishResponse at *
  split at hheld
  · rename_i hreuse
    rw [if_pos hreuse]
    have hpersists : s.itsKeepAlive = true := by
      unfold mayReuse at hreuse
      simp only [Bool.and_eq_true] at hreuse
      exact hreuse.1.1
    obtain ⟨howes, hunread⟩ := hre hpersists
    let d' : Floor := { d with turn := .reading }
    let t := armForNextRequest srv (resetRequestState s)
    have hrearmed : Leads srv d d' s (resetRequestState s) := by
      refine (Leads.emit ?_ s).trans (Leads.silent rfl)
      show (if d.turn.owes then some d' else none) = some d'
      rw [if_pos howes]
    have harmed : Leads srv d' d' (resetRequestState s) t := Leads.emit rfl (resetRequestState s)
    -- what is left over is looked at before anything is read
    have hresume : resumeReading t = t.await (nextActivity s.itsBuffer) := by
      unfold resumeReading nextActivity
      show (if s.itsBuffer.isEmpty then startRead t else t.await (.handleRead [])) = _
      split
      · rfl
      · rfl
    refine ⟨d', (hrearmed.trans harmed).trans ?_, ?_⟩
    · rw [hresume]
      exact Leads.silent rfl
    · have hnext : ∀ y ∈ (resumeReading t).world.outstanding, y.turn = .reading := by
        intro y hy
        rw [hresume] at hy
        have hy' : y ∈ s.world.outstanding ++ [nextActivity s.itsBuffer] := hy
        rw [ho] at hy'
        obtain rfl := List.mem_singleton.mp hy'
        unfold nextActivity
        split
        · rfl
        · rfl
      refine ⟨?_, fun _ => ?_, fun _ y hy => (hnext y hy).symm, fun y hy hy' => ?_,
        fun hr => by cases hr⟩
      · -- a closed dialogue owes nothing, so the socket is open
        have hopen : s.world.socket ≠ .closed := fun hc => by
          rw [hk.closed.mpr hc] at howes
          cases howes
        rw [hresume]
        exact ⟨fun hc => (by cases hc), fun hc => absurd hc hopen⟩
      · rw [hheld]
        show d.unread = s.itsBuffer ++ s.world.outstanding.flatMap Activity.unread
        rw [ho, hunread]
        exact (List.append_nil _).symm
      · rw [hnext y hy] at hy'
        cases hy'
  · rename_i hreuse
    rw [if_neg hreuse]
    exact ⟨d, Leads.silent rfl, hk⟩

/-- The socket is closed. -/
theorem continues_closeSocket (hunread : s.world.outstanding ≠ [] → d.unread = s.held)
    (hserving : ∀ y ∈ s.world.outstanding, y.turn ≠ .serving) : Continues srv d s (closeSocket s) :=
  ⟨{ d with turn := .closed }, Leads.emit rfl s, ⟨fun _ => rfl, fun _ => rfl⟩, hunread,
    fun hs => absurd rfl hs, fun y hy hy' => absurd hy' (hserving y hy), fun hr => by cases hr⟩

/-- A reply of the server's own is sent, and then the connection is re-armed or closed. -/
theorem continues_sendSimpleReply (a : Answers) {m : Message} (hk : Keeps d s)
    (hserving : ∀ y ∈ s.world.outstanding, y.turn ≠ .serving)
    (hm : d.turn = .closed ∨ (d.turn.write m).isSome = true)
    (hre : s.itsKeepAlive = true →
      s.world.outstanding = [] ∧ d.turn.owes = true ∧ d.unread = s.itsBuffer) :
    Continues srv d s (sendSimpleReply srv a m s) := by
  unfold sendSimpleReply
  cases headersToString srv.spine s.itsResponse with
  | none => exact ⟨d, Leads.silent rfl, hk⟩
  | some head =>
    let t₁ := s.emit (.rendered m s.itsResponse head)
    let t₂ := writeHead a m head s
    let t := writeContent a m t₂
    have hrest : Rests s t := rests_writes a m head s
    obtain ⟨d₁, hleads₁, hmay₁, hunread₁, hturn₁⟩ :=
      leads_write srv (s := t₁) ⟨hk.closed, hm⟩ head a.headerWrite
    obtain ⟨d₂, hleads₂, hmay₂, hunread₂, hturn₂⟩ :=
      leads_write srv hmay₁ t₂.itsResponse.getContent a.contentWrite
    have hleads : Leads srv d d₂ s t := (Leads.emit rfl s).trans (hleads₁.trans hleads₂)
    have hunread : d₂.unread = d.unread := hunread₂.trans hunread₁
    -- the page continues the response that its header section began
    have hturn : d₂.turn = d.turn ∨ d.turn.write m = some d₂.turn := by
      rcases hturn₁ with h₁ | h₁
      · rwa [h₁] at hturn₂
      · rcases hturn₂ with h₂ | h₂
        · rw [h₂]
          exact Or.inr h₁
        · rw [Turn.write_again h₁] at h₂
          rw [← h₂]
          exact Or.inr h₁
    -- the header section is on record even where writing it failed
    have hheads : t.exchange.heads ≠ [] := by
      obtain ⟨x₁, f₁, h₁, -⟩ := (World.write_delivers t₁.world m head a.headerWrite).current
      obtain ⟨x₂, f₂, h₂, -⟩ :=
        (World.write_delivers t₂.world m t₂.itsResponse.getContent a.contentWrite).current
      have heq : t.exchange.heads = s.exchange.heads ++ [(m, s.itsResponse, head)] :=
        (congrArg Exchange.heads h₂).trans (congrArg Exchange.heads h₁)
      rw [heq]
      simp
    show Continues srv d s (if t.itsKeepAlive then finishResponse srv t else closeSocket t)
    cases hkeep : t.itsKeepAlive with
    | true =>
      have hs : s.itsKeepAlive = true := (Bool.and_eq_true_iff.mp hkeep).1
      obtain ⟨ho, howes, hbuf⟩ := hre hs
      have ho' : t.world.outstanding = [] := hrest.outstanding.trans ho
      have hnone : ∀ y, y ∉ t.world.outstanding := by
        intro y
        rw [ho']
        exact List.not_mem_nil
      refine hleads.continues (continues_finishResponse ⟨hmay₂.closed, fun hne => absurd ho' hne,
        fun _ y hy => absurd hy (hnone y), fun y hy => absurd hy (hnone y), fun _ => hheads⟩ ho'
        fun _ => ⟨?_, (hunread.trans hbuf).trans hrest.buffer.symm⟩)
      rcases hturn with h | h
      · rw [h]
        exact howes
      · exact Turn.write_owes h howes
    | false =>
      refine hleads.continues (continues_closeSocket (fun hne => ?_) fun y hy => ?_)
      · rw [hunread, held_eq hrest.buffer hrest.outstanding]
        exact hk.unread (by rwa [hrest.outstanding] at hne)
      · rw [hrest.outstanding] at hy
        exact hserving y hy

/-- The books are the server's own. -/
theorem Keeps.keep (hk : Keeps d s) (books : Books) :
    Leads srv d d s (books.keep s) ∧ Keeps d (books.keep s) := by
  have hlog := logOnly_keep books s
  have hheld : (books.keep s).held = s.held := held_keep books s
  refine ⟨Leads.of_trail (Threads.steady_keep books s).1.toTrail ?_, ?_, ?_, ?_, ?_, ?_⟩
  · rintro o (⟨n, rfl⟩ | ⟨st, rfl⟩)
    · rfl
    · rfl
  · rw [hlog.socket]
    exact hk.closed
  · rw [hlog.outstanding, hheld]
    exact hk.unread
  · rw [hlog.outstanding, hlog.socket]
    exact hk.turn
  · rw [hlog.outstanding, hlog.socket]
    exact hk.serving
  · rw [hlog.exchange]
    exact hk.replied

end Last

/-- A handler that ends so goes on with the dialogue. -/
def Proceeds (d : Floor) (s : AsyncConnection) : Outcome → Prop
  | .stop t => Continues srv d s t
  | .reply m t _ => ∃ d', Leads srv d d' s t ∧ Keeps d' t ∧
      (∀ y ∈ t.world.outstanding, y.turn ≠ .serving) ∧
      (d'.turn = .closed ∨ (d'.turn.write m).isSome = true) ∧
      (t.itsKeepAlive = true →
        t.world.outstanding = [] ∧ d'.turn.owes = true ∧ d'.unread = t.itsBuffer)
  | .finish t => ∃ d', Leads srv d d' s t ∧ Keeps d' t ∧ t.world.outstanding = [] ∧
      d'.turn.owes = true ∧ d'.unread = t.itsBuffer

section Proceeds

variable {srv} {d d' : Floor} {s t : AsyncConnection} {x : Outcome}

/-- What was done before is part of it. -/
theorem Proceeds.behind (h : Proceeds srv d' t x) (hs : Leads srv d d' s t) :
    Proceeds srv d s x := by
  cases x with
  | stop u => exact hs.continues h
  | reply m u books =>
    obtain ⟨e, he, hrest⟩ := h
    exact ⟨e, hs.trans he, hrest⟩
  | finish u =>
    obtain ⟨e, he, hrest⟩ := h
    exact ⟨e, hs.trans he, hrest⟩

/-- The last call goes on as the handler does. -/
theorem Proceeds.run (a : Answers) (h : Proceeds srv d s x) : Continues srv d s (x.run srv a) := by
  cases x with
  | stop u => exact h
  | reply m u books =>
    obtain ⟨e, he, hk, hserving, hm, hre⟩ := h
    obtain ⟨f, hf, hkf⟩ := continues_sendSimpleReply a hk hserving hm hre
    obtain ⟨hbooks, hkb⟩ := hkf.keep books
    exact ⟨f, (he.trans hf).trans hbooks, hkb⟩
  | finish u =>
    obtain ⟨e, he, hk, ho, howes, hunread⟩ := h
    exact he.continues (continues_finishResponse hk ho fun _ => ⟨howes, hunread⟩)

end Proceeds

/-! ## In one turn -/

/-- A handler runs in the turn `τ`, and the socket is not closed. -/
structure Stands (τ : Turn) (d : Floor) (s : AsyncConnection) : Prop where
  turn : d.turn = τ
  outstanding : s.world.outstanding = []
  socket : s.world.socket ≠ .closed
  unread : d.unread = s.itsBuffer

/-- The code from `s` to `t` leaves it to the same side. -/
structure Within (d : Floor) (s t : AsyncConnection) : Prop where
  leads : Leads srv d d s t
  outstanding : t.world.outstanding = s.world.outstanding
  socket : t.world.socket = .closed ↔ s.world.socket = .closed
  buffer : t.itsBuffer = s.itsBuffer

section Within

variable {srv} {d : Floor} {s t u : AsyncConnection} {τ : Turn}

/-- The world is left alone. -/
theorem Within.silent (hw : t.world = s.world) (hb : t.itsBuffer = s.itsBuffer) :
    Within srv d s t := by
  refine ⟨Leads.silent (by rw [hw]), by rw [hw], by rw [hw], hb⟩

/-- Two parts in a row. -/
theorem Within.trans (h : Within srv d s t) (h' : Within srv d t u) : Within srv d s u :=
  ⟨h.leads.trans h'.leads, h'.outstanding.trans h.outstanding, h'.socket.trans h.socket,
    h'.buffer.trans h.buffer⟩

/-- An event that is no move. -/
theorem Within.emit {o : Obs} (h : Floor.step srv.spine.parseOneRequest d o = some d)
    (s : AsyncConnection) : Within srv d s (s.emit o) := ⟨Leads.emit h s, rfl, Iff.rfl, rfl⟩

/-- Bytes of the message whose turn it is. -/
theorem Within.write {m : Message} (hc : d.turn = .closed ↔ s.world.socket = .closed)
    (hm : d.turn = .closed ∨ d.turn.write m = some d.turn) (b : Bytes) (o : WriteOutcome) :
    Within srv d s (AsyncConnection.write m b o s) := by
  have hmay : MaySend m d s := by
    refine ⟨hc, hm.imp_right fun h => ?_⟩
    rw [h]
    rfl
  obtain ⟨d', hleads, hmay', hunread, hturn⟩ := leads_write srv hmay b o
  have hsame : d'.turn = d.turn := by
    rcases hturn with h | h
    · exact h
    · rcases hm with hm | hm
      · exact absurd hm (Turn.write_cases h).1
      · rw [hm] at h
        exact (Option.some.inj h).symm
  obtain rfl : d' = d := by
    cases d'
    cases d
    simp_all
  have hdel := s.world.write_delivers m b o
  exact ⟨hleads, hdel.outstanding, hmay'.closed.symm.trans hc, rfl⟩

/-- The turn is the same behind what stays within it. -/
theorem Stands.within (h : Stands τ d s) (hw : Within srv d s t) : Stands τ d t :=
  ⟨h.turn, hw.outstanding.trans h.outstanding, fun hc => h.socket (hw.socket.mp hc),
    h.unread.trans hw.buffer.symm⟩

/-- Only members no dialogue depends on were set. -/
theorem Stands.silent (h : Stands τ d s) (hw : t.world = s.world) (hb : t.itsBuffer = s.itsBuffer) :
    Stands τ d t := by
  refine ⟨h.turn, ?_, ?_, h.unread.trans hb.symm⟩
  · rw [hw]
    exact h.outstanding
  · rw [hw]
    exact h.socket

/-- A handler that leaves nothing outstanding. -/
theorem Stands.keeps (h : Stands τ d s) (hopen : τ ≠ .closed) (hreply : τ.replies = false) :
    Keeps d s := by
  have hnone : ∀ y, y ∉ s.world.outstanding := by
    intro y
    rw [h.outstanding]
    exact List.not_mem_nil
  refine ⟨?_, fun hne => absurd h.outstanding hne, fun _ y hy => absurd hy (hnone y),
    fun y hy => absurd hy (hnone y), fun hr => ?_⟩
  · rw [h.turn]
    exact ⟨fun hc => absurd hc hopen, fun hc => absurd hc h.socket⟩
  · rw [h.turn, hreply] at hr
    cases hr

/-- A handler that goes on later, in the same turn. -/
theorem Stands.await {y : Activity} (h : Stands y.turn d s) (hy : y.unread = []) :
    Continues srv d s (s.await y) := by
  have hone : (s.await y).world.outstanding = [y] := by
    show s.world.outstanding ++ [y] = [y]
    rw [h.outstanding]
    rfl
  have hturn : y.turn ≠ .closed ∧ y.turn.replies = false := by
    cases y with
    | task pool task => cases task <;> exact ⟨by simp [Activity.turn], rfl⟩
    | _ => exact ⟨by simp [Activity.turn], rfl⟩
  refine ⟨d, Leads.silent rfl, ?_, fun _ => ?_, fun _ z hz => ?_, fun _ _ _ => h.socket,
    fun hr => ?_⟩
  · rw [h.turn]
    exact ⟨fun hc => absurd hc hturn.1, fun hc => absurd hc h.socket⟩
  · rw [h.unread]
    show s.itsBuffer = s.itsBuffer ++ (s.await y).world.outstanding.flatMap Activity.unread
    rw [hone, List.flatMap_singleton, hy, List.append_nil]
  · rw [hone] at hz
    obtain rfl := List.mem_singleton.mp hz
    exact h.turn
  · rw [h.turn, hturn.2] at hr
    cases hr

/-- A reply of the server's own to the request of this turn. -/
theorem Stands.reply {m : Message} (h : Stands τ d s) (howes : τ.owes = true)
    (hm : (τ.write m).isSome = true) (hreply : τ.replies = false) (books : Books) :
    Proceeds srv d s (.reply m s books) := by
  have hopen : τ ≠ .closed := by
    rintro rfl
    cases howes
  refine ⟨d, Leads.silent rfl, h.keeps hopen hreply, fun y hy => ?_, Or.inr ?_,
    fun _ => ⟨h.outstanding, ?_, h.unread⟩⟩
  · rw [h.outstanding] at hy
    cases hy
  · rw [h.turn]
    exact hm
  · rw [h.turn]
    exact howes

/-- A page of the server is a reply to the request. -/
theorem Stands.stock (h : Stands τ d s) (a : Answers) (status : Status)
    (hτ : τ = .taken ∨ τ = .serving) : Proceeds srv d s (Tail.sendStockReply srv a status s) := by
  have hprep : Stands τ d (stockResponse srv a status s) := h.silent rfl rfl
  have hturn : τ.owes = true ∧ (τ.write (.stock status)).isSome = true ∧ τ.replies = false := by
    rcases hτ with rfl | rfl
    · exact ⟨rfl, rfl, rfl⟩
    · exact ⟨rfl, rfl, rfl⟩
  exact (hprep.reply hturn.1 hturn.2.1 hturn.2.2 .none).behind (Leads.silent rfl)

/-- A response that is complete. -/
theorem Stands.finish (h : Stands .serving d s) : Proceeds srv d s (.finish s) := by
  refine ⟨d, Leads.silent rfl, h.keeps (by simp) rfl, h.outstanding, ?_, h.unread⟩
  rw [h.turn]
  rfl

/-- The handler returns. -/
theorem Stands.stop (h : Stands τ d s) (hopen : τ ≠ .closed) (hreply : τ.replies = false) :
    Proceeds srv d s (.stop s) := ⟨d, Leads.silent rfl, h.keeps hopen hreply⟩

end Within

end AsyncConnection

end SmartMet
