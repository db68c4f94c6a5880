/-
# The timer and the threads

Any number of waits of the timer may be in flight while the threads of a
connection go through their regions.  The invariant here ties the generation
stamp and the waits to the point where the one thread of a connection stands:
the timer is armed or has been cancelled since, and a handler whose plugin was
called stands behind a cancellation.
-/
import SmartMetServer.Regions
import SmartMetServer.Transcript

namespace SmartMet

open AsyncConnection

/-- A final response has begun on the wire since the timer was armed last. -/
def begun : List Obs → Bool
  | [] => false
  | .armed _ _ :: _ => false
  | .wrote m _ :: t => m != .interim || begun t
  | _ :: t => begun t

/-- The stamps of the armings of the timer, the last first. -/
def armings : List Obs → List ℕ
  | [] => []
  | .armed g _ :: t => g :: armings t
  | _ :: t => armings t

/-- Events that do not arm the timer. -/
theorem armings_append {new t : List Obs} (h : ∀ o ∈ new, ∀ g n, o ≠ .armed g n) :
    armings (new ++ t) = armings t := by
  induction new with
  | nil => rfl
  | cons o new ih =>
    obtain ⟨ho, hnew⟩ := List.forall_mem_cons.mp h
    rw [List.cons_append, ← ih hnew]
    cases o with
    | armed g n => exact absurd rfl (ho g n)
    | _ => rfl

/-- Events that neither arm the timer nor belong to a final response. -/
def Obs.Beginless (o : Obs) : Prop :=
  (∀ g n, o ≠ .armed g n) ∧ ∀ m b, o = .wrote m b → m = .interim

/-- Events that neither arm the timer nor re-arm the connection. -/
def Obs.Inner (o : Obs) : Prop := o ≠ .rearmed ∧ ∀ g n, o ≠ .armed g n

/-- Events that begin nothing leave open whether the request has begun. -/
theorem begun_append {new t : List Obs} (h : ∀ o ∈ new, o.Beginless) :
    begun (new ++ t) = begun t := by
  induction new with
  | nil => rfl
  | cons o new ih =>
    obtain ⟨⟨harm, hw⟩, hnew⟩ := List.forall_mem_cons.mp h
    rw [List.cons_append, ← ih hnew]
    cases o with
    | armed g n => exact absurd rfl (harm g n)
    | wrote m b =>
      obtain rfl := hw m b rfl
      rfl
    | _ => rfl

/-- Nothing but interim responses has gone out. -/
def Exchange.Unspoken (x : Exchange) : Prop := ∀ p ∈ x.wire, p.1 = .interim

/-- Where no final response has begun, none was begun before. -/
theorem begun_of_append {new t : List Obs} (h : ∀ o ∈ new, ∀ g n, o ≠ .armed g n)
    (hb : begun (new ++ t) = false) :
    begun t = false ∧ ((current t).Unspoken → (current (new ++ t)).Unspoken) := by
  induction new with
  | nil => exact ⟨hb, id⟩
  | cons o new ih =>
    obtain ⟨ho, hnew⟩ := List.forall_mem_cons.mp h
    rw [List.cons_append] at hb ⊢
    cases o with
    | armed g n => exact absurd rfl (ho g n)
    | rearmed => exact ⟨(ih hnew hb).1, fun _ p hp => by cases hp⟩
    | wrote m b =>
      obtain ⟨hm, hb⟩ : m = .interim ∧ begun (new ++ t) = false := by simpa [begun] using hb
      refine ⟨(ih hnew hb).1, fun ht p hp => ?_⟩
      rcases List.mem_append.mp hp with hp | hp
      · exact (ih hnew hb).2 ht p hp
      · obtain rfl := List.mem_singleton.mp hp
        exact hm
    | _ => exact ih hnew hb

/-- An exchange in which a handler was called stays so. -/
theorem dispatched_append {new t : List Obs} (h : ∀ o ∈ new, o ≠ .rearmed)
    (ht : (current t).dispatched ≠ []) : (current (new ++ t)).dispatched ≠ [] := by
  induction new with
  | nil => exact ht
  | cons o new ih =>
    obtain ⟨ho, hnew⟩ := List.forall_mem_cons.mp h
    rw [List.cons_append, current_cons ho]
    have := ih hnew
    cases o with
    | dispatched r => simp [Exchange.observe]
    | _ => exact this

/-- Nothing has been parsed and no handler was called. -/
def Exchange.Fresh (x : Exchange) : Prop := x.requests = [] ∧ x.dispatched = []

/-- An exchange stays fresh behind events that neither end it, parse a request nor call a
handler. -/
theorem fresh_append {new t : List Obs}
    (h : ∀ o ∈ new, o ≠ .rearmed ∧ (∀ r, o ≠ .parsed r) ∧ ∀ r, o ≠ .dispatched r)
    (ht : (current t).Fresh) : (current (new ++ t)).Fresh := by
  induction new with
  | nil => exact ht
  | cons o new ih =>
    obtain ⟨⟨ho, hp, hd⟩, hnew⟩ := List.forall_mem_cons.mp h
    rw [List.cons_append, current_cons ho]
    have := ih hnew
    cases o with
    | parsed r => exact absurd rfl (hp r)
    | dispatched r => exact absurd rfl (hd r)
    | _ => exact this

/-- The calls of handlers are those of before, behind events that are none. -/
theorem undispatched_append {new t : List Obs}
    (h : ∀ o ∈ new, o ≠ .rearmed ∧ ∀ r, o ≠ .dispatched r) :
    (current (new ++ t)).dispatched = (current t).dispatched := by
  induction new with
  | nil => rfl
  | cons o new ih =>
    obtain ⟨⟨ho, hd⟩, hnew⟩ := List.forall_mem_cons.mp h
    rw [List.cons_append, current_cons ho, ← ih hnew]
    cases o with
    | dispatched r => exact absurd rfl (hd r)
    | _ => rfl

namespace Threads

variable (srv : Server)

/-! ## The invariant -/

/-- No two armings have the same stamp, and what counts as armed is the last one. -/
structure Numbered (stamps : List ℕ) (generation : ℕ) (armed : Option ℕ) : Prop where
  decreasing : stamps.Pairwise (· > ·)
  bounded : ∀ g ∈ stamps, g ≤ generation
  latest : ∀ g, armed = some g → stamps.head? = some g

/-- What holds wherever the threads stand. -/
structure Shared (c : AsyncConnection) (armed : Option ℕ) (engaged : Bool) : Prop where
  stamped : ∀ w ∈ c.world.waits, w.generation ≤ c.itsTimerGeneration
  latest : ∀ g, armed = some g → g = c.itsTimerGeneration
  cancelled : armed = none → Unarmed c
  idle : c.itsIdle = true ↔ past c.world.trace ≠ [] ∧ c.itsBuffer = [] ∧ engaged = false
  timedOut : c.hasTimedOut = true → c.world.socket = .closed
  busy : c.exchange.dispatched ≠ [] → armed = none
  unspoken : begun c.world.trace = false →
    armed = none ∨ c.world.socket = .closed ∨ c.exchange.Unspoken
  numbered : Numbered (armings c.world.trace) c.itsTimerGeneration armed

/-- The timer cannot answer behind a response that has begun. -/
def Quiet (c : AsyncConnection) (armed : Option ℕ) : Prop :=
  begun c.world.trace = true → c.world.socket = .closed ∨ armed = none

/-- A reply of the server's own that was not closed: quiet, or persistent. -/
def Settled (c : AsyncConnection) (armed : Option ℕ) : Prop :=
  Quiet c armed ∨ c.itsKeepAlive = true

/-- A request is being read, and the timer is armed for it. -/
structure Attentive (c : AsyncConnection) (armed : Option ℕ) : Prop where
  fresh : c.exchange.Fresh
  quiet : Quiet c armed
  armed : armed ≠ none

/-- What is known of a thread in front of a region. -/
def At (c : AsyncConnection) (armed : Option ℕ) (engaged : Bool) : Rest → Prop
  | .beginReading => Attentive c armed
  | .armForRequest _ _ => Attentive c armed ∧ engaged = true
  | .readBytes _ _ => Attentive c armed ∧ engaged = true
  | .callHandler _ => armed = none
  | .inHandler _ => c.exchange.dispatched ≠ []
  | .written _ _ _ _ => c.exchange.dispatched ≠ []
  | .head _ _ _ => Quiet c armed
  | .content _ _ _ _ => True
  | .settle _ => True
  | .finish _ => Settled c armed
  | .armNext _ => c.exchange.Fresh ∧ (c.world.socket = .closed ∨ c.exchange.Unspoken)
  | .resume _ => Attentive c armed

/-- What is known while an activity is outstanding. -/
def During (c : AsyncConnection) (armed : Option ℕ) : Activity → Prop
  | .handshake => Attentive c armed
  | .read => Attentive c armed
  | .handleRead _ => Attentive c armed
  | .task _ (.handleCompletedRead _) => Quiet c armed
  | .task _ _ => c.exchange.dispatched ≠ []
  | .write _ _ => c.exchange.dispatched ≠ []

/-- Where the connection stands: at most one thread is in the middle of a handler
or one activity outstanding. -/
def Position (s : Threads) : Prop :=
  s.running = [] ∧ s.conn.world.outstanding = [] ∧ Settled s.conn s.armed ∨
  (∃ r, s.running = [r] ∧ s.conn.world.outstanding = [] ∧ At s.conn s.armed s.engaged r) ∨
  ∃ y, s.running = [] ∧ s.conn.world.outstanding = [y] ∧ During s.conn s.armed y

/-- The invariant. -/
def Inv (s : Threads) : Prop := Shared s.conn s.armed s.engaged ∧ Position s

/-! ## What the timer and the outside may do beside a thread -/

/-- From `c` to `c'` nothing happened that a thread takes notice of, unless the
socket was closed. -/
structure Beside (c c' : AsyncConnection) : Prop where
  generation : c'.itsTimerGeneration = c.itsTimerGeneration
  waits : ∀ w' ∈ c'.world.waits, ∃ w ∈ c.world.waits, w'.generation = w.generation
  idle : c'.itsIdle = c.itsIdle
  buffer : c'.itsBuffer = c.itsBuffer
  outstanding : c'.world.outstanding = c.world.outstanding
  past : past c'.world.trace = past c.world.trace
  requests : c'.exchange.requests = c.exchange.requests
  dispatched : c'.exchange.dispatched = c.exchange.dispatched
  timedOut : c'.hasTimedOut = true → c.hasTimedOut = true ∨ c'.world.socket = .closed
  socket : (c'.world.socket = c.world.socket ∧ c'.world.trace = c.world.trace ∧
    c'.itsKeepAlive = c.itsKeepAlive) ∨ c'.world.socket = .closed
  armings : armings c'.world.trace = armings c.world.trace

section Beside

variable {c c' : AsyncConnection} {armed : Option ℕ} {engaged : Bool}

/-- What holds of the shared members holds beside a change of the timer, -/
theorem Shared.beside (h : Shared c armed engaged) (hb : Beside c c') :
    Shared c' armed engaged := by
  refine ⟨?_, ?_, ?_, ?_, ?_, ?_, ?_, ?_⟩
  · intro w' hw'
    obtain ⟨w, hw, hg⟩ := hb.waits w' hw'
    rw [hb.generation, hg]
    exact h.stamped w hw
  · intro g hg
    rw [hb.generation]
    exact h.latest g hg
  · intro hn w' hw'
    obtain ⟨w, hw, hg⟩ := hb.waits w' hw'
    rw [hb.generation, hg]
    exact h.cancelled hn w hw
  · rw [hb.idle, hb.past, hb.buffer]
    exact h.idle
  · intro ht
    rcases hb.timedOut ht with ht | hs
    · rcases hb.socket with ⟨hs, -⟩ | hs
      · exact hs.trans (h.timedOut ht)
      · exact hs
    · exact hs
  · rw [hb.dispatched]
    exact h.busy
  · rcases hb.socket with ⟨hs, ht, -⟩ | hs
    · unfold AsyncConnection.exchange
      rw [ht, hs]
      exact h.unspoken
    · exact fun _ => Or.inr (Or.inl hs)
  · rw [hb.armings, hb.generation]
    exact h.numbered

/-- so does the rest of the timer, -/
theorem Quiet.beside (h : Quiet c armed) (hb : Beside c c') : Quiet c' armed := by
  intro hbegun
  rcases hb.socket with ⟨hs, ht, -⟩ | hs
  · rw [ht] at hbegun
    rw [hs]
    exact h hbegun
  · exact Or.inl hs

/-- and what holds between the handlers. -/
theorem Settled.beside (h : Settled c armed) (hb : Beside c c') : Settled c' armed := by
  rcases hb.socket with ⟨-, -, hk⟩ | hs
  · rcases h with h | h
    · exact Or.inl (h.beside hb)
    · exact Or.inr (hk.trans h)
  · exact Or.inl fun _ => Or.inl hs

/-- A fresh exchange stays fresh. -/
theorem Beside.fresh (hb : Beside c c') (h : c.exchange.Fresh) : c'.exchange.Fresh :=
  ⟨hb.requests.trans h.1, hb.dispatched.trans h.2⟩

/-- A handler handed over, or another member set. -/
theorem Attentive.agree (h : Attentive c armed) (ht : c'.world.trace = c.world.trace)
    (hs : c'.world.socket = c.world.socket) : Attentive c' armed := by
  refine ⟨?_, ?_, h.armed⟩
  · unfold AsyncConnection.exchange
    rw [ht]
    exact h.fresh
  · unfold Quiet
    rw [ht, hs]
    exact h.quiet

/-- The attention to a timer carries over, -/
theorem Attentive.beside (h : Attentive c armed) (hb : Beside c c') : Attentive c' armed :=
  ⟨hb.fresh h.fresh, h.quiet.beside hb, h.armed⟩

/-- what holds at a point of a thread's way, -/
theorem Beside.at (hb : Beside c c') {r : Rest} (h : At c armed engaged r) :
    At c' armed engaged r := by
  have hd : c.exchange.dispatched ≠ [] → c'.exchange.dispatched ≠ [] := by
    rw [hb.dispatched]
    exact id
  cases r with
  | beginReading => exact Attentive.beside h hb
  | armForRequest bytes a => exact ⟨h.1.beside hb, h.2⟩
  | readBytes bytes a => exact ⟨h.1.beside hb, h.2⟩
  | callHandler a => exact h
  | inHandler a => exact hd h
  | written handler e n a => exact hd h
  | head m books a => exact Quiet.beside h hb
  | content m bytes books a => trivial
  | settle books => trivial
  | finish books => exact Settled.beside h hb
  | armNext books =>
    refine ⟨hb.fresh h.1, ?_⟩
    rcases hb.socket with ⟨hs, ht, -⟩ | hs
    · unfold AsyncConnection.exchange
      rw [hs, ht]
      exact h.2
    · exact Or.inl hs
  | resume books => exact Attentive.beside h hb

/-- and while an activity is outstanding. -/
theorem Beside.during (hb : Beside c c') {y : Activity} (h : During c armed y) :
    During c' armed y := by
  have hd : c.exchange.dispatched ≠ [] → c'.exchange.dispatched ≠ [] := by
    rw [hb.dispatched]
    exact id
  rcases y with _ | _ | bytes | ⟨pool, _ | _ | _⟩ | ⟨handler, buffer⟩
  · exact Attentive.beside h hb
  · exact Attentive.beside h hb
  · exact Attentive.beside h hb
  · exact Quiet.beside h hb
  · exact hd h
  · exact hd h
  · exact hd h

end Beside

/-- The invariant carries over to a connection that differs in its timer's waits and
closing only. -/
theorem Inv.beside {s : Threads} (h : Inv s) {c' : AsyncConnection} (hb : Beside s.conn c') :
    Inv (s.leave c') := by
  obtain ⟨hsh, hpos⟩ := h
  refine ⟨hsh.beside hb, ?_⟩
  rcases hpos with ⟨hr, ho, hset⟩ | ⟨r, hr, ho, hat⟩ | ⟨y, hr, ho, hd⟩
  · exact Or.inl ⟨hr, hb.outstanding.trans ho, hset.beside hb⟩
  · exact Or.inr (Or.inl ⟨r, hr, hb.outstanding.trans ho, hb.at hat⟩)
  · exact Or.inr (Or.inr ⟨y, hr, hb.outstanding.trans ho, hb.during hd⟩)

/-! ## Handlers of the timer -/

/-- What is left of a connection when the handler of a wait has taken it out. -/
def taken (c : AsyncConnection) (w : TimerWait) : AsyncConnection :=
  { c with world.waits := c.world.waits.erase w }

/-- Taking up a completed wait is such a change. -/
theorem beside_taken (c : AsyncConnection) (w : TimerWait) : Beside c (taken c w) :=
  ⟨rfl, fun w' hw' => ⟨w', List.mem_of_mem_erase hw', rfl⟩, rfl, rfl, rfl, rfl, rfl, rfl, Or.inl,
    Or.inl ⟨rfl, rfl, rfl⟩, rfl⟩

/-- A wait acts when it has run out and has the current stamp. -/
def Acts (c : AsyncConnection) (generation : ℕ) : Prop :=
  generation = c.itsTimerGeneration ∧
    ∃ w, c.readyWait generation = some w ∧ w.status ≠ .aborted

instance (c : AsyncConnection) (generation : ℕ) : Decidable (Acts c generation) :=
  decidable_of_iff (generation = c.itsTimerGeneration ∧
      (c.readyWait generation).any (fun w => w.status != .aborted) = true) <| by
    unfold Acts
    rw [Option.any_eq_true]
    simp

/-- The handler of a wait that ends the connection: with the message of a timeout,
or silently. -/
structure Expired (srv : Server) (c c' : AsyncConnection) : Prop where
  socket : c'.world.socket = .closed
  silent : c.itsIdle = true → c'.world.trace = .closed :: c.world.trace
  answered : c.itsIdle = false → ∃ r extra f,
    r.status = some Status.requestTimeout ∧
    c'.exchange = c.exchange.reply (.stock .requestTimeout) r (srv.spine.headerSection r) extra f ∧
    Sends (.stock .requestTimeout) (srv.spine.headerSection r ++ r.getContent) c.world extra f

variable {srv}

/-- **The handler of a wait**: nothing but the wait is gone, or the wait acts. -/
theorem runTimer_cases {c c' : AsyncConnection} {generation : ℕ} {a : Answers}
    (h : AsyncConnection.step srv c (.runTimer generation a) = some c') :
    (∃ w, ¬ Acts c generation ∧ c.readyWait generation = some w ∧ c' = taken c w) ∨
      Acts c generation ∧ Expired srv c c' ∧ Beside c c' := by
  simp only [AsyncConnection.step] at h
  split at h
  swap
  · cases h
  rename_i w hw
  obtain rfl := Option.some.inj h
  have hmem : ∀ x ∈ c.world.waits.erase w, x ∈ c.world.waits := fun x hx =>
    List.mem_of_mem_erase hx
  -- the handler returns at once where its wait was cancelled,
  by_cases hab : w.status = .aborted
  · refine Or.inl ⟨w, ?_, hw, ?_⟩
    · rintro ⟨-, w', hw', hne⟩
      obtain rfl := Option.some.inj (hw.symm.trans hw')
      exact hne hab
    · rw [if_pos hab]
      unfold handleTimer
      rw [if_pos rfl]
      rfl
  rw [if_neg hab]
  -- and where its stamp is no longer the present one
  by_cases hgen : generation = c.itsTimerGeneration
  swap
  · refine Or.inl ⟨w, fun hacts => hgen hacts.1, hw, ?_⟩
    unfold handleTimer
    rw [if_neg (by simp), if_pos hgen]
    rfl
  refine Or.inr ⟨⟨hgen, w, hw, hab⟩, ?_⟩
  subst hgen
  unfold handleTimer
  rw [if_neg (by simp), if_neg (by simp)]
  dsimp only
  -- an idle connection is closed in silence, any other is answered with 408
  by_cases hidle : c.itsIdle = true
  · rw [if_pos hidle]
    refine ⟨⟨rfl, fun _ => rfl, fun hn => ?_⟩, rfl, fun x hx => ⟨x, hmem x hx, rfl⟩, rfl, rfl, rfl,
      rfl, rfl, rfl, fun _ => Or.inr rfl, Or.inr rfl, rfl⟩
    rw [hidle] at hn
    cases hn
  · rw [if_neg hidle]
    obtain ⟨r, e, u, heq, hstock, -, hin⟩ := sendStockReply_closing srv a .requestTimeout
      (s := { c with
        hasTimedOut := true, itsKeepAlive := false,
        world := { c.world with waits := c.world.waits.erase w } }) rfl
    obtain ⟨extra, f, hx, hs⟩ := hin.current
    have hx' : current u.trace = c.exchange.reply (.stock .requestTimeout) r
        (srv.spine.headerSection r) extra f := hx
    rw [heq]
    refine ⟨⟨rfl, fun hi => absurd hi hidle, fun _ => ⟨r, extra, f, hstock.status, hx', ?_⟩⟩,
      rfl, ?_, rfl, rfl, hin.outstanding, hin.past, ?_, ?_, fun _ => Or.inr rfl, Or.inr rfl, ?_⟩
    · exact ⟨hs.message, hs.bytes, hs.exact, hs.socket⟩
    · intro x hxm
      have hxm' : x ∈ u.waits := hxm
      rw [hin.waits] at hxm'
      exact ⟨x, hmem x hxm', rfl⟩
    · show (current u.trace).requests = _
      rw [hx']
      rfl
    · show (current u.trace).dispatched = _
      rw [hx']
      rfl
    · obtain ⟨new, hnew, hev⟩ := hin.trace
      have hnew' : u.trace = new ++ c.world.trace := hnew
      show SmartMet.armings u.trace = _
      rw [hnew']
      exact armings_append hev

/-- The invariant is kept by the completion handler of the timer. -/
theorem Inv.runTimer {s : Threads} (h : Inv s) {generation : ℕ} {a : Answers}
    {c' : AsyncConnection}
    (hstep : AsyncConnection.step srv s.conn (.runTimer generation a) = some c') :
    Inv (s.leave c') := by
  rcases runTimer_cases hstep with ⟨w, -, -, rfl⟩ | ⟨-, -, hb⟩
  · exact h.beside (beside_taken s.conn w)
  · exact h.beside hb

/-! ## What a region leaves of the timer -/

/-- The code between `c` and `c'` does not touch the timer. -/
structure Steady (A : Obs → Prop) (c c' : AsyncConnection) : Prop extends Trail A c c' where
  waits : c'.world.waits = c.world.waits
  generation : c'.itsTimerGeneration = c.itsTimerGeneration
  timedOut : c'.hasTimedOut = c.hasTimedOut
  idle : c'.itsIdle = c.itsIdle

section Steady

variable {A B : Obs → Prop} {c c' c'' : AsyncConnection} {armed : Option ℕ} {engaged : Bool}

/-- A stretch leaves the shared members alone. -/
theorem Steady.of_stretch (h : Stretch A c c') : Steady A c c' :=
  ⟨h.toTrail, h.waits, h.generation, h.timedOut, h.idle⟩

/-- Two steady parts in a row. -/
theorem Steady.trans (h : Steady A c c') (h' : Steady A c' c'') : Steady A c c'' :=
  ⟨h.toTrail.trans h'.toTrail, h'.waits.trans h.waits, h'.generation.trans h.generation,
    h'.timedOut.trans h.timedOut, h'.idle.trans h.idle⟩

/-- More events may be allowed. -/
theorem Steady.mono (h : Steady A c c') (hab : ∀ o, A o → B o) : Steady B c c' :=
  ⟨h.toTrail.mono hab, h.waits, h.generation, h.timedOut, h.idle⟩

/-- The members a region may set without the timer taking notice. -/
def clock (c : AsyncConnection) : World × ℕ × Bool × Bool :=
  (c.world, c.itsTimerGeneration, c.hasTimedOut, c.itsIdle)

/-- Only other members were set. -/
theorem Steady.silent (h : clock c' = clock c) : Steady A c c' := by
  obtain ⟨hw, hg, ht, hi⟩ : c'.world = c.world ∧ c'.itsTimerGeneration = c.itsTimerGeneration ∧
      c'.hasTimedOut = c.hasTimedOut ∧ c'.itsIdle = c.itsIdle := by
    simpa [clock] using h
  refine ⟨Trail.silent (by rw [hw]) (by rw [hw]; exact id), by rw [hw], hg, ht, hi⟩

/-- A region that does not touch the timer, and calls no handler while it is
armed. -/
theorem Shared.steady (h : Shared c armed engaged) (ht : Steady A c c')
    (hin : ∀ o, A o → o.Inner) (hd : (∀ o, A o → ∀ r, o ≠ .dispatched r) ∨ armed = none)
    (hb : c'.itsBuffer = c.itsBuffer ∨ engaged = true) : Shared c' armed engaged := by
  obtain ⟨new, hnew, hev⟩ := ht.events
  have hpast : past c'.world.trace = past c.world.trace := by
    rw [hnew]
    exact past_append fun o ho => (hin o (hev o ho).1).1
  refine ⟨?_, ?_, ?_, ?_, ?_, ?_, ?_, ?_⟩
  · rw [ht.waits, ht.generation]
    exact h.stamped
  · rw [ht.generation]
    exact h.latest
  · unfold Unarmed
    rw [ht.waits, ht.generation]
    exact h.cancelled
  · rw [ht.idle, h.idle, hpast]
    rcases hb with hb | hb
    · rw [hb]
    · simp [hb]
  · rw [ht.timedOut]
    exact fun hto => ht.socket (h.timedOut hto)
  · rcases hd with hd | hd
    · unfold AsyncConnection.exchange
      rw [hnew, undispatched_append fun o ho => ⟨(hin o (hev o ho).1).1, hd o (hev o ho).1⟩]
      exact h.busy
    · exact fun _ => hd
  · unfold AsyncConnection.exchange
    rw [hnew]
    intro hb
    obtain ⟨hb, hkeep⟩ := begun_of_append (fun o ho => (hin o (hev o ho).1).2) hb
    rcases h.unspoken hb with h | h | h
    · exact Or.inl h
    · exact Or.inr (Or.inl (ht.socket h))
    · exact Or.inr (Or.inr (hkeep h))
  · rw [hnew, armings_append fun o ho => (hin o (hev o ho).1).2, ht.generation]
    exact h.numbered

/-- The timer rests behind events that begin nothing. -/
theorem Quiet.trail (h : Quiet c armed) (ht : Trail A c c') (hA : ∀ o, A o → o.Beginless) :
    Quiet c' armed := by
  obtain ⟨new, hnew, hev⟩ := ht.events
  intro hbegun
  rw [hnew, begun_append fun o ho => hA o (hev o ho).1] at hbegun
  exact (h hbegun).imp_left ht.socket

/-- A handler that was called stays so within the exchange. -/
theorem dispatched_trail (h : c.exchange.dispatched ≠ []) (ht : Trail A c c')
    (hA : ∀ o, A o → o ≠ .rearmed) : c'.exchange.dispatched ≠ [] := by
  obtain ⟨new, hnew, hev⟩ := ht.events
  unfold AsyncConnection.exchange
  rw [hnew]
  exact dispatched_append (fun o ho => hA o (hev o ho).1) h

/-- The exchange stays fresh along such events. -/
theorem fresh_trail (h : c.exchange.Fresh) (ht : Trail A c c')
    (hA : ∀ o, A o → o ≠ .rearmed ∧ (∀ r, o ≠ .parsed r) ∧ ∀ r, o ≠ .dispatched r) :
    c'.exchange.Fresh := by
  obtain ⟨new, hnew, hev⟩ := ht.events
  unfold AsyncConnection.exchange
  rw [hnew]
  exact fresh_append (fun o ho => hA o (hev o ho).1) h

end Steady

/-! ## How a region ends -/

/-- Where the end of a region leaves the connection. -/
def Lands (armed : Option ℕ) : Outcome → Prop
  | .stop c => c.world.outstanding = [] ∧ Settled c armed ∨
      ∃ y, c.world.outstanding = [y] ∧ During c armed y
  | .reply _ c _ => c.world.outstanding = [] ∧ Quiet c armed
  | .finish c => c.world.outstanding = [] ∧ Settled c armed

/-- The invariant holds behind the last call of a handler that landed well. -/
theorem inv_outcome {s : Threads} {a : Answers} {x : Outcome} (hr : s.running = [])
    (hs : Shared x.state s.armed s.engaged) (hx : Lands s.armed x) : Inv (s.outcome a x) := by
  have hnext : ∀ r : Rest, s.running ++ [r] = [r] := fun r => by
    rw [hr]
    rfl
  cases x with
  | stop c =>
    rcases hx with ⟨ho, hset⟩ | ⟨y, ho, hd⟩
    · exact ⟨hs, Or.inl ⟨hr, ho, hset⟩⟩
    · exact ⟨hs, Or.inr (Or.inr ⟨y, hr, ho, hd⟩)⟩
  | reply m c books => exact ⟨hs, Or.inr (Or.inl ⟨_, hnext _, hx.1, hx.2⟩)⟩
  | finish c => exact ⟨hs, Or.inr (Or.inl ⟨_, hnext _, hx.1, hx.2⟩)⟩

/-- The end of a region behind the call of the plugin. -/
theorem lands_of_replies {M : Message → Prop} {c : AsyncConnection} {armed : Option ℕ} {x : Outcome}
    (h : x.Replies M c) (ho : c.world.outstanding = []) (ha : armed = none)
    (hd : x.state.exchange.dispatched ≠ []) : Lands armed x := by
  have hquiet : ∀ u, Quiet u armed := fun _ _ => Or.inr ha
  cases x with
  | stop u =>
    rcases h with h | ⟨y, hy, h⟩
    · exact Or.inl ⟨h.trans ho, Or.inl (hquiet u)⟩
    · refine Or.inr ⟨y, h.trans (by rw [ho]; rfl), ?_⟩
      rcases y with _ | _ | bytes | ⟨pool, _ | _ | _⟩ | ⟨handler, buffer⟩
      · exact absurd hy id
      · exact absurd hy id
      · exact absurd hy id
      · exact absurd hy id
      · exact hd
      · exact hd
      · exact hd
  | reply m u books => exact ⟨h.2.trans ho, hquiet u⟩
  | finish u => exact ⟨h.trans ho, Or.inl (hquiet u)⟩

/-! ## The regions of `handleRead` -/

variable (srv) in
/-- How the look at what is buffered ends. -/
def Reads (c : AsyncConnection) : Outcome → Prop
  | .stop t => t.world.outstanding = c.world.outstanding ∨
      t.world.outstanding = c.world.outstanding ++ [.read] ∧ Trail InterimEvent c t ∧
        srv.spine.parseOneRequest t.itsBuffer = .incomplete ∨
      ∃ pool view, t.world.outstanding
        = c.world.outstanding ++ [.task pool (.handleCompletedRead view)] ∧
          t.world.socket ≠ .closed ∧ t.exchange.requests ≠ []
  | .reply _ t _ => t.world.outstanding = c.world.outstanding
  | .finish _ => False

/-- What a read does depends on the world of the connection only. -/
theorem Reads.behind {c c' : AsyncConnection} {x : Outcome} (h : Reads srv c' x)
    (hw : c'.world = c.world) : Reads srv c x := by
  cases x with
  | stop t =>
    rcases h with h | ⟨h, ht, hp⟩ | ⟨pool, view, h, hs⟩
    · exact Or.inl (h.trans (by rw [hw]))
    · exact Or.inr (Or.inl ⟨h.trans (by rw [hw]),
        ht.behind (by rw [hw]) (by rw [hw]; exact id), hp⟩)
    · exact Or.inr (Or.inr ⟨pool, view, h.trans (by rw [hw]), hs⟩)
  | reply m t books => exact (show t.world.outstanding = _ from h).trans (by rw [hw])
  | finish t => exact h

/-- A complete request is taken up, or answered at once. -/
theorem reads_handleParsedRequest (a : Answers) (c : AsyncConnection) :
    Reads srv c (Tail.handleParsedRequest srv a c) := by
  unfold Tail.handleParsedRequest
  dsimp only
  cases hip : resolveClientIP srv a (c.emit (.parsed c.itsRequest)) with
  | none => exact Or.inl rfl
  | some u =>
    obtain ⟨hs, ip, rfl⟩ := resolveClientIP_eq srv a hip
    dsimp only
    split
    · rfl
    unfold Tail.routeRequest
    split
    · rfl
    split
    · rfl
    dsimp only
    split
    · rfl
    have hparsed : c.exchange.requests ++ [c.itsRequest] ≠ [] := by simp
    unfold Tail.scheduleRequest
    split
    · split
      · exact Or.inr (Or.inr ⟨.fast, _, rfl, hs, hparsed⟩)
      · rfl
    · dsimp only
      split
      · exact Or.inr (Or.inr ⟨_, _, rfl, hs, hparsed⟩)
      · rfl

/-- An incomplete one is read on, or refused. -/
theorem reads_handleIncompleteRequest {a : Answers} {c : AsyncConnection}
    (hp : srv.spine.parseOneRequest c.itsBuffer = .incomplete) :
    Reads srv c (Tail.handleIncompleteRequest srv a c) := by
  have hst := stretch_handleIncompleteRequest srv a c
  unfold Tail.handleIncompleteRequest at hst ⊢
  split
  · rfl
  rename_i hend
  rw [if_neg hend] at hst
  -- reading goes on from a state with the same buffer
  have hread : ∀ u : AsyncConnection, u.world.outstanding = c.world.outstanding →
      Stretch InterimEvent c (startRead u) → Reads srv c (.stop (startRead u)) := by
    intro u ho ht
    refine Or.inr (Or.inl ⟨?_, ht.toTrail, ?_⟩)
    · show u.world.outstanding ++ [.read] = _
      rw [ho]
    · rw [ht.buffer]
      exact hp
  unfold Tail.handleExpectContinue at hst ⊢
  split
  · rename_i h
    rw [if_pos h] at hst
    exact hread _ rfl hst
  rename_i h1
  rw [if_neg h1] at hst
  dsimp only at hst ⊢
  split
  · rename_i h
    rw [if_pos h] at hst
    exact hread _ rfl hst
  rename_i h2
  rw [if_neg h2] at hst
  split
  · rename_i h
    rw [if_pos h] at hst
    exact hread _ rfl hst
  rename_i h3
  rw [if_neg h3] at hst
  split
  · rename_i h
    rw [if_pos h] at hst
    exact hread _ rfl hst
  rename_i h4
  rw [if_neg h4] at hst
  have hwrite : ∀ b : Bytes, (World.write c.world .interim b a.interimWrite).outstanding
      = c.world.outstanding := fun b => (World.write_delivers _ _ b _).outstanding
  split
  · rename_i h
    rw [if_pos h] at hst
    split
    · exact Or.inl (hwrite _)
    · rename_i herr
      rw [if_neg herr] at hst
      exact hread _ (hwrite _) hst
  · rfl

/-- The bytes that were read are looked at. -/
theorem reads_handleReadBytes (bytes : Bytes) (a : Answers) (c : AsyncConnection) :
    Reads srv c (Tail.handleReadBytes srv a bytes c) := by
  unfold Tail.handleReadBytes
  dsimp only
  split
  · rfl
  let d : AsyncConnection := { c with
    itsReceivedBytes := c.itsReceivedBytes + bytes.length
    itsBuffer := c.itsBuffer ++ bytes }
  suffices h : Reads srv d (Tail.parseBuffer srv a d) from h.behind rfl
  unfold Tail.parseBuffer
  dsimp only
  split
  · exact (reads_handleParsedRequest a _).behind rfl
  · rfl
  · rename_i hp
    exact reads_handleIncompleteRequest hp

variable (srv) in
/-- Nothing of that touches the timer. -/
theorem steady_handleReadBytes (bytes : Bytes) (a : Answers) (c : AsyncConnection) :
    Steady (fun o => (∃ r, o = .parsed r) ∨ PeerEvent o ∨ InterimEvent o) c
      (Tail.handleReadBytes srv a bytes c).state := by
  unfold Tail.handleReadBytes
  dsimp only
  split
  · exact Steady.silent rfl
  let d : AsyncConnection := { c with
    itsReceivedBytes := c.itsReceivedBytes + bytes.length
    itsBuffer := c.itsBuffer ++ bytes }
  refine (show Steady _ c d from Steady.silent rfl).trans ?_
  unfold Tail.parseBuffer
  dsimp only
  split
  · rename_i request consumed _
    let rest := (c.itsBuffer ++ bytes).drop consumed
    let u : AsyncConnection := { c with
      itsRequest := request, itsBuffer := rest, itsReceivedBytes := rest.length }
    have hu : Steady (fun o => (∃ r, o = .parsed r) ∨ PeerEvent o ∨ InterimEvent o) u
        (u.emit (.parsed request)) :=
      Steady.of_stretch (Stretch.emit u (Or.inl ⟨_, rfl⟩) fun _ => id)
    refine (show Steady _ d u from Steady.silent rfl).trans (hu.trans ?_)
    exact (Steady.of_stretch (stretch_handleParsedRequest srv a u)).mono fun _ ho =>
      Or.inr (Or.inl ho)
  · exact Steady.silent rfl
  · exact (Steady.of_stretch (stretch_handleIncompleteRequest srv a _)).mono fun _ ho =>
      Or.inr (Or.inr ho)

/-- An interim reply begins nothing. -/
theorem beginless_interim {o : Obs} (h : InterimEvent o) : o.Beginless := by
  rcases h with ⟨b, rfl⟩ | rfl
  · exact ⟨by simp, fun m c hw => (Obs.wrote.inj hw).1.symm⟩
  · exact ⟨by simp, by simp⟩

/-- It lies inside the exchange. -/
theorem inside_interim {o : Obs} (h : InterimEvent o) :
    o.Inner ∧ (∀ r, o ≠ .parsed r) ∧ ∀ r, o ≠ .dispatched r := by
  rcases h with ⟨b, rfl⟩ | rfl
  · simp [Obs.Inner]
  · simp [Obs.Inner]

/-- The exception that leaves `handleParsedRequest` begins and ends nothing. -/
theorem inside_peer {o : Obs} (h : PeerEvent o) :
    o.Beginless ∧ o.Inner ∧ ∀ r, o ≠ .dispatched r := by
  obtain rfl : o = .peerUnknown := h
  exact ⟨⟨by simp, by simp⟩, by simp [Obs.Inner], by simp⟩

/-- The look at what is buffered. -/
theorem Inv.readBytes {s : Threads} {bytes : Bytes} {a : Answers} (hr : s.running = [])
    (hs : Shared s.conn s.armed s.engaged) (ho : s.conn.world.outstanding = [])
    (hat : At s.conn s.armed s.engaged (.readBytes bytes a)) :
    Inv (s.outcome a (Tail.handleReadBytes srv a bytes s.conn)) := by
  obtain ⟨⟨hfresh, hquiet, harmed⟩, heng⟩ := hat
  have hst := steady_handleReadBytes srv bytes a s.conn
  have hreads := (reads_handleReadBytes bytes a s.conn : Reads srv s.conn _)
  generalize Tail.handleReadBytes srv a bytes s.conn = x at hst hreads
  have hq : Quiet x.state s.armed := by
    refine hquiet.trail hst.toTrail ?_
    rintro o (⟨r, rfl⟩ | ho | ho)
    · exact ⟨by simp, by simp⟩
    · exact (inside_peer ho).1
    · exact beginless_interim ho
  refine inv_outcome hr (hs.steady hst ?_ (Or.inl ?_) (Or.inr heng)) ?_
  · rintro o (⟨r, rfl⟩ | ho | ho)
    · simp [Obs.Inner]
    · exact (inside_peer ho).2.1
    · exact (inside_interim ho).1
  · rintro o (⟨r, rfl⟩ | ho | ho)
    · simp
    · exact (inside_peer ho).2.2
    · exact (inside_interim ho).2.2
  · cases x with
    | stop t =>
      rcases hreads with h | ⟨h, ht, -⟩ | ⟨pool, view, h, -⟩
      · exact Or.inl ⟨h.trans ho, Or.inl hq⟩
      · exact Or.inr ⟨.read, h.trans (by rw [ho]; rfl),
          fresh_trail hfresh ht fun o ho => ⟨(inside_interim ho).1.1, (inside_interim ho).2⟩,
          hq, harmed⟩
      · exact Or.inr ⟨.task pool (.handleCompletedRead view), h.trans (by rw [ho]; rfl), hq⟩
    | reply m t books => exact ⟨(show t.world.outstanding = _ from hreads).trans ho, hq⟩
    | finish t => exact absurd hreads id

/-! ## The other regions -/

/-- A new arming has a stamp of its own. -/
theorem Numbered.arm {stamps : List ℕ} {generation : ℕ} {armed : Option ℕ}
    (h : Numbered stamps generation armed) :
    Numbered ((generation + 1) :: stamps) (generation + 1) (some (generation + 1)) := by
  refine ⟨List.pairwise_cons.mpr ⟨fun g hg => ?_, h.decreasing⟩, fun g hg => ?_, fun g hg => hg⟩
  · exact Nat.lt_succ_of_le (h.bounded g hg)
  · rcases List.mem_cons.mp hg with rfl | hg
    · exact le_rfl
    · exact Nat.le_succ_of_le (h.bounded g hg)

/-- The timer is armed. -/
theorem Shared.arm {c : AsyncConnection} {armed : Option ℕ} {engaged : Bool}
    (h : Shared c armed engaged) (hd : c.exchange.dispatched = [])
    (hw : c.world.socket = .closed ∨ c.exchange.Unspoken) (n : ℕ) :
    Shared (armTimer n c) (some (armTimer n c).itsTimerGeneration) engaged := by
  refine ⟨?_, fun g hg => (Option.some.inj hg).symm, (by simp), h.idle, h.timedOut,
    fun hne => absurd hd hne, fun _ => Or.inr hw, h.numbered.arm⟩
  intro w hw
  rcases List.mem_cons.mp hw with rfl | hw
  · exact le_rfl
  · obtain ⟨w', hw', rfl⟩ := List.mem_map.mp hw
    exact Nat.le_succ_of_le (h.stamped w' hw')

/-- An armed timer rests until it fires. -/
theorem quiet_arm (c : AsyncConnection) (armed : Option ℕ) (n : ℕ) :
    Quiet (armTimer n c) armed := fun hbegun => by cases hbegun

/-- The timer is cancelled. -/
theorem Shared.cancel {c : AsyncConnection} {armed : Option ℕ} {engaged : Bool}
    (h : Shared c armed engaged) : Shared (cancelTimer c) none engaged := by
  have hold : ∀ w ∈ (cancelTimer c).world.waits, w.generation ≤ c.itsTimerGeneration := by
    intro w hw
    obtain ⟨w', hw', rfl⟩ := List.mem_map.mp hw
    exact h.stamped w' hw'
  exact ⟨fun w hw => Nat.le_succ_of_le (hold w hw), (by simp),
    fun _ w hw => Nat.lt_succ_of_le (hold w hw), h.idle, h.timedOut, fun _ => rfl,
    fun _ => Or.inl rfl, h.numbered.decreasing,
    fun g hg => Nat.le_succ_of_le (h.numbered.bounded g hg), (by simp)⟩

/-- A request that is being read has not been answered. -/
theorem Attentive.unspoken {c : AsyncConnection} {armed : Option ℕ} {engaged : Bool}
    (h : Attentive c armed) (hs : Shared c armed engaged) :
    c.world.socket = .closed ∨ c.exchange.Unspoken := by
  cases hb : begun c.world.trace with
  | true => exact Or.inl ((h.quiet hb).resolve_right h.armed)
  | false => exact (hs.unspoken hb).resolve_left h.armed

/-- The events of the books. -/
def BookEvent (o : Obs) : Prop := (∃ n, o = .streamLogged n) ∨ ∃ st, o = .backendFinished st

/-- The books are kept beside the timer. -/
theorem steady_keep (books : Books) (c : AsyncConnection) :
    Steady BookEvent c (books.keep c) ∧ (books.keep c).world.outstanding = c.world.outstanding ∧
      (books.keep c).itsBuffer = c.itsBuffer ∧ (books.keep c).itsKeepAlive = c.itsKeepAlive := by
  have hlog : ∀ c : AsyncConnection, Steady BookEvent c (finalizeStreamLogging c) ∧
      (finalizeStreamLogging c).world.outstanding = c.world.outstanding ∧
      (finalizeStreamLogging c).itsBuffer = c.itsBuffer ∧
      (finalizeStreamLogging c).itsKeepAlive = c.itsKeepAlive := by
    intro c
    unfold finalizeStreamLogging
    split
    · have hlogged : Steady BookEvent c (c.emit (.streamLogged c.itsTotalStreamedBytes)) :=
        Steady.of_stretch (Stretch.emit c (Or.inl ⟨_, rfl⟩) fun _ => id)
      exact ⟨hlogged.trans (Steady.silent rfl), rfl, rfl, rfl⟩
    · exact ⟨Steady.silent rfl, rfl, rfl, rfl⟩
  have hnotify : ∀ (st : StreamerStatus) (c : AsyncConnection),
      Steady BookEvent c (notifyBackendFinished st c) ∧
      (notifyBackendFinished st c).world.outstanding = c.world.outstanding ∧
      (notifyBackendFinished st c).itsBuffer = c.itsBuffer ∧
      (notifyBackendFinished st c).itsKeepAlive = c.itsKeepAlive := by
    intro st c
    unfold notifyBackendFinished
    split
    · exact ⟨Steady.silent rfl, rfl, rfl, rfl⟩
    · have hnotified : Steady BookEvent c (c.emit (.backendFinished st)) :=
        Steady.of_stretch (Stretch.emit c (Or.inr ⟨_, rfl⟩) fun _ => id)
      exact ⟨hnotified.trans (Steady.silent rfl), rfl, rfl, rfl⟩
  cases books with
  | none => exact ⟨Steady.silent rfl, rfl, rfl, rfl⟩
  | log => exact hlog c
  | logAndNotify st =>
    obtain ⟨h1, h2, h3, h4⟩ := hlog c
    obtain ⟨h1', h2', h3', h4'⟩ := hnotify (st _) (finalizeStreamLogging c)
    exact ⟨h1.trans h1', h2'.trans h2, h3'.trans h3, h4'.trans h4⟩

/-- An entry of the books begins nothing. -/
theorem beginless_book {o : Obs} (h : BookEvent o) : o.Beginless := by
  rcases h with ⟨n, rfl⟩ | ⟨st, rfl⟩
  · exact ⟨by simp, by simp⟩
  · exact ⟨by simp, by simp⟩

/-- It lies inside the exchange. -/
theorem inside_book {o : Obs} (h : BookEvent o) :
    o.Inner ∧ (∀ r, o ≠ .parsed r) ∧ ∀ r, o ≠ .dispatched r := by
  rcases h with ⟨n, rfl⟩ | ⟨st, rfl⟩
  · simp [Obs.Inner]
  · simp [Obs.Inner]

section Keep

variable {c : AsyncConnection} {armed : Option ℕ} {engaged : Bool}

/-- The shared members are the same behind the books, -/
theorem Shared.keep (h : Shared c armed engaged) (books : Books) :
    Shared (books.keep c) armed engaged := by
  obtain ⟨hst, -, hb, -⟩ := steady_keep books c
  exact h.steady hst (fun o ho => (inside_book ho).1)
    (Or.inl fun o ho => (inside_book ho).2.2) (Or.inl hb)

/-- the timer rests, -/
theorem Quiet.keep (h : Quiet c armed) (books : Books) : Quiet (books.keep c) armed :=
  h.trail (steady_keep books c).1.toTrail fun _ => beginless_book

/-- and what holds between the handlers holds. -/
theorem Settled.keep (h : Settled c armed) (books : Books) : Settled (books.keep c) armed := by
  rcases h with h | h
  · exact Or.inl (h.keep books)
  · exact Or.inr ((steady_keep books c).2.2.2.trans h)

end Keep

/-- A handler that returns with its books, leaving nothing outstanding. -/
theorem inv_leave {s : Threads} {c : AsyncConnection} (books : Books) (hr : s.running = [])
    (hs : Shared c s.armed s.engaged) (ho : c.world.outstanding = []) (hset : Settled c s.armed) :
    Inv (s.leave (books.keep c)) :=
  ⟨hs.keep books, Or.inl ⟨hr, (steady_keep books c).2.1.trans ho, hset.keep books⟩⟩

/-- The events of a synchronous write of a reply. -/
def WriteEvent (m : Message) (o : Obs) : Prop :=
  (∃ r head, o = .rendered m r head) ∨ (∃ b, o = .wrote m b) ∨ o = .writeError m

/-- A blocking write lies inside the exchange. -/
theorem inside_write {m : Message} {o : Obs} (h : WriteEvent m o) :
    o.Inner ∧ ∀ r, o ≠ .dispatched r := by
  rcases h with ⟨r, head, rfl⟩ | ⟨b, rfl⟩ | rfl
  · simp [Obs.Inner]
  · simp [Obs.Inner]
  · simp [Obs.Inner]

/-- A blocking write is a stretch of its own events, -/
theorem stretch_write (m : Message) (b : Bytes) (o : WriteOutcome) (c : AsyncConnection) :
    Stretch (WriteEvent m) c (AsyncConnection.write m b o c) :=
  Stretch.write c b o (fun d => Or.inr (Or.inl ⟨d, rfl⟩)) (Or.inr (Or.inr rfl))

/-- so is that of a header section, -/
theorem stretch_writeHead (a : Answers) (m : Message) (head : Bytes) (c : AsyncConnection) :
    Stretch (WriteEvent m) c (writeHead a m head c) :=
  (Stretch.emit c (Or.inl ⟨_, _, rfl⟩) fun _ => id).trans (stretch_write m head _ _)

/-- and that of the content. -/
theorem stretch_writeContent (a : Answers) (m : Message) (bytes : Bytes) (c : AsyncConnection) :
    Stretch (WriteEvent m) c (writeContent a m bytes c) :=
  (stretch_write m bytes a.contentWrite c).trans (Stretch.silent rfl)

/-- A write of a reply of the server's own. -/
theorem inv_write {s : Threads} {m : Message} {c' : AsyncConnection} {r : Rest}
    (hr : s.running = []) (hs : Shared s.conn s.armed s.engaged)
    (ho : c'.world.outstanding = []) (hst : Stretch (WriteEvent m) s.conn c')
    (hat : At c' s.armed s.engaged r) : Inv (s.next c' r) := by
  refine ⟨hs.steady (Steady.of_stretch hst) (fun o h => (inside_write h).1)
    (Or.inl fun o h => (inside_write h).2) (Or.inl hst.buffer), Or.inr (Or.inl ⟨r, ?_, ho, hat⟩)⟩
  show s.running ++ [r] = [r]
  rw [hr]
  rfl

/-- A region in which the response of a handler is answered for. -/
theorem inv_answer {A : Obs → Prop} {M : Message → Prop} {s : Threads} {a : Answers} {x : Outcome}
    (hr : s.running = []) (hs : Shared s.conn s.armed s.engaged)
    (ho : s.conn.world.outstanding = []) (hd : s.conn.exchange.dispatched ≠ [])
    (hst : Stretch A s.conn x.state) (hA : ∀ o, A o → o.Inner) (hx : x.Replies M s.conn) :
    Inv (s.outcome a x) := by
  have harmed := hs.busy hd
  refine inv_outcome hr (hs.steady (Steady.of_stretch hst) hA (Or.inr harmed) (Or.inl hst.buffer)) ?_
  exact lands_of_replies hx ho harmed (dispatched_trail hd hst.toTrail fun o h => (hA o h).1)

/-- A getter lies inside the exchange, -/
theorem inner_of_getterEvent {p : Prop} {o : Obs} (h : GetterEvent srv p o) : o.Inner := by
  refine ⟨?_, fun g n => ?_⟩
  · rintro rfl
    rcases h with h | ⟨h, -⟩
    · exact h
    · cases h
  · rintro rfl
    rcases h with h | ⟨h, -⟩
    · exact h
    · cases h

/-- so does the writing of its chunk, -/
theorem inner_of_chunkEvent {p : Prop} {o : Obs} (h : ChunkEvent p o) : o.Inner := by
  refine ⟨?_, fun g n => ?_⟩
  · rintro rfl
    exact h.elim id fun h => nomatch h.1
  · rintro rfl
    exact h.elim id fun h => nomatch h.1

/-- and the call of the handler. -/
theorem inner_of_handlerEvent {a : Answers} {o : Obs} (h : HandlerEvent srv a o) : o.Inner := by
  rcases h with h | ⟨_, rfl⟩ | ⟨_, rfl⟩ | ⟨_, rfl⟩ | ⟨_, rfl⟩
  · exact inner_of_getterEvent h
  · simp [Obs.Inner]
  · simp [Obs.Inner]
  · simp [Obs.Inner]
  · simp [Obs.Inner]

/-- **A region keeps the invariant.** -/
theorem Inv.region {s : Threads} {r : Rest} (hr : s.running = [])
    (hs : Shared s.conn s.armed s.engaged) (ho : s.conn.world.outstanding = [])
    (hat : At s.conn s.armed s.engaged r) : Inv (region srv s r) := by
  have hnext : ∀ r : Rest, s.running ++ [r] = [r] := fun r => by
    rw [hr]
    rfl
  have hawait : ∀ y, (s.conn.await y).world.outstanding = [y] := fun y => by
    show s.conn.world.outstanding ++ [y] = [y]
    rw [ho]
    rfl
  cases r with
  | beginReading =>
    show Inv (s.leave (if srv.itsEncryptionEnabled then s.conn.await .handshake
      else startRead s.conn))
    split
    · exact ⟨⟨hs.1, hs.2, hs.3, hs.4, hs.5, hs.6, hs.7, hs.8⟩, Or.inr (Or.inr
        ⟨.handshake, hr, hawait _, Attentive.agree hat rfl rfl⟩)⟩
    · exact ⟨⟨hs.1, hs.2, hs.3, hs.4, hs.5, hs.6, hs.7, hs.8⟩, Or.inr (Or.inr
        ⟨.read, hr, hawait _, Attentive.agree hat rfl rfl⟩)⟩
  | armForRequest bytes a =>
    obtain ⟨hatt, heng⟩ := hat
    exact ⟨hs.arm hatt.fresh.2 (hatt.unspoken hs) _, Or.inr (Or.inl ⟨_, hnext _, ho,
      ⟨hatt.fresh, quiet_arm _ _ _, Option.some_ne_none _⟩, heng⟩)⟩
  | readBytes bytes a => exact Inv.readBytes hr hs ho hat
  | callHandler a =>
    have hquiet : Quiet s.conn s.armed := fun _ => Or.inr hat
    show Inv (if s.conn.itsPrematurelyDisconnected then s
      else if s.conn.world.socket = .closed then s else _)
    split
    · exact ⟨hs, Or.inl ⟨hr, ho, Or.inl hquiet⟩⟩
    · split
      · exact ⟨hs, Or.inl ⟨hr, ho, Or.inl hquiet⟩⟩
      · rename_i hsock
        have hst := stretch_called srv a hsock
        refine ⟨hs.steady (Steady.of_stretch hst) (fun o => inner_of_handlerEvent)
          (Or.inr hat) (Or.inl rfl), Or.inr (Or.inl ⟨_, hnext _, ho, ?_⟩)⟩
        show (s.conn.exchange.dispatched ++ [s.conn.itsRequest]) ≠ []
        simp
  | inHandler a =>
    exact inv_answer hr hs ho hat (stretch_returnFromHandler srv a s.conn)
      (fun o => inner_of_handlerEvent) (replies_returnFromHandler srv a s.conn)
  | written handler e n a =>
    exact inv_answer hr hs ho hat (stretch_runWriteHandler srv a handler e n s.conn)
      (fun o => inner_of_chunkEvent) (replies_runWriteHandler srv a handler e n s.conn)
  | head m books a =>
    unfold Threads.region
    dsimp only
    cases headersToString srv.spine s.conn.itsResponse with
    | none => exact inv_leave books hr hs ho (Or.inl hat)
    | some head =>
      exact inv_write hr hs ((World.write_delivers _ _ _ _).outstanding.trans ho)
        (stretch_writeHead a m head s.conn) trivial
  | content m bytes books a =>
    exact inv_write hr hs ((World.write_delivers _ _ _ _).outstanding.trans ho)
      (stretch_writeContent a m bytes s.conn) trivial
  | settle books =>
    show Inv (if s.conn.itsKeepAlive then s.next s.conn (.finish books)
      else s.leave (books.keep (closeSocket s.conn)))
    split
    · rename_i hk
      exact ⟨hs, Or.inr (Or.inl ⟨_, hnext _, ho, Or.inr hk⟩)⟩
    · exact inv_leave books hr
        ⟨hs.1, hs.2, hs.3, hs.4, fun _ => rfl, hs.6, fun _ => Or.inr (Or.inl rfl), hs.8⟩ ho
        (Or.inl fun _ => Or.inl rfl)
  | finish books =>
    show Inv (if mayReuse s.conn then _ else s.leave (books.keep s.conn))
    split
    · have hempty : Exchange.Unspoken {} := fun p hp => by cases hp
      refine ⟨⟨hs.1, hs.2, hs.3, ?_, hs.5, fun hd => absurd rfl hd,
        fun _ => Or.inr (Or.inr hempty), hs.8⟩,
        Or.inr (Or.inl ⟨.armNext books, hnext _, ho, ⟨rfl, rfl⟩, Or.inr hempty⟩)⟩
      show s.conn.itsBuffer.isEmpty = true ↔ _
      rw [List.isEmpty_iff]
      exact ⟨fun hb => ⟨List.cons_ne_nil _ _, hb, rfl⟩, fun hb => hb.2.1⟩
    · exact inv_leave books hr hs ho hat
  | armNext books =>
    obtain ⟨hfresh, hwire⟩ := hat
    exact ⟨hs.arm hfresh.2 hwire _, Or.inr (Or.inl ⟨.resume books, hnext _, ho,
      hfresh, quiet_arm _ _ _, Option.some_ne_none _⟩)⟩
  | resume books =>
    obtain ⟨hfresh, hquiet, harmed⟩ := hat
    -- the books of a response that was re-armed
    have hkeep : ∀ y, (∀ c, During c s.armed y ↔ Attentive c s.armed) →
        Inv (s.leave (books.keep (s.conn.await y))) := by
      intro y hiff
      obtain ⟨hst, hout, hb, -⟩ := steady_keep books (s.conn.await y)
      have hs' : Shared (s.conn.await y) s.armed s.engaged :=
        ⟨hs.1, hs.2, hs.3, hs.4, hs.5, hs.6, hs.7, hs.8⟩
      refine ⟨hs'.keep books,
        Or.inr (Or.inr ⟨y, hr, hout.trans (hawait y), (hiff _).mpr ⟨?_, ?_, harmed⟩⟩)⟩
      · exact fresh_trail (c := s.conn.await y) hfresh hst.toTrail fun o h =>
          ⟨(inside_book h).1.1, (inside_book h).2⟩
      · exact Quiet.keep (c := s.conn.await y) hquiet books
    show Inv (s.leave (books.keep (resumeReading s.conn)))
    unfold resumeReading
    split
    · exact hkeep .read fun _ => Iff.rfl
    · exact hkeep (.handleRead []) fun _ => Iff.rfl

/-! ## The steps -/

/-- The handler of an outstanding activity is called by no second thread. -/
theorem Position.released {s : Threads} (h : Position s) {i : ℕ} {y : Activity}
    (hi : s.conn.world.outstanding[i]? = some y) :
    s.running = [] ∧ (s.conn.release i).world.outstanding = [] ∧ During s.conn s.armed y := by
  rcases h with ⟨-, ho, -⟩ | ⟨_, -, ho, -⟩ | ⟨z, hr, ho, hd⟩
  · rw [ho] at hi
    simp at hi
  · rw [ho] at hi
    simp at hi
  · rw [ho] at hi
    obtain ⟨rfl, rfl⟩ : i = 0 ∧ z = y := by
      cases i with
      | zero => exact ⟨rfl, Option.some.inj hi⟩
      | succ k => simp at hi
    refine ⟨hr, ?_, hd⟩
    show s.conn.world.outstanding.eraseIdx 0 = []
    rw [ho]
    rfl

/-- An activity that completes leaves the shared members alone. -/
theorem Shared.released {c : AsyncConnection} {armed : Option ℕ} {engaged : Bool}
    (h : Shared c armed engaged) (i : ℕ) : Shared (c.release i) armed engaged :=
  ⟨h.1, h.2, h.3, h.4, h.5, h.6, h.7, h.8⟩

/-- So does it with what is known while a task is outstanding. -/
theorem During.released {c : AsyncConnection} {armed : Option ℕ} {pool : Pool} {task : Task}
    (h : During c armed (.task pool task)) (i : ℕ) :
    During (c.release i) armed (.task pool task) := by
  cases task with
  | handleCompletedRead view => exact h
  | getNextChunk => exact h
  | getNextChunkedChunk => exact h

/-- `handleRead`, up to the exchange of `itsIdle`. -/
theorem Inv.enterRead {s : Threads} {bytes : Bytes} {a : Answers} (hr : s.running = [])
    (hs : Shared s.conn s.armed s.engaged) (ho : s.conn.world.outstanding = [])
    (hatt : Attentive s.conn s.armed) : Inv (enterRead srv bytes a s) := by
  unfold Threads.enterRead
  dsimp only
  split
  · exact inv_outcome hr ⟨hs.1, hs.2, hs.3, hs.4, hs.5, hs.6, hs.7, hs.8⟩ ⟨ho, hatt.quiet⟩
  · have hshared : Shared { s.conn with itsFinalStatus := .success, itsIdle := false } s.armed
        true := ⟨hs.1, hs.2, hs.3, ⟨(by simp), fun h => absurd h.2.2 (by simp)⟩, hs.5, hs.6,
        hs.7, hs.8⟩
    refine ⟨hshared, Or.inr (Or.inl ⟨_, by show s.running ++ _ = _; rw [hr]; rfl, ho, ?_⟩)⟩
    split
    · exact ⟨⟨hatt.1, hatt.2, hatt.3⟩, rfl⟩
    · exact ⟨⟨hatt.1, hatt.2, hatt.3⟩, rfl⟩

/-- `handleRead` behind a read that failed. -/
theorem Inv.readFailed {s : Threads} {e : ErrorCode} {a : Answers} (hr : s.running = [])
    (hs : Shared s.conn s.armed s.engaged) (ho : s.conn.world.outstanding = [])
    (hquiet : Quiet s.conn s.armed) (he : e ≠ .success) :
    Inv (s.outcome a (Tail.handleRead srv a e [] s.conn)) := by
  unfold Tail.handleRead
  dsimp only
  split
  · exact inv_outcome hr ⟨hs.1, hs.2, hs.3, hs.4, hs.5, hs.6, hs.7, hs.8⟩ ⟨ho, hquiet⟩
  · exact inv_outcome hr ⟨hs.1, hs.2, hs.3, hs.4, hs.5, hs.6, hs.7, hs.8⟩ (Or.inl ⟨ho, Or.inl hquiet⟩)

/-- The end of the handshake. -/
theorem Inv.handshake {s : Threads} (ok : Bool) (hr : s.running = [])
    (hs : Shared s.conn s.armed s.engaged) (ho : s.conn.world.outstanding = [])
    (hatt : Attentive s.conn s.armed) : Inv (s.leave (handleHandshake ok s.conn)) := by
  unfold handleHandshake
  split
  · have hshared : Shared (startRead s.conn) s.armed s.engaged :=
      ⟨hs.1, hs.2, hs.3, hs.4, hs.5, hs.6, hs.7, hs.8⟩
    refine ⟨hshared, Or.inr (Or.inr ⟨.read, hr, ?_, hatt.agree rfl rfl⟩)⟩
    show s.conn.world.outstanding ++ [.read] = _
    rw [ho]
    rfl
  · have hshared : Shared (closeSocket s.conn) s.armed s.engaged :=
      ⟨hs.1, hs.2, hs.3, hs.4, fun _ => rfl, hs.6, fun _ => Or.inr (Or.inl rfl), hs.8⟩
    exact ⟨hshared, Or.inl ⟨hr, ho, Or.inl fun _ => Or.inl rfl⟩⟩

/-- Bytes of the client have arrived. -/
theorem Inv.receive {s : Threads} (bytes : Bytes) (hr : s.running = [])
    (hs : Shared s.conn s.armed s.engaged) (ho : s.conn.world.outstanding = [])
    (hatt : Attentive s.conn s.armed) :
    Inv (s.leave ((s.conn.emit (.received bytes)).await (.handleRead bytes))) := by
  let c := (s.conn.emit (.received bytes)).await (.handleRead bytes)
  have hst : Steady (fun o => o = .received bytes) s.conn c :=
    ⟨⟨⟨[.received bytes], rfl, by simp [Outward]⟩, id⟩, rfl, rfl, rfl, rfl⟩
  have hshared : Shared c s.armed s.engaged := by
    refine hs.steady hst ?_ (Or.inl ?_) (Or.inl rfl)
    · rintro o rfl
      simp [Obs.Inner]
    · rintro o rfl
      simp
  have hattentive : Attentive c s.armed := by
    refine ⟨fresh_trail hatt.fresh hst.toTrail ?_, hatt.quiet.trail hst.toTrail ?_, hatt.armed⟩
    · rintro o rfl
      simp
    · rintro o rfl
      exact ⟨by simp, by simp⟩
  refine ⟨hshared, Or.inr (Or.inr ⟨.handleRead bytes, hr, ?_, hattentive⟩)⟩
  show s.conn.world.outstanding ++ [.handleRead bytes] = _
  rw [ho]
  rfl

/-- A task is taken out of its pool. -/
theorem Inv.takeTask {s : Threads} {a : Answers} {pool : Pool} {task : Task}
    (hr : s.running = []) (hs : Shared s.conn s.armed s.engaged)
    (ho : s.conn.world.outstanding = []) (hd : During s.conn s.armed (.task pool task)) :
    Inv (takeTask srv a s task) := by
  cases task with
  | handleCompletedRead view =>
    -- the timer is cancelled, and the thread goes on to the plugin without `itsMutex`
    refine ⟨hs.cancel, Or.inr (Or.inl ⟨.callHandler a, ?_, ho, rfl⟩)⟩
    show s.running ++ _ = _
    rw [hr]
    rfl
  | getNextChunk =>
    exact inv_answer hr hs ho hd (stretch_getNextChunk srv a _) (fun o => inner_of_chunkEvent)
      (replies_getNextChunk srv a _)
  | getNextChunkedChunk =>
    exact inv_answer hr hs ho hd (stretch_getNextChunkedChunk srv a _)
      (fun o => inner_of_chunkEvent) (replies_getNextChunkedChunk srv a _)

/-- A write of a response has ended, in one way or another. -/
theorem Inv.written {s : Threads} {c : AsyncConnection} {handler : WriteHandler} {e : ErrorCode}
    {n : ℕ} {a : Answers} (hr : s.running = []) (hs : Shared c s.armed s.engaged)
    (ho : c.world.outstanding = []) (hd : c.exchange.dispatched ≠ []) :
    Inv (s.next c (.written handler e n a)) := by
  refine ⟨hs, Or.inr (Or.inl ⟨.written handler e n a, ?_, ho, hd⟩)⟩
  show s.running ++ _ = _
  rw [hr]
  rfl

/-- A write that succeeds leaves the shared members alone, -/
theorem Shared.wrote {c : AsyncConnection} {armed : Option ℕ} {engaged : Bool}
    (h : Shared c armed engaged) (hd : c.exchange.dispatched ≠ []) (bytes : Bytes) :
    Shared (c.emit (.wrote .handler bytes)) armed engaged :=
  ⟨h.1, h.2, h.3, h.4, h.5, h.6, fun _ => Or.inl (h.busy hd), h.8⟩

/-- and so does one that fails: a connection that timed out is closed already. -/
theorem Shared.failWrite {c : AsyncConnection} {armed : Option ℕ} {engaged : Bool}
    (h : Shared c armed engaged) (hd : c.exchange.dispatched ≠ []) :
    Shared c.failWrite armed engaged := by
  refine ⟨h.1, h.2, h.3, h.4, ?_, h.6, fun _ => Or.inl (h.busy hd), h.8⟩
  intro ht
  show (if c.world.socket = .open then SocketState.broken else c.world.socket) = _
  rw [h.timedOut ht]
  rfl

/-- **An event keeps the invariant.** -/
theorem Inv.call {s t : Threads} {e : Event} (h : Inv s) (hcall : s.call srv e = some t) :
    Inv t := by
  obtain ⟨hs, hpos⟩ := h
  -- the handler of the event is called on what is left when its activity is done
  have hleft : ∀ i, Shared (s.leave (s.conn.release i)).conn s.armed s.engaged := hs.released
  cases e with
  | handshake i ok =>
    simp only [Threads.call, AsyncConnection.step] at hcall
    split at hcall
    · rename_i hi
      obtain rfl := Option.some.inj hcall
      obtain ⟨hr, ho, hatt⟩ := hpos.released hi
      exact Inv.handshake (s := s.leave (s.conn.release i)) ok hr (hleft i) ho (hatt.agree rfl rfl)
    · cases hcall
  | receive i bytes =>
    simp only [Threads.call, AsyncConnection.step] at hcall
    split at hcall
    · rename_i hi
      split at hcall
      · obtain rfl := Option.some.inj hcall
        obtain ⟨hr, ho, hatt⟩ := hpos.released hi
        exact Inv.receive (s := s.leave (s.conn.release i)) bytes hr (hleft i) ho
          (hatt.agree rfl rfl)
      · cases hcall
    · cases hcall
  | readFails i err a =>
    simp only [Threads.call] at hcall
    split at hcall
    · rename_i hi
      split at hcall
      · rename_i herr
        obtain rfl := Option.some.inj hcall
        obtain ⟨hr, ho, hatt⟩ := hpos.released hi
        exact Inv.readFailed (s := s.leave (s.conn.release i)) hr (hleft i) ho hatt.quiet herr
      · cases hcall
    · cases hcall
  | runRead i a =>
    simp only [Threads.call] at hcall
    split at hcall
    · rename_i bytes hi
      obtain rfl := Option.some.inj hcall
      obtain ⟨hr, ho, hatt⟩ := hpos.released hi
      exact Inv.enterRead (s := s.leave (s.conn.release i)) hr (hleft i) ho (hatt.agree rfl rfl)
    · cases hcall
  | runTask i a =>
    simp only [Threads.call] at hcall
    split at hcall
    · rename_i pool task hi
      obtain rfl := Option.some.inj hcall
      obtain ⟨hr, ho, hd⟩ := hpos.released hi
      exact Inv.takeTask (s := s.leave (s.conn.release i)) hr (hleft i) ho (hd.released i)
    · cases hcall
  | writeSome i n a =>
    simp only [Threads.call] at hcall
    split at hcall
    · rename_i handler buffer hi
      split at hcall
      · obtain rfl := Option.some.inj hcall
        obtain ⟨hr, ho, hd⟩ := hpos.released hi
        exact Inv.written hr ((hs.released i).wrote hd _) ho hd
      · cases hcall
    · cases hcall
  | writeFails i a =>
    simp only [Threads.call] at hcall
    split at hcall
    · obtain rfl := Option.some.inj hcall
      rename_i hi
      obtain ⟨hr, ho, hd⟩ := hpos.released hi
      exact Inv.written hr ((hs.released i).failWrite hd) ho hd
    · cases hcall
  | timerExpires =>
    simp only [Threads.call, AsyncConnection.step] at hcall
    split at hcall
    · obtain rfl := Option.some.inj hcall
      refine Inv.beside ⟨hs, hpos⟩ ⟨rfl, ?_, rfl, rfl, rfl, rfl, rfl, rfl, Or.inl,
        Or.inl ⟨rfl, rfl, rfl⟩, rfl⟩
      intro w' hw'
      obtain ⟨w, hw, rfl⟩ := List.mem_map.mp hw'
      exact ⟨w, hw, rfl⟩
    · cases hcall
  | runTimer generation a =>
    simp only [Threads.call] at hcall
    obtain ⟨c', hc', rfl⟩ := Option.map_eq_some_iff.mp hcall
    exact Inv.runTimer ⟨hs, hpos⟩ hc'
  | requestShutdown =>
    obtain rfl := Option.some.inj hcall
    exact Inv.beside ⟨hs, hpos⟩ ⟨rfl, fun w hw => ⟨w, hw, rfl⟩, rfl, rfl, rfl, rfl, rfl, rfl,
      Or.inl, Or.inl ⟨rfl, rfl, rfl⟩, rfl⟩

/-- A thread goes on only where it is the only one. -/
theorem Position.going {s : Threads} (h : Position s) {i : ℕ} {r : Rest}
    (hi : s.running[i]? = some r) : s.running.eraseIdx i = [] ∧
      s.conn.world.outstanding = [] ∧ At s.conn s.armed s.engaged r := by
  rcases h with ⟨hr, -⟩ | ⟨z, hr, ho, hat⟩ | ⟨_, hr, -⟩
  · rw [hr] at hi
    simp at hi
  · rw [hr] at hi
    obtain ⟨rfl, rfl⟩ : i = 0 ∧ z = r := by
      cases i with
      | zero => exact ⟨rfl, Option.some.inj hi⟩
      | succ k => simp at hi
    exact ⟨by rw [hr]; rfl, ho, hat⟩
  · rw [hr] at hi
    simp at hi

/-- **A step keeps the invariant.** -/
theorem Inv.step {s t : Threads} {e : ThreadEvent} (h : Inv s) (hstep : step srv s e = some t) :
    Inv t := by
  cases e with
  | handler e => exact h.call hstep
  | go i =>
    simp only [Threads.step] at hstep
    split at hstep
    · rename_i r hi
      obtain rfl := Option.some.inj hstep
      obtain ⟨hr, ho, hat⟩ := h.2.going hi
      exact Inv.region (s := { s with running := s.running.eraseIdx i }) hr h.1 ho hat
    · cases hstep

variable (srv) in
/-- The invariant holds of a connection that has just been started, -/
theorem inv_start : Inv (start srv) := by
  refine ⟨⟨?_, fun g hg => (Option.some.inj hg).symm, (by rintro ⟨⟩), ?_,
    (by rintro ⟨⟩), fun hd => absurd rfl hd,
    fun _ => Or.inr (Or.inr fun p hp => by cases hp), ?_⟩,
    Or.inr (Or.inl ⟨.beginReading, rfl, rfl, ⟨rfl, rfl⟩, (by rintro ⟨⟩), Option.some_ne_none _⟩)⟩
  · intro w hw
    obtain rfl := List.mem_singleton.mp hw
    exact le_rfl
  · exact ⟨(by rintro ⟨⟩), fun h => absurd rfl h.1⟩
  · exact ⟨List.pairwise_singleton _ _, fun g hg => le_of_eq (List.mem_singleton.mp hg),
      fun g hg => hg⟩

/-- and in every state the threads reach. -/
theorem inv_run {s : Threads} {es : List ThreadEvent} (hrun : runFrom srv (start srv) es = some s) :
    Inv s :=
  Transition.run_preserves (P := Inv) (fun _ _ _ h hstep => h.step hstep) (inv_start srv) hrun

end Threads

end SmartMet
