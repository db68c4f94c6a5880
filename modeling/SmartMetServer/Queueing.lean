/-
# Requests that wait for a pool thread

A 408 says that the request has not arrived in time.  The timer of a request is
cancelled when a pool thread takes up its task, and not when the request is
complete: while a request waits in a queue its timer runs on.

What is shown here is about the runs in which no expiry counts for a request that
is complete.
-/
import SmartMetServer.Timeouts

namespace SmartMet

open AsyncConnection

/-- More bytes of the client are awaited. -/
def Activity.listens : Activity → Bool
  | .handshake => true
  | .read => true
  | _ => false

/-- A thread under way is about to await bytes of the client. -/
def Rest.listens : Rest → Bool
  | .beginReading => true
  | _ => false

/-- A parsed request waits for its handler. -/
def Activity.queued : Activity → Bool
  | .task _ (.handleCompletedRead _) => true
  | _ => false

/-- A thread under way is about to call the handler. -/
def Rest.queued : Rest → Bool
  | .callHandler _ => true
  | _ => false

/-- The bytes a call of `handleRead` under way brings. -/
def Rest.unread : Rest → Bytes
  | .armForRequest bytes _ => bytes
  | .readBytes bytes _ => bytes
  | _ => []

namespace Threads

variable (srv : Server)

/-- The bytes that were received and not looked at yet. -/
def unread (s : Threads) : Bytes := s.conn.unread ++ s.running.flatMap Rest.unread

/-- The request has been received completely: it was parsed, or is at hand. -/
def Received (s : Threads) : Prop :=
  s.conn.exchange.requests ≠ [] ∨
    ∃ r n, srv.spine.parseOneRequest (s.conn.itsBuffer ++ s.unread) = .complete r n

/-- The connection awaits bytes of the client, or a thread is about to. -/
def Listening (s : Threads) : Prop :=
  (∃ r ∈ s.running, r.listens = true) ∨ ∃ y ∈ s.conn.world.outstanding, y.listens = true

/-- A parsed request waits for its handler. -/
def Queued (s : Threads) : Prop :=
  (∃ r ∈ s.running, r.queued = true) ∨ ∃ y ∈ s.conn.world.outstanding, y.queued = true

/-- A timer expiry counts, on a connection that is neither idle nor closed, for a
request that has been received completely and waits: for the call of `handleRead`
that finds it, for a pool thread, for the end of a reply of the server's own, or for
nothing since it was dropped. -/
def FiresOnReceived (s : Threads) : ThreadEvent → Prop
  | .handler (.runTimer generation _) =>
    Acts s.conn generation ∧ s.conn.itsIdle = false ∧ s.conn.world.socket ≠ .closed ∧
      ¬ Listening s ∧ Received srv s
  | _ => False

/-- The timer answers requests that are not complete, and a pool thread that takes up
a task calls the handler unless the client has gone. -/
def TimeoutIncomplete (s : Threads) (e : ThreadEvent) : Prop :=
  (∀ generation a t, e = .handler (.runTimer generation a) → step srv s e = some t →
    SendsTimeout s t → ¬ Received srv s) ∧
  ∀ i a t, e = .go i → s.running[i]? = some (.callHandler a) → step srv s e = some t →
    s.conn.itsPrematurelyDisconnected = true ∨ t.conn.exchange.dispatched ≠ []

/-! ## What is kept while no expiry counts for a complete request -/

/-- Who awaits bytes has no complete request at hand; who awaits a handler has an
open connection. -/
structure Kept (s : Threads) : Prop where
  listening : Listening s → ∀ r n, srv.spine.parseOneRequest s.conn.itsBuffer ≠ .complete r n
  queued : Queued s →
    s.conn.exchange.requests ≠ [] ∧ s.engaged = true ∧ s.conn.world.socket ≠ .closed

variable {srv}

/-- A thread in front of another region. -/
theorem kept_running {s : Threads} {r : Rest} (hr : s.running = [r])
    (ho : s.conn.world.outstanding = []) (hl : r.listens = false) (hq : r.queued = false) :
    Kept srv s := by
  refine ⟨?_, ?_⟩
  · intro h
    simp [Listening, hr, ho, hl] at h
  · intro h
    simp [Queued, hr, ho, hq] at h

/-- Nothing is under way. -/
theorem kept_over {s : Threads} (hr : s.running = []) (ho : s.conn.world.outstanding = []) :
    Kept srv s := by
  refine ⟨?_, ?_⟩
  · intro h
    simp [Listening, hr, ho] at h
  · intro h
    simp [Queued, hr, ho] at h

/-- An activity is outstanding. -/
theorem kept_outstanding {s : Threads} {y : Activity} (hr : s.running = [])
    (ho : s.conn.world.outstanding = [y])
    (hl : y.listens = true → ∀ r n, srv.spine.parseOneRequest s.conn.itsBuffer ≠ .complete r n)
    (hq : y.queued = true →
      s.conn.exchange.requests ≠ [] ∧ s.engaged = true ∧ s.conn.world.socket ≠ .closed) :
    Kept srv s := by
  refine ⟨?_, ?_⟩
  · intro h
    exact hl (by simpa [Listening, hr, ho] using h)
  · intro h
    exact hq (by simpa [Queued, hr, ho] using h)

theorem not_listens_of_answers {y : Activity} (h : y.Answers) :
    y.listens = false ∧ y.queued = false := by
  rcases y with _ | _ | bytes | ⟨pool, _ | _ | _⟩ | ⟨handler, buffer⟩
  · exact absurd h id
  · exact absurd h id
  · exact absurd h id
  · exact absurd h id
  · exact ⟨rfl, rfl⟩
  · exact ⟨rfl, rfl⟩
  · exact ⟨rfl, rfl⟩

/-- The end of a region of the reply paths. -/
theorem kept_replies {M : Message → Prop} {s : Threads} {a : Answers} {x : Outcome}
    (h : x.Replies M s.conn) (hr : s.running = []) (ho : s.conn.world.outstanding = []) :
    Kept srv (s.outcome a x) := by
  have hnext : ∀ r : Rest, s.running ++ [r] = [r] := fun r => by
    rw [hr]
    rfl
  cases x with
  | stop c =>
    rcases h with h | ⟨y, hy, h⟩
    · exact kept_over hr (h.trans ho)
    · obtain ⟨hl, hq⟩ := not_listens_of_answers hy
      refine kept_outstanding hr (h.trans (by rw [ho]; rfl)) ?_ ?_
      · rw [hl]
        rintro ⟨⟩
      · rw [hq]
        rintro ⟨⟩
  | reply m c books => exact kept_running (hnext _) (h.2.trans ho) rfl rfl
  | finish c => exact kept_running (hnext _) (h.trans ho) rfl rfl

/-- The end of a call of `handleRead`. -/
theorem kept_reads {s : Threads} {a : Answers} {x : Outcome} (h : Reads srv s.conn x)
    (hr : s.running = []) (ho : s.conn.world.outstanding = []) (heng : s.engaged = true) :
    Kept srv (s.outcome a x) := by
  have hnext : ∀ r : Rest, s.running ++ [r] = [r] := fun r => by
    rw [hr]
    rfl
  cases x with
  | stop c =>
    rcases h with h | ⟨h, -, hp⟩ | ⟨pool, view, h, hsock, hreq⟩
    · exact kept_over hr (h.trans ho)
    · refine kept_outstanding (y := .read) hr (h.trans (by rw [ho]; rfl)) (fun _ r n hc => ?_)
        (by rintro ⟨⟩)
      rw [show srv.spine.parseOneRequest c.itsBuffer = .complete r n from hc] at hp
      cases hp
    · exact kept_outstanding (y := .task pool (.handleCompletedRead view)) hr
        (h.trans (by rw [ho]; rfl)) (by rintro ⟨⟩) fun _ => ⟨hreq, heng, hsock⟩
  | reply m c books =>
    exact kept_running (hnext _) ((show c.world.outstanding = _ from h).trans ho) rfl rfl
  | finish c => exact absurd h id

/-- **A region keeps it.** -/
theorem Kept.region {s : Threads} {r : Rest}
    (hempty : ∀ q n, srv.spine.parseOneRequest [] ≠ .complete q n)
    (h : r.listens = true → ∀ q n, srv.spine.parseOneRequest s.conn.itsBuffer ≠ .complete q n)
    (hr : s.running = []) (ho : s.conn.world.outstanding = [])
    (hat : At s.conn s.armed s.engaged r) : Kept srv (region srv s r) := by
  have hnext : ∀ r : Rest, s.running ++ [r] = [r] := fun r => by
    rw [hr]
    rfl
  have hawait : ∀ y, (s.conn.await y).world.outstanding = [y] := fun y => by
    show s.conn.world.outstanding ++ [y] = [y]
    rw [ho]
    rfl
  -- a call that leaves with nothing outstanding has nothing left to keep
  have hleave : ∀ (books : Books) (c : AsyncConnection), c.world.outstanding = [] →
      Kept srv (s.leave (books.keep c)) := fun books c hc =>
    kept_over hr ((steady_keep books c).2.1.trans hc)
  cases r with
  | beginReading =>
    show Kept srv (s.leave (if srv.itsEncryptionEnabled then s.conn.await .handshake
      else startRead s.conn))
    split
    · exact kept_outstanding hr (hawait _) (fun _ => h rfl) (by rintro ⟨⟩)
    · exact kept_outstanding hr (hawait _) (fun _ => h rfl) (by rintro ⟨⟩)
  | armForRequest bytes a => exact kept_running (hnext _) ho rfl rfl
  | readBytes bytes a => exact kept_reads (reads_handleReadBytes bytes a s.conn) hr ho hat.2
  | callHandler a =>
    show Kept srv (if s.conn.itsPrematurelyDisconnected then s
      else if s.conn.world.socket = .closed then s else _)
    split
    · exact kept_over hr ho
    · split
      · exact kept_over hr ho
      · exact kept_running (hnext _) ho rfl rfl
  | inHandler a => exact kept_replies (replies_returnFromHandler srv a s.conn) hr ho
  | written handler e n a =>
    exact kept_replies (replies_runWriteHandler srv a handler e n s.conn) hr ho
  | head m books a =>
    unfold Threads.region
    dsimp only
    cases headersToString srv.spine s.conn.itsResponse with
    | none => exact hleave books _ ho
    | some head =>
      exact kept_running (hnext _) ((World.write_delivers _ _ _ _).outstanding.trans ho) rfl rfl
  | content m bytes books a =>
    exact kept_running (hnext _) ((World.write_delivers _ _ _ _).outstanding.trans ho) rfl rfl
  | settle books =>
    show Kept srv (if s.conn.itsKeepAlive then s.next s.conn (.finish books)
      else s.leave (books.keep (closeSocket s.conn)))
    split
    · exact kept_running (hnext _) ho rfl rfl
    · exact hleave books _ ho
  | finish books =>
    show Kept srv (if mayReuse s.conn then _ else s.leave (books.keep s.conn))
    split
    · exact kept_running (r := .armNext books) (hnext _) ho rfl rfl
    · exact hleave books _ ho
  | armNext books => exact kept_running (hnext _) ho rfl rfl
  | resume books =>
    show Kept srv (s.leave (books.keep (resumeReading s.conn)))
    unfold resumeReading
    split
    · rename_i hb
      obtain ⟨-, hout, hbuf, -⟩ := steady_keep books (startRead s.conn)
      refine kept_outstanding hr (hout.trans (hawait _)) (fun _ => ?_) (by rintro ⟨⟩)
      show ∀ q n, srv.spine.parseOneRequest (books.keep (startRead s.conn)).itsBuffer ≠ _
      rw [hbuf, show (startRead s.conn).itsBuffer = [] from List.isEmpty_iff.mp hb]
      exact hempty
    · obtain ⟨-, hout, -, -⟩ := steady_keep books (s.conn.await (.handleRead []))
      exact kept_outstanding hr (hout.trans (hawait _)) (by rintro ⟨⟩) (by rintro ⟨⟩)

/-- What happens beside the threads. -/
theorem Kept.beside {s : Threads} (h : Kept srv s) {c' : AsyncConnection}
    (hb : Beside s.conn c') (hsock : Queued s → c'.world.socket ≠ .closed) :
    Kept srv (s.leave c') := by
  refine ⟨fun hl => ?_, fun hq => ?_⟩
  · have hl' : Listening s := by
      rcases hl with hl | ⟨y, hy, hl⟩
      · exact Or.inl hl
      · exact Or.inr ⟨y, by rw [← hb.outstanding]; exact hy, hl⟩
    show ∀ r n, srv.spine.parseOneRequest c'.itsBuffer ≠ _
    rw [hb.buffer]
    exact h.listening hl'
  · have hq' : Queued s := by
      rcases hq with hq | ⟨y, hy, hq⟩
      · exact Or.inl hq
      · exact Or.inr ⟨y, by rw [← hb.outstanding]; exact hy, hq⟩
    obtain ⟨hreq, heng, -⟩ := h.queued hq'
    refine ⟨?_, heng, hsock hq'⟩
    show c'.exchange.requests ≠ []
    rw [hb.requests]
    exact hreq

/-- Nobody awaits bytes and a handler. -/
theorem Position.not_listening {s : Threads} (h : Position s) (hq : Queued s) : ¬ Listening s := by
  intro hl
  rcases h with ⟨hr, ho, -⟩ | ⟨r, hr, ho, -⟩ | ⟨y, hr, ho, -⟩
  · simp [Queued, hr, ho] at hq
  · have hq' : r.queued = true := by simpa [Queued, hr, ho] using hq
    have hl' : r.listens = true := by simpa [Listening, hr, ho] using hl
    cases r <;> simp [Rest.queued, Rest.listens] at hq' hl'
  · have hq' : y.queued = true := by simpa [Queued, hr, ho] using hq
    have hl' : y.listens = true := by simpa [Listening, hr, ho] using hl
    cases y <;> simp [Activity.queued, Activity.listens] at hq' hl'

/-- **An event keeps it**, if it is no expiry that counts for a complete request. -/
theorem Kept.call {s t : Threads} {e : Event} (h : Kept srv s) (hinv : Inv s)
    (hG : ¬ FiresOnReceived srv s (.handler e)) (hcall : s.call srv e = some t) : Kept srv t := by
  have hpos := hinv.2
  have hnext : ∀ {i : ℕ} {y : Activity}, s.conn.world.outstanding[i]? = some y → ∀ r : Rest,
      s.running ++ [r] = [r] := fun hi r => by
    rw [(hpos.released hi).1]
    rfl
  cases e with
  | handshake i ok =>
    simp only [Threads.call, AsyncConnection.step] at hcall
    split at hcall
    · rename_i hi
      obtain rfl := Option.some.inj hcall
      obtain ⟨hr, ho, -⟩ := hpos.released hi
      show Kept srv (s.leave (handleHandshake ok (s.conn.release i)))
      unfold handleHandshake
      split
      · refine kept_outstanding (y := .read) hr ?_ (fun _ => h.listening
          (Or.inr ⟨.handshake, List.mem_of_getElem? hi, rfl⟩)) (by rintro ⟨⟩)
        show (s.conn.release i).world.outstanding ++ [.read] = _
        rw [ho]
        rfl
      · exact kept_over hr ho
    · cases hcall
  | receive i bytes =>
    simp only [Threads.call, AsyncConnection.step] at hcall
    split at hcall
    · rename_i hi
      split at hcall
      · obtain rfl := Option.some.inj hcall
        obtain ⟨hr, ho, -⟩ := hpos.released hi
        refine kept_outstanding (y := .handleRead bytes) hr ?_ (by rintro ⟨⟩) (by rintro ⟨⟩)
        show (s.conn.release i).world.outstanding ++ [.handleRead bytes] = _
        rw [ho]
        rfl
      · cases hcall
    · cases hcall
  | readFails i err a =>
    simp only [Threads.call] at hcall
    split at hcall
    · rename_i hi
      split at hcall
      · rename_i herr
        obtain rfl := Option.some.inj hcall
        obtain ⟨hr, ho, -⟩ := hpos.released hi
        unfold Tail.handleRead
        dsimp only
        split
        · exact kept_running (hnext hi _) ho rfl rfl
        · exact kept_over hr ho
      · cases hcall
    · cases hcall
  | runRead i a =>
    simp only [Threads.call] at hcall
    split at hcall
    · rename_i bytes hi
      obtain rfl := Option.some.inj hcall
      obtain ⟨-, ho, -⟩ := hpos.released hi
      unfold enterRead
      dsimp only
      split
      · exact kept_running (hnext hi _) ho rfl rfl
      · split
        · exact kept_running (r := .armForRequest bytes a) (hnext hi _) ho rfl rfl
        · exact kept_running (r := .readBytes bytes a) (hnext hi _) ho rfl rfl
    · cases hcall
  | runTask i a =>
    simp only [Threads.call] at hcall
    split at hcall
    · rename_i pool task hi
      obtain rfl := Option.some.inj hcall
      obtain ⟨hr, ho, -⟩ := hpos.released hi
      cases task with
      | handleCompletedRead view =>
        -- the queued request is now with the thread that calls its handler
        have hq := h.queued (Or.inr ⟨_, List.mem_of_getElem? hi, rfl⟩)
        refine ⟨fun hl => ?_, fun _ => hq⟩
        have hrun : (takeTask srv a (s.leave (s.conn.release i))
            (.handleCompletedRead view)).running = [.callHandler a] := hnext hi _
        have hout : (takeTask srv a (s.leave (s.conn.release i))
            (.handleCompletedRead view)).conn.world.outstanding = [] := ho
        simp [Listening, hrun, hout, Rest.listens] at hl
      | getNextChunk =>
        exact kept_replies (s := s.leave (s.conn.release i)) (replies_getNextChunk srv a _) hr ho
      | getNextChunkedChunk =>
        exact kept_replies (s := s.leave (s.conn.release i)) (replies_getNextChunkedChunk srv a _)
          hr ho
    · cases hcall
  | writeSome i n a =>
    simp only [Threads.call] at hcall
    split at hcall
    · rename_i handler buffer hi
      split at hcall
      · obtain rfl := Option.some.inj hcall
        exact kept_running (hnext hi _) (hpos.released hi).2.1 rfl rfl
      · cases hcall
    · cases hcall
  | writeFails i a =>
    simp only [Threads.call] at hcall
    split at hcall
    · rename_i handler buffer hi
      obtain rfl := Option.some.inj hcall
      exact kept_running (hnext hi _) (hpos.released hi).2.1 rfl rfl
    · cases hcall
  | timerExpires =>
    simp only [Threads.call, AsyncConnection.step] at hcall
    split at hcall
    · obtain rfl := Option.some.inj hcall
      refine h.beside ⟨rfl, ?_, rfl, rfl, rfl, rfl, rfl, rfl, Or.inl, Or.inl ⟨rfl, rfl, rfl⟩, rfl⟩
        fun hq => (h.queued hq).2.2
      intro w' hw'
      obtain ⟨w, hw, rfl⟩ := List.mem_map.mp hw'
      exact ⟨w, hw, rfl⟩
    · cases hcall
  | runTimer generation a =>
    simp only [Threads.call] at hcall
    obtain ⟨c', hc', rfl⟩ := Option.map_eq_some_iff.mp hcall
    rcases runTimer_cases hc' with ⟨w, -, -, rfl⟩ | ⟨hacts, -, hb⟩
    · exact h.beside (beside_taken s.conn w) fun hq => (h.queued hq).2.2
    · refine h.beside hb fun hq => ?_
      obtain ⟨hreq, heng, hsock⟩ := h.queued hq
      -- a firing that acts on a queued request is one the condition excludes
      have hidle : s.conn.itsIdle = false := by
        simpa [heng] using hinv.1.idle
      exact absurd ⟨hacts, hidle, hsock, hpos.not_listening hq, Or.inl hreq⟩ hG
  | requestShutdown =>
    obtain rfl := Option.some.inj hcall
    exact h.beside ⟨rfl, fun w hw => ⟨w, hw, rfl⟩, rfl, rfl, rfl, rfl, rfl, rfl, Or.inl,
      Or.inl ⟨rfl, rfl, rfl⟩, rfl⟩ fun hq => (h.queued hq).2.2

/-- A step keeps it. -/
theorem Kept.step {s t : Threads} {e : ThreadEvent}
    (hempty : ∀ q n, srv.spine.parseOneRequest [] ≠ .complete q n) (h : Kept srv s) (hinv : Inv s)
    (hG : ¬ FiresOnReceived srv s e) (hstep : step srv s e = some t) : Kept srv t := by
  cases e with
  | handler e => exact h.call hinv hG hstep
  | go i =>
    simp only [Threads.step] at hstep
    split at hstep
    · rename_i r hi
      obtain rfl := Option.some.inj hstep
      obtain ⟨hr, ho, hat⟩ := hinv.2.going hi
      exact Kept.region (s := { s with running := s.running.eraseIdx i }) hempty
        (fun hl => h.listening (Or.inl ⟨r, List.mem_of_getElem? hi, hl⟩)) hr ho hat
    · cases hstep

/-- Who awaits bytes has not received the whole request. -/
theorem Kept.not_received {s : Threads} (h : Kept srv s) (hinv : Inv s) (hl : Listening s) :
    ¬ Received srv s := by
  have hp := h.listening hl
  have hnone : s.conn.exchange.requests = [] ∧ s.unread = [] := by
    unfold unread AsyncConnection.unread
    rcases hinv.2 with ⟨hr, ho, -⟩ | ⟨r, hr, ho, hat⟩ | ⟨y, hr, ho, hd⟩
    · simp [Listening, hr, ho] at hl
    · have hl' : r.listens = true := by simpa [Listening, hr, ho] using hl
      rw [hr, ho]
      cases r with
      | beginReading => exact ⟨(Attentive.fresh hat).1, rfl⟩
      | _ => cases hl'
    · have hl' : y.listens = true := by simpa [Listening, hr, ho] using hl
      rw [hr, ho]
      cases y with
      | handshake => exact ⟨(Attentive.fresh hd).1, rfl⟩
      | read => exact ⟨(Attentive.fresh hd).1, rfl⟩
      | _ => cases hl'
  rintro (hreq | ⟨r, n, hc⟩)
  · exact hreq hnone.1
  · rw [hnone.2, List.append_nil] at hc
    exact hp r n hc

variable (srv) in
theorem kept_start (hempty : ∀ q n, srv.spine.parseOneRequest [] ≠ .complete q n) :
    Kept srv (start srv) := by
  refine ⟨fun _ => hempty, fun hq => ?_⟩
  rcases hq with ⟨r, hr, hq⟩ | ⟨y, hy, -⟩
  · obtain rfl := List.mem_singleton.mp hr
    cases hq
  · cases hy

/-- **A 408 means an incomplete request**, and no handler is skipped, in every run in
which no timer expiry counts for a request that waits. -/
theorem timeout_incomplete (hempty : ∀ q n, srv.spine.parseOneRequest [] ≠ .complete q n)
    {es : List ThreadEvent}
    (hG : Transition.Along (step srv) (fun s e => ¬ FiresOnReceived srv s e) (start srv) es) :
    Transition.Along (step srv) (TimeoutIncomplete srv) (start srv) es := by
  refine Transition.along_of_preserves (P := fun s => Inv s ∧ Kept srv s)
    (fun _ _ _ h hg hstep => ⟨h.1.step hstep, h.2.step hempty h.1 hg hstep⟩) ?_
    ⟨inv_start srv, kept_start srv hempty⟩ hG
  rintro s e ⟨hinv, hkept⟩ hno
  refine ⟨?_, ?_⟩
  · rintro generation a t rfl hstep hsends hrec
    obtain ⟨hacts, hidle, hsock⟩ := acts_of_sends hstep hsends
    refine hno ⟨hacts, hidle, ?_, fun hl => hkept.not_received hinv hl hrec, hrec⟩
    rw [hsock]
    simp
  · rintro i a t rfl hi hstep
    -- a task that waits for its thread is one of a socket the timer has not closed
    have hsock := (hkept.queued (Or.inl ⟨_, List.mem_of_getElem? hi, rfl⟩)).2.2
    simp only [step, hi, Option.some.injEq] at hstep
    subst hstep
    by_cases hp : s.conn.itsPrematurelyDisconnected = true
    · exact Or.inl hp
    · refine Or.inr ?_
      unfold region
      dsimp only
      rw [if_neg hp, if_neg hsock]
      show s.conn.exchange.dispatched ++ [s.conn.itsRequest] ≠ []
      simp

theorem timeout_incomplete_silent : ∃ s t,
    runFrom MinimalSpine.server (start MinimalSpine.server) silentClient = some s ∧
      step MinimalSpine.server s (.handler (.runTimer 1 MinimalSpine.answers)) = some t ∧
      SendsTimeout s t ∧ ¬ Received MinimalSpine.server s := by
  obtain ⟨s, t, hs, ht, hsends⟩ := sends_silentClient
  refine ⟨s, t, hs, ht, hsends, ?_⟩
  have hG : Transition.Along (step MinimalSpine.server)
      (fun s e => ¬ FiresOnReceived MinimalSpine.server s e) (start MinimalSpine.server)
      (silentClient ++ [.handler (.runTimer 1 MinimalSpine.answers)]) := by
    refine ⟨id, fun s₁ h₁ => ⟨id, fun s₂ h₂ => ⟨?_, fun _ _ => trivial⟩⟩⟩
    obtain rfl := Option.some.inj h₁
    obtain rfl := Option.some.inj h₂
    rintro ⟨-, -, -, hl, -⟩
    exact hl (Or.inr ⟨.read, List.mem_singleton.mpr rfl, rfl⟩)
  have hempty : ∀ q n, MinimalSpine.spine.parseOneRequest [] ≠ .complete q n := by
    intro q n h
    have hle := MinimalSpine.stable_parseBodyless.consumed_le [] q n h
    have hpos := MinimalSpine.stable_parseBodyless.consumed_pos [] q n h
    rw [List.length_nil] at hle
    omega
  exact (Transition.along_last (timeout_incomplete hempty hG) hs).1 1 MinimalSpine.answers t rfl ht
    hsends

/-- A request is parsed and its task queued; the timer runs out before a pool thread
takes it up. -/
def queuedRun : List ThreadEvent :=
  [.go 0, .handler (.receive 0 "GET /x HTTP/1.1\r\nHost: h\r\n\r\n".toList),
    .handler (.runRead 0 MinimalSpine.answers), .go 0, .handler .timerExpires]

/-- **A queued request is answered with a 408.** -/
theorem timeout_of_queued :
    ¬ Transition.Along (step MinimalSpine.server) (TimeoutIncomplete MinimalSpine.server)
      (start MinimalSpine.server)
      (queuedRun ++ [.handler (.runTimer 1 MinimalSpine.answers)]) := by
  intro h
  obtain ⟨s, hs, hp⟩ := reached queuedRun (fun s => !s.conn.exchange.requests.isEmpty &&
    (step MinimalSpine.server s (.handler (.runTimer 1 MinimalSpine.answers))).any fun t =>
      (t.conn.exchange.wire.drop s.conn.exchange.wire.length).any fun p =>
        p.1 == .stock .requestTimeout) (by decide +kernel)
  rw [Bool.and_eq_true, Option.any_eq_true] at hp
  obtain ⟨hreq, t, ht, hp⟩ := hp
  obtain ⟨p, hmem, hp⟩ := List.any_eq_true.mp hp
  refine (Transition.along_last h hs).1 1 MinimalSpine.answers t rfl ht
    ⟨p, hmem, beq_iff_eq.mp hp⟩ (Or.inl ?_)
  simpa using hreq

end Threads

end SmartMet
