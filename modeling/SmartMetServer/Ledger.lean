/-
# The books of a response

A response with a registered completion handler is to be logged once, and its
backend, if it names one, is to be told once how the conversation ended.  The
`Ledger` of an exchange has what these two calls read and write; `log` and
`notify` are the calls, and `Settled` says that both were made once.

`finalizeStreamLogging` and `notifyBackendFinished` are these operations; all
other functions but `takeChunk` leave the ledger alone.
-/
import SmartMetServer.OwnReplies

namespace SmartMet

/-- What a trace tells of the books of one exchange. -/
structure Account where
  exchange : Exchange := {}
  logged : List ℕ := []
  notified : List StreamerStatus := []
  deriving DecidableEq

/-- A streamed response that is to be logged when its delivery ends. -/
def Response.Logged (r : Response) : Prop :=
  r.hasStreamContent = true ∧ r.streamCompletionHandler = true

instance (r : Response) : Decidable r.Logged := inferInstanceAs (Decidable (_ ∧ _))

namespace Account

/-- One more event of the same exchange. -/
def observe (x : Account) (o : Obs) : Account where
  exchange := x.exchange.observe o
  logged :=
    match o with
    | .streamLogged n => x.logged ++ [n]
    | _ => x.logged
  notified :=
    match o with
    | .backendFinished st => x.notified ++ [st]
    | _ => x.notified

/-- The books of a response whose delivery was begun are closed: it was logged
once, with the sum of its chunks, and its backend was told once. -/
def Settled (x : Account) : Prop :=
  ∀ h, x.exchange.handled = some h → x.exchange.path ≠ none → h.Logged →
    x.logged = [x.exchange.chunks.flatten.length] ∧
      (h.itsOriginatingBackend ≠ [] → ∃ st, x.notified = [st])

end Account

/-- The account of the exchange under way. -/
def account : List Obs → Account
  | [] => {}
  | .rearmed :: _ => {}
  | o :: t => (account t).observe o

/-- The accounts of the exchanges that ended with the connection re-armed. -/
def pastAccounts : List Obs → List Account
  | [] => []
  | .rearmed :: t => account t :: pastAccounts t
  | _ :: t => pastAccounts t

theorem account_cons {o : Obs} (h : o ≠ .rearmed) (t : List Obs) :
    account (o :: t) = (account t).observe o := by
  cases o with
  | rearmed => exact absurd rfl h
  | _ => rfl

theorem pastAccounts_cons {o : Obs} (h : o ≠ .rearmed) (t : List Obs) :
    pastAccounts (o :: t) = pastAccounts t := by
  cases o with
  | rearmed => exact absurd rfl h
  | _ => rfl

theorem account_exchange (t : List Obs) : (account t).exchange = current t := by
  induction t with
  | nil => rfl
  | cons o t ih =>
    by_cases h : o = .rearmed
    · subst h
      rfl
    · rw [account_cons h, current_cons h, ← ih]
      rfl

/-! ## The ledger -/

/-- The books of the exchange at the head of the trace, with the members of the connection
they rest on. -/
structure Ledger where
  logged : List ℕ
  notified : List StreamerStatus
  chunks : List Bytes
  handled : Option Response
  path : Option ReplyPath
  streamed : ℕ
  backendNotified : Bool
  completion : Bool
  backend : Bytes
  deriving DecidableEq

namespace Ledger

/-- The completion handler is run, and removes itself. -/
def log (l : Ledger) : Ledger :=
  if l.completion then { l with logged := l.logged ++ [l.streamed], completion := false } else l

/-- The hooks of the backend are called, once. -/
def notify (status : StreamerStatus) (l : Ledger) : Ledger :=
  if l.backendNotified || l.backend.isEmpty then l
  else { l with notified := l.notified ++ [status], backendNotified := true }

/-- A chunk is counted. -/
def chunk (c : Bytes) (l : Ledger) : Ledger :=
  { l with chunks := l.chunks ++ [c], streamed := l.streamed + c.length }

/-- The books are closed. -/
def Settled (l : Ledger) : Prop :=
  ∀ h, l.handled = some h → l.path ≠ none → h.Logged →
    l.logged = [l.chunks.flatten.length] ∧ (h.itsOriginatingBackend ≠ [] → ∃ st, l.notified = [st])

/-- There is a response that is to be logged. -/
def Logged (l : Ledger) : Prop := ∃ h, l.handled = some h ∧ h.Logged

/-- The books of a handler's response are open. -/
structure Open (l : Ledger) : Prop where
  logged : l.logged = []
  notified : l.notified = []
  streamed : l.streamed = l.chunks.flatten.length
  backendNotified : l.backendNotified = false
  response : ∀ h, l.handled = some h →
    l.completion = h.streamCompletionHandler ∧ l.backend = h.itsOriginatingBackend

/-- The backend has been told, and the response is still to be logged. -/
structure Ending (l : Ledger) : Prop where
  logged : l.logged = []
  streamed : l.streamed = l.chunks.flatten.length
  response : ∀ h, l.handled = some h → l.completion = h.streamCompletionHandler ∧
    (h.itsOriginatingBackend ≠ [] → ∃ st, l.notified = [st])

/-- Nothing was begun. -/
structure Blank (l : Ledger) : Prop where
  logged : l.logged = []
  notified : l.notified = []
  backendNotified : l.backendNotified = false

/-- How the books stand while this is outstanding. -/
def Stands (l : Ledger) : List Activity → Prop
  | [] => l.Settled
  | .write .writeRegularReply _ :: _ => True
  | .write .finalizeChunkedReply _ :: _ => l.Ending
  | _ => l.Open

variable {l : Ledger}

theorem settled_of_not_logged (h : ¬ l.Logged) : l.Settled :=
  fun r hr _ hl => absurd ⟨r, hr, hl⟩ h

theorem settled_of_no_path (h : l.path = none) : l.Settled :=
  fun _ _ hp _ => absurd h hp

/-- What is written does not matter. -/
theorem stands_write {handler : WriteHandler} {b b' : Bytes}
    (h : l.Stands [.write handler b]) : l.Stands [.write handler b'] := by
  cases handler with
  | writeRegularReply => trivial
  | writeStreamReply => exact h
  | writeChunkedReply => exact h
  | finalizeChunkedReply => exact h

theorem Open.chunk (h : Open l) (c : Bytes) : Open (l.chunk c) := by
  refine ⟨h.logged, h.notified, ?_, h.backendNotified, h.response⟩
  show l.streamed + c.length = (l.chunks ++ [c]).flatten.length
  rw [h.streamed, List.flatten_append, List.length_append, List.flatten_singleton]

theorem Open.notify (h : Open l) (status : StreamerStatus) : Ending (l.notify status) := by
  unfold Ledger.notify
  split
  · rename_i hno
    refine ⟨h.logged, h.streamed, fun r hr => ⟨(h.response r hr).1, fun hb => ?_⟩⟩
    rw [h.backendNotified, (h.response r hr).2] at hno
    exact absurd (by simpa using hno) hb
  · refine ⟨h.logged, h.streamed, fun r hr => ⟨(h.response r hr).1, fun _ => ⟨status, ?_⟩⟩⟩
    show l.notified ++ [status] = [status]
    rw [h.notified]
    rfl

theorem Ending.log (h : Ending l) : l.log.Settled := by
  intro r hr hp hl
  unfold Ledger.log at hr hp ⊢
  split at hr
  · rename_i hcompletion
    rw [if_pos hcompletion] at hp ⊢
    refine ⟨?_, (h.response r hr).2⟩
    show l.logged ++ [l.streamed] = _
    rw [h.logged, h.streamed]
    rfl
  · rename_i hcompletion
    exact absurd ((h.response r hr).1.trans hl.2) hcompletion

theorem handled_notify (status : StreamerStatus) : (l.notify status).handled = l.handled := by
  unfold notify
  split
  · rfl
  · rfl

theorem path_log : l.log.path = l.path := by
  unfold log
  split
  · rfl
  · rfl

theorem path_notify (status : StreamerStatus) : (l.notify status).path = l.path := by
  unfold notify
  split
  · rfl
  · rfl

/-- The two calls do not depend on each other. -/
theorem log_notify (status : StreamerStatus) : l.log.notify status = (l.notify status).log := by
  by_cases h1 : l.completion = true
  · by_cases h2 : (l.backendNotified || l.backend.isEmpty) = true
    · simp [log, notify, h1, h2]
    · simp [log, notify, h1, h2]
  · by_cases h2 : (l.backendNotified || l.backend.isEmpty) = true
    · simp [log, notify, h1, h2]
    · simp [log, notify, h1, h2]

/-- **Both calls close the books.** -/
theorem Open.settled (h : Open l) (status : StreamerStatus) :
    (l.log.notify status).Settled := by
  rw [log_notify]
  exact (h.notify status).log

end Ledger

namespace AsyncConnection

variable (srv : Server)

/-- The ledger of the exchange under way. -/
def ledger (s : AsyncConnection) : Ledger where
  logged := (account s.world.trace).logged
  notified := (account s.world.trace).notified
  chunks := s.exchange.chunks
  handled := s.exchange.handled
  path := s.exchange.path
  streamed := s.itsTotalStreamedBytes
  backendNotified := s.itsBackendNotified
  completion := s.itsResponse.streamCompletionHandler
  backend := s.itsResponse.itsOriginatingBackend

theorem settled_iff (s : AsyncConnection) :
    s.ledger.Settled ↔ (account s.world.trace).Settled := by
  unfold Ledger.Settled Account.Settled
  rw [account_exchange]
  rfl

theorem ledger_finalizeStreamLogging (s : AsyncConnection) :
    (finalizeStreamLogging s).ledger = s.ledger.log := by
  unfold finalizeStreamLogging Ledger.log
  by_cases h : s.itsResponse.streamCompletionHandler = true
  · rw [if_pos h, if_pos (show s.ledger.completion = true from h)]
    rfl
  · rw [if_neg h, if_neg (show ¬ s.ledger.completion = true from h)]

theorem ledger_notifyBackendFinished (st : StreamerStatus) (s : AsyncConnection) :
    (notifyBackendFinished st s).ledger = s.ledger.notify st := by
  unfold notifyBackendFinished Ledger.notify
  by_cases h : (s.itsBackendNotified || s.itsResponse.itsOriginatingBackend.isEmpty) = true
  · rw [if_pos h, if_pos (show (s.ledger.backendNotified || s.ledger.backend.isEmpty) = true from h)]
  · rw [if_neg h,
      if_neg (show ¬ (s.ledger.backendNotified || s.ledger.backend.isEmpty) = true from h)]
    rfl

/-! ## Functions that keep no books -/

/-- The events that change a ledger. -/
def Booked : Obs → Prop
  | .rearmed => True
  | .streamLogged _ => True
  | .backendFinished _ => True
  | .chunk _ _ => True
  | .handled _ => True
  | .started _ => True
  | _ => False

theorem account_append {new t : List Obs} (h : ∀ o ∈ new, ¬ Booked o) :
    (account (new ++ t)).logged = (account t).logged ∧
      (account (new ++ t)).notified = (account t).notified ∧
      (current (new ++ t)).chunks = (current t).chunks ∧
      (current (new ++ t)).handled = (current t).handled ∧
      (current (new ++ t)).path = (current t).path ∧
      pastAccounts (new ++ t) = pastAccounts t := by
  induction new with
  | nil => exact ⟨rfl, rfl, rfl, rfl, rfl, rfl⟩
  | cons o new ih =>
    obtain ⟨ho, hnew⟩ := List.forall_mem_cons.mp h
    have hre : o ≠ .rearmed := by
      rintro rfl
      exact ho trivial
    obtain ⟨h1, h2, h3, h4, h5, h6⟩ := ih hnew
    rw [List.cons_append, account_cons hre, current_cons hre, pastAccounts_cons hre]
    cases o with
    | rearmed => exact absurd rfl hre
    | streamLogged n => exact absurd trivial ho
    | backendFinished st => exact absurd trivial ho
    | chunk c own => exact absurd trivial ho
    | handled r => exact absurd trivial ho
    | started p => exact absurd trivial ho
    | _ => exact ⟨h1, h2, h3, h4, h5, h6⟩

/-- The members of a ledger that are no part of the trace. -/
def books (s : AsyncConnection) : ℕ × Bool × Bool × Bytes :=
  (s.itsTotalStreamedBytes, s.itsBackendNotified, s.itsResponse.streamCompletionHandler,
    s.itsResponse.itsOriginatingBackend)

/-- Code that leaves no booked event leaves the ledger alone. -/
theorem ledger_of_trail {A : Obs → Prop} {s t : AsyncConnection} (h : Trail A s t)
    (hA : ∀ o, A o → ¬ Booked o) (hb : t.books = s.books) : t.ledger = s.ledger := by
  obtain ⟨new, hnew, hev⟩ := h.events
  obtain ⟨h1, h2, h3, h4, h5, -⟩ :=
    account_append (t := s.world.trace) fun o ho => hA o (hev o ho).1
  simp only [books, Prod.mk.injEq] at hb
  obtain ⟨b1, b2, b3, b4⟩ := hb
  unfold ledger exchange
  rw [hnew, h1, h2, h3, h4, h5, b1, b2, b3, b4]

theorem pastAccounts_of_trail {A : Obs → Prop} {s t : AsyncConnection} (h : Trail A s t)
    (hA : ∀ o, A o → ¬ Booked o) :
    pastAccounts t.world.trace = pastAccounts s.world.trace := by
  obtain ⟨new, hnew, hev⟩ := h.events
  rw [hnew]
  exact (account_append fun o ho => hA o (hev o ho).1).2.2.2.2.2

end AsyncConnection

end SmartMet
