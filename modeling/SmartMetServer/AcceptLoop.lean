/-
# The connection limit (`source/AsyncServer.cpp`, `source/Connection.cpp`)

The accept loop of the server and the counter `itsConnectionCount`.  A step is
one call made by the handler of the accept, or the destruction of a connection
object, which any thread may run at any time between two of these calls.

The counter is an integer here: `std::size_t` would wrap where it becomes
negative, and `connection_cap` says that it never does.
-/
import Mathlib.Data.Int.Notation
import Mathlib.Data.List.Perm.Basic
import SmartMetServer.Transition

namespace SmartMet

/-- A connection object, and which of the two calls was made for it. -/
structure ConnectionObject where
  itsCounted : Bool := false
  started : Bool := false
  rejected : Bool := false
  deriving DecidableEq, Repr

/-- Where the accept loop stands. -/
inductive AcceptLoop where
  /-- `startAccept` is about to be called. -/
  | restarting
  /-- An accept is outstanding. -/
  | accepting
  /-- `handleAccept` is about to call `start`. -/
  | starting
  /-- `handleAccept` is about to call `rejectConnection`. -/
  | refusing
  | stopped
  deriving DecidableEq, Repr

/-- The members of the server the accept loop reads or writes.  The constructor
ends with a call of `startAccept`. -/
structure AsyncServer where
  itsMaxConnections : ℕ := 0
  itsConnectionCount : ℤ := 0
  itsShutdownRequested : Bool := false
  itsConnectionLimitReported : Bool := false
  itsNewConnection : Option ConnectionObject := none
  /-- The objects `itsNewConnection` pointed to earlier, as long as they exist. -/
  others : List ConnectionObject := []
  acceptLoop : AcceptLoop := .restarting
  deriving DecidableEq, Repr

/-- The events of the accept loop. -/
inductive AcceptEvent where
  | handleAccept (error : Bool)
  | start
  | rejectConnection
  | startAccept
  /-- An exception ends the handler of the accept. -/
  | threw
  /-- An object that is not `itsNewConnection` is destroyed. -/
  | destroy (i : ℕ)
  | requestShutdown
  /-- The server gives up `itsNewConnection`. -/
  | destroyServer
  deriving DecidableEq, Repr

namespace AsyncServer

/-- The objects that exist. -/
def objects (s : AsyncServer) : List ConnectionObject := s.itsNewConnection.toList ++ s.others

/-- The started connections that were not destroyed yet. -/
def startedConnections (s : AsyncServer) : ℕ := s.objects.countP ConnectionObject.started

/-! ## The functions -/

/-- A new object replaces the one of the last accept. -/
def startAccept (s : AsyncServer) : AsyncServer :=
  if s.itsShutdownRequested then { s with acceptLoop := .stopped }
  else
    { s with
      itsNewConnection := some {}
      others := s.objects
      acceptLoop := .accepting }

/-- `handleAccept` up to the call it makes for the connection. -/
def handleAccept (error : Bool) (s : AsyncServer) : AsyncServer :=
  if s.itsShutdownRequested then { s with acceptLoop := .stopped }
  else if error then { s with acceptLoop := .restarting }
  else if s.itsMaxConnections > 0 && (s.itsMaxConnections : ℤ) ≤ s.itsConnectionCount then
    { s with itsConnectionLimitReported := true, acceptLoop := .refusing }
  else { s with itsConnectionLimitReported := false, acceptLoop := .starting }

/-- `registerConnection`, the first call of `start`. -/
def registerConnection (c : ConnectionObject) (s : AsyncServer) : AsyncServer :=
  { s with
    itsNewConnection := some { c with itsCounted := true, started := true }
    itsConnectionCount := s.itsConnectionCount + 1
    acceptLoop := .restarting }

/-- The accepted connection is told that the server is full, and is not counted. -/
def rejectConnection (c : ConnectionObject) (s : AsyncServer) : AsyncServer :=
  { s with
    itsNewConnection := some { c with rejected := true }
    acceptLoop := .restarting }

/-- `~Connection`. -/
def destroy (c : ConnectionObject) (s : AsyncServer) : AsyncServer :=
  if c.itsCounted then { s with itsConnectionCount := s.itsConnectionCount - 1 } else s

/-- One step. -/
def step (s : AsyncServer) : AcceptEvent → Option AsyncServer
  | .handleAccept error =>
    if s.acceptLoop = .accepting then some (s.handleAccept error) else none
  | .start =>
    match s.acceptLoop, s.itsNewConnection with
    | .starting, some c => some (s.registerConnection c)
    | _, _ => none
  | .rejectConnection =>
    match s.acceptLoop, s.itsNewConnection with
    | .refusing, some c => some (s.rejectConnection c)
    | _, _ => none
  | .startAccept => if s.acceptLoop = .restarting then some s.startAccept else none
  | .threw =>
    if s.acceptLoop = .restarting then some { s with acceptLoop := .stopped } else none
  | .destroy i =>
    match s.others[i]? with
    | some c => some (({ s with others := s.others.eraseIdx i } : AsyncServer).destroy c)
    | none => none
  | .requestShutdown => some { s with itsShutdownRequested := true }
  | .destroyServer =>
    some { s with itsNewConnection := none, others := s.objects, acceptLoop := .stopped }

/-- The server when its constructor calls `startAccept`. -/
def constructed (itsMaxConnections : ℕ) : AsyncServer := { itsMaxConnections := itsMaxConnections }

/-! ## The invariant -/

/-- A started object was counted, a refused one was not, the counter is the number
of the started ones, and while an accept is handled its object is neither. -/
structure Counts (s : AsyncServer) : Prop where
  counted : ∀ c ∈ s.objects, c.itsCounted = c.started ∧ (c.rejected = true → c.started = false)
  count : s.itsConnectionCount = s.startedConnections
  cap : s.itsMaxConnections ≠ 0 → s.startedConnections ≤ s.itsMaxConnections
  fresh : s.acceptLoop = .accepting ∨ s.acceptLoop = .starting ∨ s.acceptLoop = .refusing →
    ∀ c ∈ s.itsNewConnection, c.started = false ∧ c.rejected = false
  room : s.acceptLoop = .starting → s.itsMaxConnections ≠ 0 →
    s.startedConnections < s.itsMaxConnections

/-- A step that changes neither the objects nor the counter, and leaves the handling
of the accept. -/
theorem Counts.leave {s t : AsyncServer} (h : Counts s)
    (ho : t.objects = s.objects) (hc : t.itsConnectionCount = s.itsConnectionCount)
    (hm : t.itsMaxConnections = s.itsMaxConnections)
    (hl : t.acceptLoop = .restarting ∨ t.acceptLoop = .stopped) : Counts t := by
  have hstarted : t.startedConnections = s.startedConnections := by
    unfold startedConnections
    rw [ho]
  refine ⟨?_, ?_, ?_, ?_, ?_⟩
  · rw [ho]
    exact h.counted
  · rw [hc, hstarted]
    exact h.count
  · rw [hm, hstarted]
    exact h.cap
  · intro hf
    rcases hl with hl | hl
    · simp [hl] at hf
    · simp [hl] at hf
  · intro hs
    rcases hl with hl | hl
    · rw [hl] at hs
      cases hs
    · rw [hl] at hs
      cases hs

/-- The decision of `handleAccept`. -/
theorem Counts.handleAccept {s : AsyncServer} (h : Counts s) (hl : s.acceptLoop = .accepting)
    (error : Bool) : Counts (s.handleAccept error) := by
  have hfresh := h.fresh (Or.inl hl)
  unfold AsyncServer.handleAccept
  split
  · exact h.leave rfl rfl rfl (Or.inr rfl)
  split
  · exact h.leave rfl rfl rfl (Or.inl rfl)
  split
  · exact ⟨h.counted, h.count, h.cap, fun _ => hfresh, fun hs => by cases hs⟩
  · rename_i hroom
    refine ⟨h.counted, h.count, h.cap, fun _ => hfresh, ?_⟩
    -- the limit was not reached
    intro _ hmax
    have hcount := h.count
    have hpos : 0 < s.itsMaxConnections := Nat.pos_of_ne_zero hmax
    simp only [Bool.and_eq_true, decide_eq_true_eq, not_and] at hroom
    have hlt := hroom hpos
    rw [hcount] at hlt
    exact Int.ofNat_lt.mp (Int.not_le.mp hlt)

/-- `start` counts an object that was not counted before. -/
theorem Counts.registerConnection {s : AsyncServer} (h : Counts s) {c : ConnectionObject}
    (hl : s.acceptLoop = .starting) (hc : s.itsNewConnection = some c) :
    Counts (s.registerConnection c) := by
  obtain ⟨hnot, hrej⟩ := h.fresh (Or.inr (Or.inl hl)) c hc
  have hobjects : s.objects = c :: s.others := by
    unfold objects
    rw [hc]
    rfl
  have hstarted : (s.registerConnection c).startedConnections = s.startedConnections + 1 := by
    unfold startedConnections
    rw [hobjects, List.countP_cons_of_neg (by rw [hnot]; simp)]
    exact List.countP_cons_of_pos rfl
  refine ⟨?_, ?_, ?_, ?_, ?_⟩
  · intro d hd
    rcases List.mem_cons.mp hd with rfl | hd
    · exact ⟨rfl, fun hr => by rw [hrej] at hr; cases hr⟩
    · exact h.counted d (by rw [hobjects]; exact List.mem_cons_of_mem _ hd)
  · rw [hstarted]
    show s.itsConnectionCount + 1 = _
    rw [h.count]
    rfl
  · intro hmax
    rw [hstarted]
    exact h.room hl hmax
  · rintro (hf | hf | hf)
    · cases hf
    · cases hf
    · cases hf
  · intro hs
    cases hs

theorem Counts.rejectConnection {s : AsyncServer} (h : Counts s) {c : ConnectionObject}
    (hl : s.acceptLoop = .refusing) (hc : s.itsNewConnection = some c) :
    Counts (s.rejectConnection c) := by
  obtain ⟨hnot, -⟩ := h.fresh (Or.inr (Or.inr hl)) c hc
  have hobjects : s.objects = c :: s.others := by
    unfold objects
    rw [hc]
    rfl
  have hstarted : (s.rejectConnection c).startedConnections = s.startedConnections := by
    unfold startedConnections
    rw [hobjects, List.countP_cons_of_neg (by rw [hnot]; simp)]
    exact List.countP_cons_of_neg (by show ¬ c.started = true; rw [hnot]; simp)
  refine ⟨?_, ?_, ?_, ?_, ?_⟩
  · intro d hd
    rcases List.mem_cons.mp hd with rfl | hd
    · exact ⟨(h.counted c (by rw [hobjects]; exact List.mem_cons_self)).1, fun _ => hnot⟩
    · exact h.counted d (by rw [hobjects]; exact List.mem_cons_of_mem _ hd)
  · rw [hstarted]
    exact h.count
  · rw [hstarted]
    exact h.cap
  · rintro (hf | hf | hf)
    · cases hf
    · cases hf
    · cases hf
  · intro hs
    cases hs

/-- The new object of `startAccept` does not contribute. -/
theorem Counts.startAccept {s : AsyncServer} (h : Counts s) : Counts s.startAccept := by
  unfold AsyncServer.startAccept
  split
  · exact h.leave rfl rfl rfl (Or.inr rfl)
  · have hstarted : ({ s with
        itsNewConnection := some {}
        others := s.objects
        acceptLoop := .accepting } : AsyncServer).startedConnections = s.startedConnections :=
      List.countP_cons_of_neg (by simp)
    refine ⟨?_, ?_, ?_, ?_, ?_⟩
    · intro d hd
      rcases List.mem_cons.mp hd with rfl | hd
      · exact ⟨rfl, fun _ => rfl⟩
      · exact h.counted d hd
    · rw [hstarted]
      exact h.count
    · rw [hstarted]
      exact h.cap
    · intro _ c hc
      obtain rfl := Option.some.inj hc
      exact ⟨rfl, rfl⟩
    · intro hs
      cases hs

/-- The destruction of an object gives back what its start has taken. -/
theorem Counts.destroy {s : AsyncServer} (h : Counts s) {i : ℕ} {c : ConnectionObject}
    (hc : s.others[i]? = some c) :
    Counts (({ s with others := s.others.eraseIdx i } : AsyncServer).destroy c) ∧
      (c.itsCounted = true → 0 < s.itsConnectionCount) := by
  let t : AsyncServer := { s with others := s.others.eraseIdx i }
  have hsub : ∀ d ∈ t.objects, d ∈ s.objects := by
    intro d hd
    rcases List.mem_append.mp hd with hd | hd
    · exact List.mem_append_left _ hd
    · exact List.mem_append_right _ (List.mem_of_mem_eraseIdx hd)
  have hmem : c ∈ s.objects :=
    List.mem_append_right _ (List.mem_of_getElem? hc)
  obtain ⟨hlt, rfl⟩ := List.getElem?_eq_some_iff.mp hc
  -- the object that goes counted one if and only if it was started
  have hstarted : s.startedConnections =
      t.startedConnections + if s.others[i].started then 1 else 0 := by
    have hperm := (List.getElem_cons_eraseIdx_perm hlt).symm
    have hothers : s.others.countP ConnectionObject.started =
        (s.others.eraseIdx i).countP ConnectionObject.started +
          if s.others[i].started then 1 else 0 := by
      rw [hperm.countP_eq, List.countP_cons]
    show (s.itsNewConnection.toList ++ s.others).countP _ = _
    rw [List.countP_append, hothers, ← Nat.add_assoc, ← List.countP_append]
    rfl
  obtain ⟨hcounted, -⟩ := h.counted _ hmem
  -- the destructor touches nothing but the objects and the count
  have hstate : (t.destroy s.others[i]).objects = t.objects ∧
      (t.destroy s.others[i]).acceptLoop = s.acceptLoop ∧
      (t.destroy s.others[i]).itsNewConnection = s.itsNewConnection ∧
      (t.destroy s.others[i]).itsMaxConnections = s.itsMaxConnections ∧
      (t.destroy s.others[i]).itsConnectionCount =
        s.itsConnectionCount - if s.others[i].started then 1 else 0 := by
    unfold AsyncServer.destroy
    rw [hcounted]
    cases s.others[i].started with
    | true => exact ⟨rfl, rfl, rfl, rfl, rfl⟩
    | false => exact ⟨rfl, rfl, rfl, rfl, (Int.sub_zero _).symm⟩
  obtain ⟨ho, hl, hn, hm, hcount⟩ := hstate
  have hstarted' : (t.destroy s.others[i]).startedConnections = t.startedConnections := by
    unfold startedConnections
    rw [ho]
  have hle : t.startedConnections ≤ s.startedConnections := by
    rw [hstarted]
    exact Nat.le_add_right _ _
  refine ⟨⟨?_, ?_, ?_, ?_, ?_⟩, ?_⟩
  · rw [ho]
    exact fun d hd => h.counted d (hsub d hd)
  · rw [hcount, hstarted', h.count, hstarted]
    cases s.others[i].started with
    | true =>
      simp only [if_true]
      omega
    | false =>
      simp only [Bool.false_eq_true, if_false]
      omega
  · rw [hm, hstarted']
    exact fun hmax => Nat.le_trans hle (h.cap hmax)
  · rw [hl, hn]
    exact h.fresh
  · rw [hl, hm, hstarted']
    exact fun hs hmax => Nat.lt_of_le_of_lt hle (h.room hs hmax)
  · intro hc
    rw [hcounted] at hc
    rw [h.count, hstarted, hc]
    simp only [if_true]
    omega

/-- **Every step keeps the counts.** -/
theorem Counts.step {s s' : AsyncServer} {e : AcceptEvent} (h : Counts s)
    (hstep : s.step e = some s') : Counts s' := by
  cases e with
  | handleAccept error =>
    simp only [AsyncServer.step] at hstep
    split at hstep
    · rename_i hl
      obtain rfl := Option.some.inj hstep
      exact h.handleAccept hl error
    · cases hstep
  | start =>
    simp only [AsyncServer.step] at hstep
    split at hstep
    · rename_i c hl hc
      obtain rfl := Option.some.inj hstep
      exact h.registerConnection hl hc
    · cases hstep
  | rejectConnection =>
    simp only [AsyncServer.step] at hstep
    split at hstep
    · rename_i c hl hc
      obtain rfl := Option.some.inj hstep
      exact h.rejectConnection hl hc
    · cases hstep
  | startAccept =>
    simp only [AsyncServer.step] at hstep
    split at hstep
    · obtain rfl := Option.some.inj hstep
      exact h.startAccept
    · cases hstep
  | threw =>
    simp only [AsyncServer.step] at hstep
    split at hstep
    · obtain rfl := Option.some.inj hstep
      exact h.leave rfl rfl rfl (Or.inr rfl)
    · cases hstep
  | destroy i =>
    simp only [AsyncServer.step] at hstep
    split at hstep
    · rename_i c hc
      obtain rfl := Option.some.inj hstep
      exact (h.destroy hc).1
    · cases hstep
  | requestShutdown =>
    obtain rfl := Option.some.inj hstep
    exact ⟨h.counted, h.count, h.cap, h.fresh, h.room⟩
  | destroyServer =>
    obtain rfl := Option.some.inj hstep
    exact h.leave rfl rfl rfl (Or.inr rfl)

/-- The limit is fixed when the server is constructed. -/
theorem step_itsMaxConnections {s s' : AsyncServer} {e : AcceptEvent}
    (hstep : s.step e = some s') : s'.itsMaxConnections = s.itsMaxConnections := by
  have hhandle : ∀ error, (s.handleAccept error).itsMaxConnections = s.itsMaxConnections := by
    intro error
    unfold AsyncServer.handleAccept
    split
    · rfl
    split
    · rfl
    split
    · rfl
    · rfl
  have haccept : s.startAccept.itsMaxConnections = s.itsMaxConnections := by
    unfold AsyncServer.startAccept
    split
    · rfl
    · rfl
  have hdestroy : ∀ (t : AsyncServer) (c : ConnectionObject),
      (t.destroy c).itsMaxConnections = t.itsMaxConnections := by
    intro t c
    unfold AsyncServer.destroy
    split
    · rfl
    · rfl
  cases e <;> simp only [AsyncServer.step] at hstep
  case handleAccept error =>
    split at hstep
    · exact Option.some.inj hstep ▸ hhandle error
    · cases hstep
  case startAccept =>
    split at hstep
    · exact Option.some.inj hstep ▸ haccept
    · cases hstep
  case destroy i =>
    split at hstep
    · exact Option.some.inj hstep ▸ hdestroy _ _
    · cases hstep
  case requestShutdown => exact Option.some.inj hstep ▸ rfl
  case destroyServer => exact Option.some.inj hstep ▸ rfl
  all_goals
    split at hstep
    · exact Option.some.inj hstep ▸ rfl
    · cases hstep

theorem counts_constructed (n : ℕ) : Counts (constructed n) := by
  refine ⟨?_, rfl, fun _ => Nat.zero_le n, ?_, ?_⟩
  · intro c hc
    cases hc
  · rintro (h | h | h)
    · cases h
    · cases h
    · cases h
  · intro h
    cases h

/-- **The connection cap is exact.**  However accepts, refusals, starts and
destructions interleave, the counter is the number of the started connections
that were not destroyed yet; it stays within the limit, where there is one; a
destruction finds it positive; and neither a refused connection nor the object
that waits for an accept contributes to it. -/
theorem connection_cap (n : ℕ) (es : List AcceptEvent) (s : AsyncServer)
    (hrun : Transition.run step (constructed n) es = some s) :
    s.itsConnectionCount = s.startedConnections ∧
      (n ≠ 0 → s.itsConnectionCount ≤ n) ∧
      (∀ c ∈ s.others, c.itsCounted = true → 0 < s.itsConnectionCount) ∧
      (∀ c ∈ s.objects, c.rejected = true → c.itsCounted = false) ∧
      (s.acceptLoop = .accepting → ∀ c ∈ s.itsNewConnection, c.itsCounted = false) := by
  have hall : Counts s ∧ s.itsMaxConnections = n := by
    refine Transition.run_preserves (P := fun s => Counts s ∧ s.itsMaxConnections = n) ?_
      ⟨counts_constructed n, rfl⟩ hrun
    rintro t e t' ⟨ht, hn⟩ hstep
    exact ⟨ht.step hstep, (step_itsMaxConnections hstep).trans hn⟩
  obtain ⟨h, hn⟩ := hall
  have hmem : ∀ c ∈ s.itsNewConnection, c ∈ s.objects := fun c hc =>
    List.mem_append_left _ (Option.mem_toList.mpr hc)
  refine ⟨h.count, ?_, ?_, ?_, ?_⟩
  · intro hne
    rw [h.count, ← hn]
    rw [← hn] at hne
    exact Int.ofNat_le.mpr (h.cap hne)
  · intro c hc hcounted
    obtain ⟨i, hi⟩ := List.mem_iff_getElem?.mp hc
    exact (h.destroy hi).2 hcounted
  · intro c hc hr
    obtain ⟨h1, h2⟩ := h.counted c hc
    rw [h1]
    exact h2 hr
  · intro hl c hc
    rw [(h.counted c (hmem c hc)).1]
    exact (h.fresh (Or.inl hl) c hc).1

/-- One connection is allowed: the second client is refused, and when the first
connection is destroyed the third is started. -/
def cappedRun : List AcceptEvent :=
  [.startAccept, .handleAccept false, .start, .startAccept, .handleAccept false,
    .rejectConnection, .startAccept, .destroy 1, .handleAccept false, .start]

theorem connection_cap_one :
    ∃ s, Transition.run step (constructed 1) cappedRun = some s ∧
      s.itsConnectionCount = 1 ∧ s.itsConnectionCount ≤ 1 := by
  obtain ⟨s, hs, hc⟩ : ∃ s, Transition.run step (constructed 1) cappedRun = some s ∧
      s.itsConnectionCount = 1 := ⟨_, rfl, by decide⟩
  exact ⟨s, hs, hc, (connection_cap 1 _ s hs).2.1 (by decide)⟩

end AsyncServer

end SmartMet
