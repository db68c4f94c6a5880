/-
# The hooks of a client connection

The started hooks are called in front of a handler, by the pool thread of its
request; the finished hooks by `~Connection`, once the server and all outstanding
handlers have let go of the connection object.  `Lifetime` is such an object from
the accept to its destruction, with the calls of the hooks in their order.

* `hooked_step` : a step calls the started hooks once for each handler it calls;
* `client_hooks` : all calls of a whole life, and when they are paired.
-/
import Mathlib.Data.List.Count
import SmartMetServer.MinimalSpine
import SmartMetServer.Transcript

namespace SmartMet

open AsyncConnection

/-! ## Calls of the hooks -/

/-- A call of the hooks of the reactor for client connections. -/
inductive HookCall where
  | started (clientIP : Bytes)
  | finished (clientIP : Bytes) (status : ErrorCode)
  deriving DecidableEq

namespace HookCall

/-- The call is a `clientConnectionFinished` for the address. -/
def finishes (clientIP : Bytes) : HookCall → Bool
  | finished ip _ => ip == clientIP
  | _ => false

/-- As many starts as finishes for each client, and each start before its finish. -/
def Paired (calls : List HookCall) : Prop :=
  ∀ ip, calls.count (started ip) = calls.countP (finishes ip) ∧
    ∀ first, first <+: calls → first.countP (finishes ip) ≤ first.count (started ip)

/-- One finish behind any number of starts. -/
theorem paired_iff {ips : List Bytes} {ip : Bytes} {status : ErrorCode} :
    Paired (ips.map started ++ [finished ip status]) ↔ ips = [ip] := by
  have hstarts : ∀ a, (ips.map started ++ [finished ip status]).count (started a) =
      ips.count a := by
    intro a
    rw [List.count_append, List.count_map_of_injective _ _ (fun _ _ h => started.inj h)]
    simp
  have hfinishes : ∀ a, (ips.map started ++ [finished ip status]).countP (finishes a) =
      [ip].count a := by
    intro a
    rw [List.countP_append]
    have hnone : (ips.map started).countP (finishes a) = 0 := by
      rw [List.countP_map]
      exact List.countP_eq_zero.mpr fun _ _ => by simp [finishes]
    rw [hnone, Nat.zero_add]
    rfl
  constructor
  · intro h
    refine List.perm_singleton.mp (List.perm_iff_count.mpr fun a => ?_)
    rw [← hstarts, ← hfinishes]
    exact (h a).1
  · rintro rfl a
    refine ⟨(hstarts a).trans (hfinishes a).symm, ?_⟩
    intro first hfirst
    obtain ⟨rest, hrest⟩ := hfirst
    -- a part without the finish finishes nothing
    rcases List.eq_nil_or_concat rest with rfl | ⟨rest, last, rfl⟩
    · rw [List.append_nil] at hrest
      rw [hrest, hstarts, hfinishes]
    · rw [List.concat_eq_append, ← List.append_assoc] at hrest
      obtain ⟨hpart, -⟩ := List.append_inj' hrest rfl
      have hle := (List.prefix_append first rest).sublist.countP_le (p := finishes a)
      rw [hpart] at hle
      exact hle.trans (by simp [finishes])

end HookCall

/-- The calls of the started hooks in a trace, in their order. -/
def startedCalls (t : List Obs) : List HookCall :=
  t.reverse.flatMap fun
    | .clientStarted ip => [.started ip]
    | _ => []

/-- Events that call neither the started hooks nor a handler. -/
def Obs.Unhooked (o : Obs) : Prop := (∀ ip, o ≠ .clientStarted ip) ∧ ∀ r, o ≠ .dispatched r

/-- The started hooks were called once for each request given to its handler. -/
def Hooked (t : List Obs) : Prop :=
  startedCalls t = (dispatchedOf t).map fun r => .started r.clientIP

theorem Hooked.append {new t : List Obs} (h : Hooked t) (hnew : ∀ o ∈ new, o.Unhooked) :
    Hooked (new ++ t) := by
  have hstarted : startedCalls new = [] := by
    refine List.flatMap_eq_nil_iff.mpr fun o ho => ?_
    have := (hnew o (List.mem_reverse.mp ho)).1
    cases o with
    | clientStarted ip => exact absurd rfl (this ip)
    | _ => rfl
  have hdispatched : dispatchedOf new = [] := by
    refine List.flatMap_eq_nil_iff.mpr fun o ho => ?_
    have := (hnew o (List.mem_reverse.mp ho)).2
    cases o with
    | dispatched r => exact absurd rfl (this r)
    | _ => rfl
  unfold Hooked startedCalls dispatchedOf
  rw [flatMap_reverse_append, flatMap_reverse_append]
  show startedCalls t ++ startedCalls new = List.map _ (dispatchedOf t ++ dispatchedOf new)
  rw [hstarted, hdispatched, List.append_nil, List.append_nil]
  exact h

namespace AsyncConnection

variable {srv : Server}

/-! ## The calls of a step -/

theorem unhooked_of_getterEvent {p : Prop} {o : Obs} (h : GetterEvent srv p o) : o.Unhooked := by
  constructor
  · rintro ip rfl
    rcases h with h | ⟨h, -⟩
    · exact h
    · cases h
  · rintro r rfl
    rcases h with h | ⟨h, -⟩
    · exact h
    · cases h

theorem unhooked_of_lastEvent {x : Outcome} {o : Obs} (h : LastEvent srv x o) : o.Unhooked := by
  refine ⟨?_, not_dispatched_of_lastEvent srv h⟩
  rintro ip rfl
  cases x with
  | stop s => exact h
  | reply m s books =>
    rcases h with (⟨_, h⟩ | ⟨_, h⟩ | h | h | h | ⟨_, _, h⟩) | h
    all_goals cases h
  | finish s =>
    rcases h with h | ⟨_, _, h⟩
    · cases h
    · cases h

/-- Only a task calls a handler, or the hooks in front of it. -/
theorem unhooked_of_stepEvent {e : Event} (he : ∀ i a, e ≠ .runTask i a) {o : Obs}
    (h : StepEvent srv e o) : o.Unhooked := by
  refine ⟨?_, not_dispatched_of_stepEvent srv he h⟩
  rintro ip rfl
  cases e with
  | runTask i a => exact he i a rfl
  | runRead i a =>
    rcases h with ⟨_, _, h⟩ | ⟨_, h⟩ | h | ⟨_, h⟩ | h
    all_goals cases h
  | writeSome i n a =>
    rcases h with ⟨_, h⟩ | h
    · cases h
    · exact (unhooked_of_getterEvent h).1 ip rfl
  | writeFails i a => exact (unhooked_of_getterEvent h).1 ip rfl
  | timerExpires => exact h
  | requestShutdown => exact h
  | _ => cases h

theorem Trail.hooked {A : Obs → Prop} {s t : AsyncConnection} (ht : Trail A s t)
    (hA : ∀ o, A o → o.Unhooked) (h : Hooked s.world.trace) : Hooked t.world.trace := by
  obtain ⟨new, hnew, hev⟩ := ht.events
  rw [hnew]
  exact h.append fun o ho => hA o (hev o ho).1

/-- What follows the return of the handler calls no hook. -/
theorem hooked_returnFromHandler (a : Answers) {s : AsyncConnection} (h : Hooked s.world.trace) :
    Hooked (Tail.returnFromHandler srv a s).state.world.trace := by
  have hu : ∀ response, Hooked ([.handled response] ++ s.world.trace) :=
    fun _ => h.append (by simp [Obs.Unhooked])
  rcases Tail.returnFromHandler_cases srv a s with
    ⟨-, heq⟩ | ⟨response, ⟨-, heq⟩ | ⟨-, heq⟩ | ⟨-, heq⟩⟩
  · rw [heq]
    exact h
  · rw [heq]
    exact hu response
  · rw [heq]
    exact hu response
  · rw [heq]
    refine (stretch_startReply srv a (Tail.handled response s)).toTrail.hooked
      (fun o => unhooked_of_getterEvent) ?_
    exact show Hooked ([.started _] ++ _) from (hu response).append (by simp [Obs.Unhooked])

/-- The hooks are called with the client of the request. -/
theorem hooked_handleCompletedRead (a : Answers) {s : AsyncConnection}
    (h : Hooked s.world.trace) :
    Hooked (Tail.handleCompletedRead srv a s).state.world.trace := by
  unfold Tail.handleCompletedRead
  split
  · exact h
  split
  · exact h
  rw [Tail.callHandler_eq]
  refine hooked_returnFromHandler a ?_
  show startedCalls ([.dispatched s.itsRequest, .clientStarted s.itsRequest.clientIP] ++
    s.world.trace) = (dispatchedOf ([.dispatched s.itsRequest,
      .clientStarted s.itsRequest.clientIP] ++ s.world.trace)).map _
  unfold startedCalls dispatchedOf
  rw [flatMap_reverse_append, flatMap_reverse_append, List.map_append]
  exact congrArg (· ++ [.started s.itsRequest.clientIP]) h

/-- **One step** calls the started hooks once for each handler it calls. -/
theorem hooked_step {s s' : AsyncConnection} {e : Event} (h : Hooked s.world.trace)
    (hstep : step srv s e = some s') : Hooked s'.world.trace := by
  obtain ⟨x, hx, rfl, -⟩ := trail_whole srv hstep
  refine (trail_run srv e.answers x).hooked (fun o => unhooked_of_lastEvent) ?_
  by_cases htask : ∃ i a, e = .runTask i a
  · obtain ⟨i, a, rfl⟩ := htask
    simp only [Tail.step] at hx
    split at hx
    · rename_i pool task hi
      obtain rfl := Option.some.inj hx
      cases task with
      | handleCompletedRead view =>
        exact hooked_handleCompletedRead (s := cancelTimer (s.release i)) a h
      | getNextChunk =>
        exact (stretch_getNextChunk srv a (s.release i)).toTrail.hooked
          (fun o ho => unhooked_of_getterEvent (ho.getter id : GetterEvent srv _ o)) h
      | getNextChunkedChunk =>
        exact (stretch_getNextChunkedChunk srv a (s.release i)).toTrail.hooked
          (fun o ho => unhooked_of_getterEvent (ho.getter id : GetterEvent srv _ o)) h
    · cases hx
  · exact (trail_step srv hx).hooked
      (fun o => unhooked_of_stepEvent fun i a he => htask ⟨i, a, he⟩) h

end AsyncConnection

/-! ## The life of a connection object -/

/-- Where a connection object stands. -/
inductive LifeStage where
  | accepted
  | running
  | destroyed
  deriving DecidableEq, Repr

/-- A connection object from the accept on, with the calls of the hooks. -/
structure Lifetime where
  conn : AsyncConnection := {}
  stage : LifeStage := .accepted
  /-- `itsNewConnection` of the server points to the object. -/
  isNewConnection : Bool := true
  calls : List HookCall := []
  deriving DecidableEq

/-- What happens to a connection object. -/
inductive LifeEvent where
  | start
  | rejectConnection (a : Answers)
  /-- A step of the connection. -/
  | server (e : Event)
  /-- `itsNewConnection` is replaced. -/
  | startAccept
  /-- The last owner is gone. -/
  | destroy
  deriving DecidableEq

namespace Lifetime

variable (srv : Server)

/-- `rejectConnection`. -/
def rejectConnection (a : Answers) (s : AsyncConnection) : AsyncConnection :=
  sendStockReply srv a .serviceUnavailable
    { s with itsKeepAlive := false, itsResponseVersion := .v1_0 }

/-- The connection goes on to `c`, and the hooks are called on the way. -/
def goOn (c : AsyncConnection) (l : Lifetime) : Lifetime :=
  { l with
    conn := c
    stage := .running
    calls := l.calls ++
      startedCalls (c.world.trace.take (c.world.trace.length - l.conn.world.trace.length)) }

/-- `~Connection`: the finished hooks are called unless the server shuts down. -/
def destroy (l : Lifetime) : Lifetime :=
  { l with
    stage := .destroyed
    calls := l.calls ++
      if l.conn.world.shutdownRequested then []
      else [.finished l.conn.itsRequest.clientIP l.conn.itsFinalStatus] }

/-- One step; the object is destroyed when nothing owns it any more. -/
def step (l : Lifetime) : LifeEvent → Option Lifetime
  | .start => if l.stage = .accepted then some (l.goOn (AsyncConnection.start srv)) else none
  | .rejectConnection a =>
    if l.stage = .accepted then some (l.goOn (rejectConnection srv a l.conn)) else none
  | .server e =>
    if l.stage = .running then (AsyncConnection.step srv l.conn e).map l.goOn else none
  | .startAccept =>
    if l.stage = .running then some { l with isNewConnection := false } else none
  | .destroy =>
    if l.stage = .running ∧ l.isNewConnection = false ∧ l.conn.owners = 0 then some l.destroy
    else none

/-- The state after a run from the accept. -/
def runFrom (l : Lifetime) (es : List LifeEvent) : Option Lifetime :=
  Transition.run (step srv) l es

variable {srv}

/-- The calls up to now: the started hooks once for each request given to its handler,
and the finished hooks at the end. -/
structure Accounted (l : Lifetime) : Prop where
  accepted : l.stage = .accepted → l.conn = {}
  hooked : Hooked l.conn.world.trace
  calls : l.calls = startedCalls l.conn.world.trace ++
    if l.stage = .destroyed ∧ l.conn.world.shutdownRequested = false then
      [.finished l.conn.itsRequest.clientIP l.conn.itsFinalStatus]
    else []

theorem Accounted.goOn {l : Lifetime} (h : Accounted l) (hs : l.stage ≠ .destroyed)
    {c : AsyncConnection} {new : List Obs} (hnew : c.world.trace = new ++ l.conn.world.trace)
    (hc : Hooked c.world.trace) : Accounted (l.goOn c) := by
  refine ⟨fun hacc => absurd hacc (by simp [Lifetime.goOn]), hc, ?_⟩
  have htake : c.world.trace.take (c.world.trace.length - l.conn.world.trace.length) = new := by
    rw [hnew, List.length_append, Nat.add_sub_cancel, List.take_left]
  have hcalls := h.calls
  rw [if_neg (fun hd => hs hd.1), List.append_nil] at hcalls
  show l.calls ++ startedCalls (c.world.trace.take _) = startedCalls c.world.trace ++ []
  rw [htake, hcalls, hnew, List.append_nil]
  exact (flatMap_reverse_append _ new l.conn.world.trace).symm

/-- **One step** keeps the accounts. -/
theorem Accounted.step {l l' : Lifetime} {e : LifeEvent} (h : Accounted l)
    (hstep : step srv l e = some l') : Accounted l' := by
  cases e with
  | start =>
    simp only [Lifetime.step] at hstep
    split at hstep
    · rename_i hs
      obtain rfl := Option.some.inj hstep
      have htrace : (start srv).world.trace = [.armed 1 srv.itsTimeout] ++ l.conn.world.trace := by
        rw [start_trace, h.accepted hs]
        rfl
      refine h.goOn (by rw [hs]; simp) htrace ?_
      rw [htrace]
      exact h.hooked.append (by simp [Obs.Unhooked])
    · cases hstep
  | rejectConnection a =>
    simp only [Lifetime.step] at hstep
    split at hstep
    · rename_i hs
      obtain rfl := Option.some.inj hstep
      have ht := trail_sendSimpleReply srv a (.stock .serviceUnavailable)
        (stockResponse srv a .serviceUnavailable
          { l.conn with itsKeepAlive := false, itsResponseVersion := .v1_0 })
      obtain ⟨new, hnew, hev⟩ := ht.events
      -- the refusal of an overloaded server is no reply of the connection's
      have hun : ∀ o ∈ new, o.Unhooked := by
        intro o ho
        have hlast : LastEvent srv (.reply (.stock .serviceUnavailable) l.conn .none) o :=
          Or.inl (hev o ho).1
        exact unhooked_of_lastEvent hlast
      exact h.goOn (by rw [hs]; simp) hnew (by
        show Hooked (rejectConnection srv a l.conn).world.trace
        rw [show (rejectConnection srv a l.conn).world.trace = new ++ l.conn.world.trace from hnew]
        exact h.hooked.append hun)
    · cases hstep
  | server e =>
    simp only [Lifetime.step] at hstep
    split at hstep
    · rename_i hs
      obtain ⟨c, hc, rfl⟩ := Option.map_eq_some_iff.mp hstep
      obtain ⟨x, -, -, ht⟩ := trail_whole srv hc
      obtain ⟨new, hnew, -⟩ := ht.events
      exact h.goOn (by rw [hs]; simp) hnew (hooked_step h.hooked hc)
    · cases hstep
  | startAccept =>
    simp only [Lifetime.step] at hstep
    split at hstep
    · obtain rfl := Option.some.inj hstep
      exact ⟨h.accepted, h.hooked, h.calls⟩
    · cases hstep
  | destroy =>
    simp only [Lifetime.step] at hstep
    split at hstep
    · rename_i hs
      obtain rfl := Option.some.inj hstep
      refine ⟨fun hacc => absurd hacc (by simp [Lifetime.destroy]), h.hooked, ?_⟩
      -- the destructor calls the hook of the end if that of the start was called
      have hcalls := h.calls
      rw [if_neg (by rw [hs.1]; simp), List.append_nil] at hcalls
      show l.calls ++ _ = startedCalls l.conn.world.trace ++ _
      rw [hcalls]
      show _ ++ (if l.conn.world.shutdownRequested = true then [] else _) =
        _ ++ (if LifeStage.destroyed = .destroyed ∧ l.conn.world.shutdownRequested = false then _
          else [])
      cases l.conn.world.shutdownRequested with
      | true => rfl
      | false => rfl
    · cases hstep

theorem Accounted.run {l l' : Lifetime} {es : List LifeEvent} (h : Accounted l)
    (hrun : runFrom srv l es = some l') : Accounted l' :=
  Transition.run_preserves (P := Accounted) (fun _ _ _ h hstep => h.step hstep) h hrun

variable (srv)

/-- **The hooks of a client connection**: by its destruction the started hooks were
called once for each request given to its handler, for the client of that request, and
then the finished hooks once, for the client the connection held last.  The calls are
paired when one request was given to its handler, of the client held last. -/
theorem client_hooks {l : Lifetime} {es : List LifeEvent} (hrun : runFrom srv {} es = some l)
    (hend : l.stage = .destroyed) (hs : l.conn.world.shutdownRequested = false) :
    l.calls = (dispatchedOf l.conn.world.trace).map (fun r => .started r.clientIP) ++
        [.finished l.conn.itsRequest.clientIP l.conn.itsFinalStatus] ∧
      (HookCall.Paired l.calls ↔
        (dispatchedOf l.conn.world.trace).map (fun r => r.clientIP) =
          [l.conn.itsRequest.clientIP]) := by
  have h₀ : Accounted {} := ⟨fun _ => rfl, rfl, rfl⟩
  have h := h₀.run hrun
  have hcalls := h.calls
  rw [if_pos ⟨hend, hs⟩, h.hooked] at hcalls
  refine ⟨hcalls, ?_⟩
  rw [hcalls, ← HookCall.paired_iff, List.map_map]
  rfl

/-- A request comes in, and its handler is called. -/
def handledRun (a : Answers) : List LifeEvent :=
  [.server (.receive 0 "GET /x HTTP/1.1\r\nHost: h\r\n\r\n".toList),
    .server (.runRead 0 MinimalSpine.answers), .server (.runTask 0 a)]

/-- The one handler throws, and the connection is given up. -/
theorem client_hooks_single :
    ∃ l, runFrom MinimalSpine.server {} ([.start, .startAccept] ++
        handledRun MinimalSpine.answers ++ [.server (.runTimer 1 MinimalSpine.answers), .destroy])
        = some l ∧ HookCall.Paired l.calls := by
  obtain ⟨l, hl, hp⟩ : ∃ l, runFrom MinimalSpine.server {} ([.start, .startAccept] ++
        handledRun MinimalSpine.answers ++ [.server (.runTimer 1 MinimalSpine.answers), .destroy])
        = some l ∧ (l.stage == .destroyed && !l.conn.world.shutdownRequested &&
          (dispatchedOf l.conn.world.trace).map (fun r => r.clientIP)
            == [l.conn.itsRequest.clientIP]) = true := by
    have h : (runFrom MinimalSpine.server {} ([.start, .startAccept] ++
        handledRun MinimalSpine.answers ++ [.server (.runTimer 1 MinimalSpine.answers), .destroy])).any
        (fun l => l.stage == .destroyed && !l.conn.world.shutdownRequested &&
          (dispatchedOf l.conn.world.trace).map (fun r => r.clientIP)
            == [l.conn.itsRequest.clientIP]) = true := by decide +kernel
    rwa [Option.any_eq_true] at h
  obtain ⟨hp, hips⟩ := Bool.and_eq_true_iff.mp hp
  obtain ⟨hend, hs⟩ := Bool.and_eq_true_iff.mp hp
  refine ⟨l, hl, ?_⟩
  exact (client_hooks MinimalSpine.server hl (beq_iff_eq.mp hend) (by simpa using hs)).2.mpr
    (beq_iff_eq.mp hips)

/-- Two requests on a persistent connection: two starts, and one finish. -/
theorem hooks_unpaired :
    ¬ ∀ l es, runFrom MinimalSpine.server {} es = some l → l.stage = .destroyed →
      l.conn.world.shutdownRequested = false → HookCall.Paired l.calls := by
  intro hall
  let es := [.start, .startAccept] ++ handledRun { MinimalSpine.answers with
      handler := .returned true { status := some 204 } false } ++
    [.server (.writeSome 0 68 MinimalSpine.answers)] ++ handledRun MinimalSpine.answers ++
    [.server (.runTimer 1 MinimalSpine.answers), .server (.runTimer 3 MinimalSpine.answers),
      .server (.runTimer 4 MinimalSpine.answers), .destroy]
  let ip := "192.0.2.1".toList
  have h : (runFrom MinimalSpine.server {} es).any (fun l => l.stage == .destroyed &&
      !l.conn.world.shutdownRequested && l.calls.count (.started ip) == 2 &&
      l.calls.countP (HookCall.finishes ip) == 1) = true := by decide +kernel
  rw [Option.any_eq_true] at h
  obtain ⟨l, hl, hp⟩ := h
  simp only [Bool.and_eq_true, beq_iff_eq] at hp
  obtain ⟨⟨⟨hend, hs⟩, htwo⟩, hone⟩ := hp
  have hpaired := (hall l es hl hend (by simpa using hs) ip).1
  rw [htwo, hone] at hpaired
  exact absurd hpaired (by decide)

end Lifetime

end SmartMet
