/-
# The server and its connections

The accept loop together with the connections it has accepted.  A step is one call of
the accept loop, one completion handler or pool task of one of the connections, or the
destruction of an object that nothing owns, in any order.

* `Service.step` : the composition;
* `Service.Sound` : every object is what the accept loop takes it for;
* `service_sound` : so it is in every run, and the handlers that are outstanding in the
  whole server are bounded by the connection limit;
* `slots_return` : the slots that are taken can all be given back.
-/
import SmartMetServer.AcceptLoop
import SmartMetServer.ClientHooks
import SmartMetServer.Ordering
import SmartMetServer.Progress
import SmartMetServer.Shutdown

namespace SmartMet

open Exchange

namespace AsyncConnection

variable (srv : Server) (a : Answers)

/-- A shutdown is requested. -/
def shutDown (s : AsyncConnection) (requested : Bool) : AsyncConnection :=
  { s with world.shutdownRequested := requested }

/-- What a refused client was sent: one reply of the server's own that announces the
end of the connection, whole where no write has failed. -/
structure Refused (s : AsyncConnection) : Prop where
  owners : s.owners = 0
  socket : s.world.socket = .closed
  answer : ∃ r, IsStock srv .serviceUnavailable {} r ∧
    r.getHeader "Connection".toList = some "close".toList ∧
    s.exchange.heads = [(.stock .serviceUnavailable, r, srv.spine.headerSection r)] ∧
    (∀ p ∈ s.exchange.wire, p.1 = .stock .serviceUnavailable) ∧
    s.exchange.wire.flatMap Prod.snd <+: srv.spine.headerSection r ++ r.getContent ∧
    (s.exchange.failed = false →
      s.exchange.wire.flatMap Prod.snd = srv.spine.headerSection r ++ r.getContent)

theorem refused_rejectConnection (requested : Bool) :
    Refused srv (Lifetime.rejectConnection srv a (({} : AsyncConnection).shutDown requested)) := by
  let s : AsyncConnection :=
    { ({} : AsyncConnection).shutDown requested with
      itsKeepAlive := false
      itsResponseVersion := .v1_0 }
  obtain ⟨r, e, w, heq, hstock, hclose, hin⟩ :=
    sendStockReply_closing srv a .serviceUnavailable (s := s) rfl
  obtain ⟨extra, f, hcur, hsends⟩ := hin.current
  have hcur' : current w.trace = ({} : Exchange).reply (.stock .serviceUnavailable) r
      (srv.spine.headerSection r) extra f := hcur
  show Refused srv (sendStockReply srv a .serviceUnavailable s)
  rw [heq]
  have hexchange : (closeSocket { s with
      itsResponse := r, itsFinalStatus := e, itsKeepAlive := false, world := w }).exchange =
      current w.trace := current_cons (by simp) _
  refine ⟨?_, rfl, r, hstock, hclose, ?_, ?_, ?_, ?_⟩
  · show w.outstanding.length + w.waits.length = 0
    rw [hin.outstanding, hin.waits]
    rfl
  · rw [hexchange, hcur']
    rfl
  · rw [hexchange, hcur']
    exact hsends.message
  · rw [hexchange, hcur']
    exact hsends.bytes
  · rw [hexchange, hcur']
    exact fun hf => (hsends.exact hf).1

/-- A refusal tells the server nothing. -/
theorem rejectConnection_shutdownRequested (s : AsyncConnection) :
    (Lifetime.rejectConnection srv a s).world.shutdownRequested = s.world.shutdownRequested := by
  let t : AsyncConnection := { s with itsKeepAlive := false, itsResponseVersion := .v1_0 }
  obtain ⟨r, e, w, heq, -, -, hin⟩ :=
    sendStockReply_closing srv a .serviceUnavailable (s := t) rfl
  show (sendStockReply srv a .serviceUnavailable t).world.shutdownRequested = _
  rw [heq]
  exact hin.shutdownRequested

/-- A shutdown says nothing to a client that was refused. -/
theorem Refused.shutDown {s : AsyncConnection} (h : Refused srv s) (requested : Bool) :
    Refused srv (s.shutDown requested) :=
  ⟨h.owners, h.socket, h.answer⟩

end AsyncConnection

/-- The server: the accept loop, and the connections of its objects, the one of
`itsNewConnection` first. -/
structure Service where
  server : AsyncServer
  connections : List AsyncConnection := []

/-- The events of the server. -/
inductive ServiceEvent where
  | handleAccept (error : Bool)
  | start
  | rejectConnection (a : Answers)
  | startAccept
  | threw
  /-- A handler of the connection at position `j` is called. -/
  | connection (j : ℕ) (e : Event)
  /-- The object at position `i` of `others` is destroyed. -/
  | destroy (i : ℕ)
  | requestShutdown
  | destroyServer

/-- The events that need no new client: handlers of the connections, destructions, and
the call of `startAccept`. -/
def ServiceEvent.Frees : ServiceEvent → Prop
  | .connection _ _ => True
  | .destroy _ => True
  | .startAccept => True
  | _ => False

/-- What the accept loop sees of an event. -/
def ServiceEvent.acceptEvents : ServiceEvent → List AcceptEvent
  | .handleAccept error => [.handleAccept error]
  | .start => [.start]
  | .rejectConnection _ => [.rejectConnection]
  | .startAccept => [.startAccept]
  | .threw => [.threw]
  | .connection _ _ => []
  | .destroy i => [.destroy i]
  | .requestShutdown => [.requestShutdown]
  | .destroyServer => [.destroyServer]

namespace Service

variable (srv : Server)

/-- Where the objects other than `itsNewConnection` begin. -/
def front (s : Service) : ℕ := s.server.itsNewConnection.toList.length

/-- One step. -/
def step (s : Service) : ServiceEvent → Option Service
  | .handleAccept error =>
    (s.server.step (.handleAccept error)).map fun t => { s with server := t }
  | .start =>
    (s.server.step .start).map fun t =>
      -- nothing has happened to this connection yet
      { server := t
        connections := s.connections.set 0
          ((AsyncConnection.start srv).shutDown s.server.itsShutdownRequested) }
  | .rejectConnection a =>
    (s.server.step .rejectConnection).map fun t =>
      { server := t
        connections := s.connections.modify 0 (Lifetime.rejectConnection srv a) }
  | .startAccept =>
    (s.server.step .startAccept).map fun t =>
      { server := t
        connections :=
          if s.server.itsShutdownRequested then s.connections else {} :: s.connections }
  | .threw => (s.server.step .threw).map fun t => { s with server := t }
  | .connection j e =>
    match s.connections[j]? with
    | some c =>
      if e.isHandler then
        (AsyncConnection.step srv c e).map fun c' =>
          { s with connections := s.connections.set j c' }
      else none
    | none => none
  | .destroy i =>
    match s.connections[s.front + i]? with
    | some c =>
      if c.owners = 0 then
        (s.server.step (.destroy i)).map fun t =>
          { server := t, connections := s.connections.eraseIdx (s.front + i) }
      else none
    | none => none
  | .requestShutdown =>
    (s.server.step .requestShutdown).map fun t =>
      { server := t, connections := s.connections.map (AsyncConnection.shutDown · true) }
  | .destroyServer => (s.server.step .destroyServer).map fun t => { s with server := t }

/-- The server when its constructor calls `startAccept`. -/
def constructed (itsMaxConnections : ℕ) : Service :=
  { server := AsyncServer.constructed itsMaxConnections }

/-! ## The invariant -/

/-- The connection `c` of the object `o`. -/
structure Fits (requested : Bool) (o : ConnectionObject) (c : AsyncConnection) : Prop where
  started : o.started = true → AsyncConnection.Reachable srv c
  rejected : o.rejected = true → AsyncConnection.Refused srv c
  untouched : o.started = false → o.rejected = false →
    c = ({} : AsyncConnection).shutDown requested
  shutdown : requested = true → c.world.shutdownRequested = true

/-- The objects are counted, and their connections are what the accept loop takes them
for. -/
structure Sound (s : Service) : Prop where
  counts : AsyncServer.Counts s.server
  length : s.connections.length = s.server.objects.length
  fits : ∀ {j : ℕ} {o : ConnectionObject} {c : AsyncConnection}, s.server.objects[j]? = some o →
    s.connections[j]? = some c → Fits srv s.server.itsShutdownRequested o c

variable {srv}

/-- The accept loop goes on, and has the same objects. -/
theorem Sound.serve {s : Service} {t : AsyncServer} (h : Sound srv s)
    (hcounts : AsyncServer.Counts t) (ho : t.objects = s.server.objects)
    (hf : t.itsShutdownRequested = s.server.itsShutdownRequested) :
    Sound srv { s with server := t } := by
  refine ⟨hcounts, h.length.trans (congrArg List.length ho.symm), ?_⟩
  intro j o c hj hc
  show Fits srv t.itsShutdownRequested o c
  rw [hf]
  exact h.fits (by rw [← ho]; exact hj) hc

/-- The first object and its connection are replaced. -/
theorem Sound.replace {s : Service} {t : AsyncServer} {o o' : ConnectionObject}
    {c' : AsyncConnection} (h : Sound srv s) (hcounts : AsyncServer.Counts t)
    (ho : s.server.objects = o :: s.server.others) (ho' : t.objects = o' :: s.server.others)
    (hf : t.itsShutdownRequested = s.server.itsShutdownRequested)
    (hfits : Fits srv s.server.itsShutdownRequested o' c') :
    Sound srv { server := t, connections := s.connections.set 0 c' } := by
  refine ⟨hcounts, ?_, ?_⟩
  · show (s.connections.set 0 c').length = t.objects.length
    rw [List.length_set, h.length, ho, ho']
    rfl
  · intro j p d hj hd
    show Fits srv t.itsShutdownRequested p d
    rw [hf]
    rw [show ({ server := t, connections := s.connections.set 0 c' } : Service).server.objects =
      o' :: s.server.others from ho'] at hj
    cases j with
    | zero =>
      obtain rfl := Option.some.inj hj
      have hpos : 0 < s.connections.length := by
        rw [h.length, ho]
        exact Nat.succ_pos _
      have hd' : (s.connections.set 0 c')[0]? = some d := hd
      rw [List.getElem?_set_self hpos] at hd'
      obtain rfl := Option.some.inj hd'
      exact hfits
    | succ j =>
      have hd' : (s.connections.set 0 c')[j + 1]? = some d := hd
      rw [List.getElem?_set_ne (by omega)] at hd'
      exact h.fits (j := j + 1) (by rw [ho]; exact hj) hd'

/-- A connection moves on. -/
theorem Sound.move {s : Service} {j : ℕ} {c c' : AsyncConnection} (h : Sound srv s)
    (hc : s.connections[j]? = some c)
    (hfits : ∀ o, Fits srv s.server.itsShutdownRequested o c →
      Fits srv s.server.itsShutdownRequested o c') :
    Sound srv { s with connections := s.connections.set j c' } := by
  refine ⟨h.counts, ?_, ?_⟩
  · show (s.connections.set j c').length = _
    rw [List.length_set, h.length]
  · intro i o d hi hd
    have hd' : (s.connections.set j c')[i]? = some d := hd
    rw [List.getElem?_set] at hd'
    split at hd'
    · rename_i hji
      subst hji
      split at hd'
      · obtain rfl := Option.some.inj hd'
        exact hfits o (h.fits hi hc)
      · cases hd'
    · exact h.fits hi hd'

/-- Without an owner no handler is called. -/
theorem step_of_no_owner {c : AsyncConnection} (hc : c.owners = 0) {e : Event}
    (he : e.isHandler = true) : AsyncConnection.step srv c e = none := by
  obtain ⟨ho, hw⟩ := Nat.add_eq_zero_iff.mp hc
  have ho' := List.length_eq_zero_iff.mp ho
  have hw' := List.length_eq_zero_iff.mp hw
  cases e with
  | requestShutdown => cases he
  | timerExpires => simp [AsyncConnection.step, hw']
  | runTimer generation a => simp [AsyncConnection.step, AsyncConnection.readyWait, hw']
  | _ => simp [AsyncConnection.step, ho']

/-- A handler of a started connection. -/
theorem Fits.step {requested : Bool} {o : ConnectionObject} {c c' : AsyncConnection} {e : Event}
    (h : Fits srv requested o c) (he : e.isHandler = true)
    (hstep : AsyncConnection.step srv c e = some c') : Fits srv requested o c' := by
  have howned : c.owners ≠ 0 := by
    intro hno
    rw [step_of_no_owner hno he] at hstep
    cases hstep
  refine ⟨fun hs => ?_, fun hr => ?_, fun hs hr => ?_, fun hreq => ?_⟩
  · obtain ⟨es, hes⟩ := h.started hs
    exact ⟨es ++ [e], Transition.run_append hes (Transition.run_cons.mpr ⟨_, hstep, rfl⟩)⟩
  · exact absurd (h.rejected hr).owners howned
  · rw [h.untouched hs hr] at howned
    exact absurd rfl howned
  · have hshut := h.shutdown hreq
    exact (AsyncConnection.winding_step srv hshut hstep).shutdown.trans hshut

/-- A connection that starts. -/
theorem fits_start {requested : Bool} {o : ConnectionObject} (hs : o.started = true)
    (hr : o.rejected = false) :
    Fits srv requested o ((AsyncConnection.start srv).shutDown requested) := by
  refine ⟨fun _ => ?_, fun h => ?_, fun h => ?_, fun h => h⟩
  · cases requested with
    | true => exact ⟨[.requestShutdown], rfl⟩
    | false =>
      refine ⟨[], congrArg some ?_⟩
      unfold AsyncConnection.start
      dsimp only
      split
      · rfl
      · rfl
  · rw [hr] at h
    cases h
  · rw [hs] at h
    cases h

/-- The decision about an accept is about no object. -/
theorem handleAccept_objects (error : Bool) (t : AsyncServer) :
    (t.handleAccept error).objects = t.objects ∧
      (t.handleAccept error).itsShutdownRequested = t.itsShutdownRequested := by
  unfold AsyncServer.handleAccept
  split
  · exact ⟨rfl, rfl⟩
  split
  · exact ⟨rfl, rfl⟩
  split
  · exact ⟨rfl, rfl⟩
  · exact ⟨rfl, rfl⟩

/-- A shutdown reaches the connections. -/
theorem Fits.shutDown {requested : Bool} {o : ConnectionObject} {c : AsyncConnection}
    (h : Fits srv requested o c) : Fits srv true o (c.shutDown true) := by
  refine ⟨fun hs => ?_, fun hr => (h.rejected hr).shutDown srv true, fun hs hr => ?_, fun _ => rfl⟩
  · obtain ⟨es, hes⟩ := h.started hs
    exact ⟨es ++ [.requestShutdown], Transition.run_append hes
      (Transition.run_cons.mpr ⟨c.shutDown true, rfl, rfl⟩)⟩
  · rw [h.untouched hs hr]
    rfl

theorem Sound.requestShutdown {s : Service} {t : AsyncServer} (h : Sound srv s)
    (hcounts : AsyncServer.Counts t) (ho : t.objects = s.server.objects)
    (hf : t.itsShutdownRequested = true) :
    Sound srv
      { server := t, connections := s.connections.map (AsyncConnection.shutDown · true) } := by
  refine ⟨hcounts, ?_, ?_⟩
  · show (s.connections.map _).length = t.objects.length
    rw [List.length_map, h.length, ho]
  · intro j o d hj hd
    show Fits srv t.itsShutdownRequested o d
    have hj' : t.objects[j]? = some o := hj
    have hd' : (s.connections.map (AsyncConnection.shutDown · true))[j]? = some d := hd
    rw [ho] at hj'
    rw [List.getElem?_map] at hd'
    obtain ⟨c, hc, rfl⟩ := Option.map_eq_some_iff.mp hd'
    rw [hf]
    exact (h.fits hj' hc).shutDown

/-- The new object of `startAccept`, and its connection. -/
theorem Sound.startAccept {s : Service} (h : Sound srv s)
    (hcounts : AsyncServer.Counts s.server.startAccept) :
    Sound srv
      { server := s.server.startAccept
        connections :=
          if s.server.itsShutdownRequested then s.connections else {} :: s.connections } := by
  unfold AsyncServer.startAccept at hcounts ⊢
  by_cases hs : s.server.itsShutdownRequested = true
  · rw [if_pos hs] at hcounts
    rw [if_pos hs, if_pos hs]
    exact h.serve hcounts rfl rfl
  · rw [if_neg hs] at hcounts
    rw [if_neg hs, if_neg hs]
    refine ⟨hcounts, congrArg (· + 1) h.length, ?_⟩
    intro j o d hj hd
    cases j with
    | zero =>
      obtain rfl := Option.some.inj hj
      obtain rfl := Option.some.inj hd
      refine ⟨fun hc => ?_, fun hc => ?_, fun _ _ => ?_, fun hc => absurd hc hs⟩
      · cases hc
      · cases hc
      · rw [Bool.eq_false_iff.mpr hs]
        rfl
    | succ j => exact h.fits (j := j) hj hd

/-- An object is destroyed, and its connection with it. -/
theorem Sound.destroy {s : Service} {t : AsyncServer} {i : ℕ} (h : Sound srv s)
    (hcounts : AsyncServer.Counts t)
    (ho : t.objects = s.server.itsNewConnection.toList ++ s.server.others.eraseIdx i)
    (hf : t.itsShutdownRequested = s.server.itsShutdownRequested) :
    Sound srv { server := t, connections := s.connections.eraseIdx (s.front + i) } := by
  have hobjects : t.objects = s.server.objects.eraseIdx (s.front + i) := by
    rw [ho]
    unfold AsyncServer.objects front
    rw [List.eraseIdx_append_of_length_le (Nat.le_add_right _ _), Nat.add_sub_cancel_left]
  refine ⟨hcounts, ?_, ?_⟩
  · show (s.connections.eraseIdx _).length = t.objects.length
    rw [hobjects, List.length_eraseIdx, List.length_eraseIdx, h.length]
  · intro j o d hj hd
    show Fits srv t.itsShutdownRequested o d
    have hj' : t.objects[j]? = some o := hj
    have hd' : (s.connections.eraseIdx (s.front + i))[j]? = some d := hd
    rw [hobjects, List.getElem?_eraseIdx] at hj'
    rw [List.getElem?_eraseIdx] at hd'
    rw [hf]
    split at hj'
    · rw [if_pos ‹_›] at hd'
      exact h.fits hj' hd'
    · rw [if_neg ‹_›] at hd'
      exact h.fits hj' hd'

/-- **Every step** keeps the objects and their connections together. -/
theorem Sound.step {s s' : Service} {e : ServiceEvent} (h : Sound srv s)
    (hstep : s.step srv e = some s') : Sound srv s' := by
  -- the connection that is being accepted is the first of the objects
  have hfirst : ∀ {c : ConnectionObject}, s.server.itsNewConnection = some c →
      s.server.objects = c :: s.server.others := by
    intro c hc
    unfold AsyncServer.objects
    rw [hc]
    rfl
  cases e with
  | handleAccept error =>
    obtain ⟨t, ht, rfl⟩ := Option.map_eq_some_iff.mp hstep
    have hcounts := h.counts.step ht
    simp only [AsyncServer.step] at ht
    split at ht
    · obtain rfl := Option.some.inj ht
      obtain ⟨ho, hf⟩ := handleAccept_objects error s.server
      exact h.serve hcounts ho hf
    · cases ht
  | start =>
    obtain ⟨t, ht, rfl⟩ := Option.map_eq_some_iff.mp hstep
    have hcounts := h.counts.step ht
    simp only [AsyncServer.step] at ht
    split at ht
    · rename_i c hl hc
      obtain rfl := Option.some.inj ht
      obtain ⟨-, hrej⟩ := h.counts.fresh (Or.inr (Or.inl hl)) c hc
      exact h.replace hcounts (hfirst hc) rfl rfl (fits_start rfl hrej)
    · cases ht
  | rejectConnection a =>
    obtain ⟨t, ht, rfl⟩ := Option.map_eq_some_iff.mp hstep
    have hcounts := h.counts.step ht
    simp only [AsyncServer.step] at ht
    split at ht
    · rename_i c hl hc
      obtain rfl := Option.some.inj ht
      obtain ⟨hnot, hrej⟩ := h.counts.fresh (Or.inr (Or.inr hl)) c hc
      have hpos : 0 < s.connections.length := by
        rw [h.length, hfirst hc]
        exact Nat.succ_pos _
      obtain ⟨d, hd⟩ : ∃ d, s.connections[0]? = some d := ⟨_, List.getElem?_eq_getElem hpos⟩
      have hfits := h.fits (j := 0) (by rw [hfirst hc]; rfl) hd
      -- it has not been started, so it is as it was constructed
      have hd' := hfits.untouched hnot hrej
      have hmodify : s.connections.modify 0 (Lifetime.rejectConnection srv a) =
          s.connections.set 0 (Lifetime.rejectConnection srv a d) := by
        rw [List.modify_eq_set_getElem?, hd]
        rfl
      rw [hmodify]
      refine h.replace hcounts (hfirst hc) rfl rfl ?_
      rw [hd']
      refine ⟨fun hs => ?_, fun _ => AsyncConnection.refused_rejectConnection srv a _,
        fun _ hr => ?_, fun hreq => ?_⟩
      · exact absurd (show c.started = true from hs) (by rw [hnot]; simp)
      · cases hr
      · exact (AsyncConnection.rejectConnection_shutdownRequested srv a _).trans hreq
    · cases ht
  | startAccept =>
    obtain ⟨t, ht, rfl⟩ := Option.map_eq_some_iff.mp hstep
    have hcounts := h.counts.step ht
    simp only [AsyncServer.step] at ht
    split at ht
    · obtain rfl := Option.some.inj ht
      exact h.startAccept hcounts
    · cases ht
  | threw =>
    obtain ⟨t, ht, rfl⟩ := Option.map_eq_some_iff.mp hstep
    have hcounts := h.counts.step ht
    simp only [AsyncServer.step] at ht
    split at ht
    · obtain rfl := Option.some.inj ht
      exact h.serve hcounts rfl rfl
    · cases ht
  | connection j e =>
    simp only [Service.step] at hstep
    split at hstep
    · rename_i c hc
      split at hstep
      · rename_i he
        obtain ⟨c', hc', rfl⟩ := Option.map_eq_some_iff.mp hstep
        exact h.move hc fun o ho => ho.step he hc'
      · cases hstep
    · cases hstep
  | destroy i =>
    simp only [Service.step] at hstep
    split at hstep
    · split at hstep
      · obtain ⟨t, ht, rfl⟩ := Option.map_eq_some_iff.mp hstep
        have hcounts := h.counts.step ht
        simp only [AsyncServer.step] at ht
        split at ht
        · rename_i o _
          obtain rfl := Option.some.inj ht
          refine h.destroy hcounts ?_ ?_
          · unfold AsyncServer.destroy
            split
            · rfl
            · rfl
          · unfold AsyncServer.destroy
            split
            · rfl
            · rfl
        · cases ht
      · cases hstep
    · cases hstep
  | requestShutdown =>
    have hcounts := h.counts.step (e := .requestShutdown) rfl
    simp only [Service.step, AsyncServer.step, Option.map_some] at hstep
    obtain rfl := Option.some.inj hstep
    exact h.requestShutdown hcounts rfl rfl
  | destroyServer =>
    have hcounts := h.counts.step (e := .destroyServer) rfl
    simp only [Service.step, AsyncServer.step, Option.map_some] at hstep
    obtain rfl := Option.some.inj hstep
    exact h.serve hcounts rfl rfl

theorem Sound.run {s s' : Service} {es : List ServiceEvent} (h : Sound srv s)
    (hrun : Transition.run (Service.step srv) s es = some s') : Sound srv s' :=
  Transition.run_preserves (P := Sound srv) (fun _ _ _ ht hs => ht.step hs) h hrun

theorem sound_constructed (n : ℕ) : Sound srv (constructed n) :=
  ⟨AsyncServer.counts_constructed n, rfl, fun hj => by cases hj⟩

/-! ## The accept loop -/

theorem step_server {s s' : Service} {e : ServiceEvent} (hstep : s.step srv e = some s') :
    Transition.run AsyncServer.step s.server e.acceptEvents = some s'.server := by
  have hone : ∀ (e : AcceptEvent) (f : AsyncServer → Service), (∀ t, (f t).server = t) →
      (s.server.step e).map f = some s' →
      Transition.run AsyncServer.step s.server [e] = some s'.server := by
    intro e f hf h
    obtain ⟨t, ht, rfl⟩ := Option.map_eq_some_iff.mp h
    exact Transition.run_cons.mpr ⟨t, ht, congrArg some (hf t).symm⟩
  cases e with
  | connection j e =>
    simp only [Service.step] at hstep
    split at hstep
    · split at hstep
      · obtain ⟨c, -, rfl⟩ := Option.map_eq_some_iff.mp hstep
        rfl
      · cases hstep
    · cases hstep
  | destroy i =>
    simp only [Service.step] at hstep
    split at hstep
    · split at hstep
      · exact hone _ _ (fun _ => rfl) hstep
      · cases hstep
    · cases hstep
  | requestShutdown =>
    obtain rfl := Option.some.inj hstep
    rfl
  | destroyServer =>
    obtain rfl := Option.some.inj hstep
    rfl
  | _ => exact hone _ _ (fun _ => rfl) hstep

/-- The accept loop of the whole server is the one of `AcceptLoop`. -/
theorem run_server {s s' : Service} {es : List ServiceEvent}
    (hrun : Transition.run (step srv) s es = some s') :
    Transition.run AsyncServer.step s.server (es.flatMap ServiceEvent.acceptEvents) =
      some s'.server := by
  induction es generalizing s with
  | nil =>
    obtain rfl := Option.some.inj hrun
    rfl
  | cons e es ih =>
    obtain ⟨t, ht, hrest⟩ := Transition.run_cons.mp hrun
    exact Transition.run_append (step_server ht) (ih hrest)

/-! ## The handlers that are outstanding -/

/-- What is outstanding on a connection, as far as its object was started. -/
theorem Fits.outstanding_le {requested : Bool} {o : ConnectionObject} {c : AsyncConnection}
    (h : Fits srv requested o c) : c.world.outstanding.length ≤ if o.started then 1 else 0 := by
  by_cases hs : o.started = true
  · rw [if_pos hs]
    exact AsyncConnection.Inv.outstanding_length srv
      (AsyncConnection.inv_reachable srv (h.started hs))
  · rw [if_neg hs]
    by_cases hr : o.rejected = true
    · exact Nat.le_trans (Nat.le_add_right _ _) (h.rejected hr).owners.le
    · rw [h.untouched (Bool.eq_false_iff.mpr hs) (Bool.eq_false_iff.mpr hr)]
      rfl

/-- A bound for each object and its connection, over all of them. -/
theorem length_flatMap_le {α : Type*} {p : ConnectionObject → Bool} {f : AsyncConnection → List α}
    {os : List ConnectionObject} {cs : List AsyncConnection} (hlen : cs.length = os.length)
    (h : ∀ {j : ℕ} {o : ConnectionObject} {c : AsyncConnection}, os[j]? = some o →
      cs[j]? = some c → (f c).length ≤ if p o then 1 else 0) :
    (cs.flatMap f).length ≤ os.countP p := by
  induction os generalizing cs with
  | nil =>
    rw [List.length_eq_zero_iff.mp hlen]
    exact Nat.le_refl 0
  | cons o os ih =>
    obtain ⟨c, cs, rfl⟩ := List.exists_cons_of_length_eq_add_one hlen
    have hrest := ih (Nat.succ.inj hlen) fun {j _ _} ho hc => h (j := j + 1) ho hc
    have hfirst := h (j := 0) (o := o) (c := c) rfl rfl
    rw [List.flatMap_cons, List.length_append, List.countP_cons]
    omega

/-- What is outstanding on the connections. -/
def outstanding (s : Service) : List Activity := s.connections.flatMap fun c => c.world.outstanding

theorem Sound.outstanding_le {s : Service} (h : Sound srv s) :
    s.outstanding.length ≤ s.server.startedConnections :=
  length_flatMap_le h.length fun ho hc => (h.fits ho hc).outstanding_le

/-- **The server and its connections.**  Whatever clients come, whatever the handlers of
their connections do, and in whatever order objects are destroyed: the accept loop runs
as it does by itself, every object it has started has a connection that a start can
reach, every client it has refused was answered, and what is outstanding in the whole
server is within the counter, and so within the limit. -/
theorem service_sound {n : ℕ} {es : List ServiceEvent} {s : Service}
    (hrun : Transition.run (step srv) (constructed n) es = some s) :
    Transition.run AsyncServer.step (AsyncServer.constructed n)
        (es.flatMap ServiceEvent.acceptEvents) = some s.server ∧
      s.connections.length = s.server.objects.length ∧
      (∀ (j : ℕ) o c, s.server.objects[j]? = some o → s.connections[j]? = some c →
        Fits srv s.server.itsShutdownRequested o c) ∧
      s.outstanding.length ≤ s.server.itsConnectionCount ∧
      (n ≠ 0 → s.server.itsConnectionCount ≤ n) := by
  have hserver := run_server hrun
  -- no step touches the limit, so it is the one the server was built with
  have hmax : s.server.itsMaxConnections = n :=
    Transition.run_preserves (P := fun t => t.itsMaxConnections = n)
      (fun _ _ _ h hs => (AsyncServer.step_itsMaxConnections hs).trans h) rfl hserver
  have h : Sound srv s := (sound_constructed n).run hrun
  have hcount := h.counts.count
  refine ⟨hserver, h.length, fun j o c ho hc => h.fits ho hc, ?_, ?_⟩
  · rw [hcount]
    exact Int.ofNat_le.mpr h.outstanding_le
  · intro hn
    rw [hcount]
    rw [← hmax] at hn ⊢
    exact Int.ofNat_le.mpr (h.counts.cap hn)

/-- One connection is allowed: the second client is refused while the first is read. -/
def secondRefused : List ServiceEvent :=
  [.startAccept, .handleAccept false, .start, .startAccept, .handleAccept false,
    .rejectConnection MinimalSpine.answers]

theorem service_sound_refused :
    ∃ s c d, Transition.run (step MinimalSpine.server) (constructed 1) secondRefused = some s ∧
      s.connections = [c, d] ∧ AsyncConnection.Refused MinimalSpine.server c ∧
      AsyncConnection.Reachable MinimalSpine.server d ∧ d.world.outstanding.length = 1 := by
  obtain ⟨s, hs, hp⟩ := (Option.any_eq_true _ _).mp
    (show (Transition.run (step MinimalSpine.server) (constructed 1) secondRefused).any
      (fun s => s.server.objects ==
          [{ rejected := true }, { itsCounted := true, started := true }] &&
        s.connections.map (fun c => c.world.outstanding.length) == [0, 1]) = true by decide +kernel)
  simp only [Bool.and_eq_true, beq_iff_eq] at hp
  obtain ⟨hobjects, hout⟩ := hp
  obtain ⟨-, hlen, hfits, -⟩ := service_sound hs
  obtain ⟨c, d, hcd⟩ := List.length_eq_two.mp (hlen.trans (congrArg List.length hobjects))
  rw [hobjects, hcd] at hfits
  rw [hcd] at hout
  refine ⟨s, c, d, hs, hcd, (hfits 0 _ c rfl rfl).rejected rfl,
    (hfits 1 _ d rfl rfl).started rfl, ?_⟩
  exact (List.cons.inj (List.cons.inj hout).2).1

/-! ## The slots are given back -/

/-- The handlers of one connection are called. -/
theorem run_connection {s : Service} {j : ℕ} {c c' : AsyncConnection} {es : List Event}
    (hc : s.connections[j]? = some c) (hes : ∀ e ∈ es, e.isHandler = true)
    (hrun : AsyncConnection.runFrom srv c es = some c') :
    Transition.run (step srv) s (es.map (ServiceEvent.connection j)) =
      some { s with connections := s.connections.set j c' } := by
  induction es generalizing s c with
  | nil =>
    obtain rfl := Option.some.inj hrun
    obtain ⟨hlt, rfl⟩ := List.getElem?_eq_some_iff.mp hc
    rw [List.set_getElem_self]
    rfl
  | cons e es ih =>
    obtain ⟨d, hd, hrest⟩ := Transition.run_cons.mp hrun
    obtain ⟨he, hes⟩ := List.forall_mem_cons.mp hes
    let t : Service := { s with connections := s.connections.set j d }
    have hstep : s.step srv (.connection j e) = some t := by
      show (match s.connections[j]? with
        | some c =>
          if e.isHandler then
            (AsyncConnection.step srv c e).map fun c' =>
              { s with connections := s.connections.set j c' }
          else none
        | none => none) = some t
      rw [hc]
      show (if e.isHandler then (AsyncConnection.step srv c e).map _ else none) = some t
      rw [if_pos he, hd]
      rfl
    have hlt : j < s.connections.length := (List.getElem?_eq_some_iff.mp hc).1
    have ht : t.connections[j]? = some d := List.getElem?_set_self hlt
    refine Transition.run_cons.mpr ⟨t, hstep, (ih ht hes hrest).trans ?_⟩
    show some ({ s with connections := (s.connections.set j d).set j c' } : Service) = _
    rw [List.set_set]

/-- A run brings the connection of an object to the point where nothing owns it. -/
theorem Fits.exists_run {requested : Bool} {o : ConnectionObject} {c : AsyncConnection}
    (h : Fits srv requested o c) (a : Answers) :
    ∃ es c', (∀ e ∈ es, e.isHandler = true) ∧ AsyncConnection.runFrom srv c es = some c' ∧
      c'.owners = 0 := by
  by_cases hs : o.started = true
  · have hinv := AsyncConnection.inv_reachable srv (h.started hs)
    exact AsyncConnection.exists_run_to_no_owner hinv a
  refine ⟨[], c, fun _ he => absurd he List.not_mem_nil, rfl, ?_⟩
  by_cases hr : o.rejected = true
  · exact (h.rejected hr).owners
  · rw [h.untouched (Bool.eq_false_iff.mpr hs) (Bool.eq_false_iff.mpr hr)]
    rfl

/-- The first of the objects that the server has let go is destroyed. -/
theorem Sound.exists_destroy {s : Service} (h : Sound srv s) (a : Answers)
    (hne : s.server.others ≠ []) :
    ∃ es s', (∀ e ∈ es, e.Frees) ∧ Transition.run (Service.step srv) s es = some s' ∧
      s'.server.others.length < s.server.others.length ∧
      s'.server.itsNewConnection = s.server.itsNewConnection ∧
      s'.server.itsShutdownRequested = s.server.itsShutdownRequested := by
  obtain ⟨o, os, hos⟩ := List.exists_cons_of_ne_nil hne
  have hobject : s.server.objects[s.front]? = some o := by
    unfold AsyncServer.objects front
    rw [List.getElem?_append_right (Nat.le_refl _), Nat.sub_self, hos]
    rfl
  have hlt : s.front < s.connections.length := by
    rw [h.length]
    exact (List.getElem?_eq_some_iff.mp hobject).1
  obtain ⟨es, c, hes, hrun, hc⟩ := (h.fits hobject (List.getElem?_eq_getElem hlt)).exists_run a
  let t : Service := { s with connections := s.connections.set s.front c }
  have ht : Transition.run (Service.step srv) s (es.map (ServiceEvent.connection s.front)) =
      some t :=
    run_connection (List.getElem?_eq_getElem hlt) hes hrun
  have hc' : t.connections[t.front + 0]? = some c := List.getElem?_set_self hlt
  let u : Service :=
    { server := ({ s.server with others := s.server.others.eraseIdx 0 } : AsyncServer).destroy o
      connections := t.connections.eraseIdx (t.front + 0) }
  have hu : t.step srv (.destroy 0) = some u := by
    simp only [Service.step, hc', hc, if_true, AsyncServer.step]
    rw [show t.server.others[0]? = some o from congrArg (·[0]?) hos]
    rfl
  have hlast : Transition.run (Service.step srv) t [.destroy 0] = some u :=
    Transition.run_cons.mpr ⟨u, hu, rfl⟩
  have hdestroy : u.server.others = os ∧
      u.server.itsNewConnection = s.server.itsNewConnection ∧
      u.server.itsShutdownRequested = s.server.itsShutdownRequested := by
    show (AsyncServer.destroy o _).others = _ ∧ (AsyncServer.destroy o _).itsNewConnection = _ ∧
      (AsyncServer.destroy o _).itsShutdownRequested = _
    rw [hos]
    unfold AsyncServer.destroy
    split
    · exact ⟨rfl, rfl, rfl⟩
    · exact ⟨rfl, rfl, rfl⟩
  refine ⟨_, u, ?_, Transition.run_append ht hlast, ?_, hdestroy.2⟩
  · intro e he
    rcases List.mem_append.mp he with he | he
    · obtain ⟨e', -, rfl⟩ := List.mem_map.mp he
      trivial
    · obtain rfl := List.mem_singleton.mp he
      trivial
  · rw [hdestroy.1, hos]
    exact Nat.lt_succ_self _

/-- All of them are. -/
theorem Sound.exists_release {s : Service} (h : Sound srv s) (a : Answers) :
    ∃ es s', (∀ e ∈ es, e.Frees) ∧ Transition.run (Service.step srv) s es = some s' ∧ Sound srv s' ∧
      s'.server.itsNewConnection = s.server.itsNewConnection ∧
      s'.server.itsShutdownRequested = s.server.itsShutdownRequested ∧ s'.server.others = [] := by
  obtain ⟨es, t, hes, hrun, ⟨ht, hnew, hshut⟩, hothers⟩ :=
    Transition.exists_run_of_runs (G := ServiceEvent.Frees) (s := s)
      (P := fun t => Sound srv t ∧ t.server.itsNewConnection = s.server.itsNewConnection ∧
        t.server.itsShutdownRequested = s.server.itsShutdownRequested)
      (Q := fun t => t.server.others = []) (fun t => t.server.others.length)
      (fun t hP hQ => by
        obtain ⟨ht, hnew, hshut⟩ := hP
        obtain ⟨es, u, hes, hrun, hlt, hnew', hshut'⟩ := ht.exists_destroy a hQ
        exact ⟨es, u, hes, hrun, ⟨ht.run hrun, hnew'.trans hnew, hshut'.trans hshut⟩, hlt⟩)
      ⟨h, rfl, rfl⟩
  exact ⟨es, t, hes, hrun, ht, hnew, hshut, hothers⟩

/-- The next object is made. -/
theorem exists_startAccept {s : Service} (hl : s.server.acceptLoop = .restarting) :
    ∃ es u, (∀ e ∈ es, e.Frees) ∧ Transition.run (step srv) s es = some u ∧
      (s.server.acceptLoop ≠ .stopped → s.server.itsShutdownRequested = false →
        ∀ o ∈ u.server.itsNewConnection, o.started = false) ∧
      u.server.itsShutdownRequested = s.server.itsShutdownRequested := by
  have hstep : s.server.step .startAccept = some s.server.startAccept := if_pos hl
  have hu := congrArg (Option.map fun t : AsyncServer => ({
    server := t
    connections :=
      if s.server.itsShutdownRequested then s.connections else {} :: s.connections } : Service))
    hstep
  refine ⟨[.startAccept], _, List.forall_mem_singleton.mpr trivial,
    Transition.run_cons.mpr ⟨_, hu, rfl⟩, fun _ hs o ho => ?_, ?_⟩
  · change o ∈ s.server.startAccept.itsNewConnection at ho
    unfold AsyncServer.startAccept at ho
    rw [hs, if_neg Bool.false_ne_true] at ho
    obtain rfl := Option.some.inj ho
    rfl
  · show s.server.startAccept.itsShutdownRequested = _
    unfold AsyncServer.startAccept
    split
    · rfl
    · rfl

/-- **The slots are given back.**  From every state of the server, whatever its clients have
sent and whoever holds them, a run without a new client reaches a state in which only the
object of the last accept is left; and unless the accept loop has ended, no slot is taken
there and the next client is started. -/
theorem slots_return {n : ℕ} {es : List ServiceEvent} {s : Service}
    (hrun : Transition.run (step srv) (constructed n) es = some s) (a : Answers) :
    ∃ fs t, (∀ e ∈ fs, e.Frees) ∧ Transition.run (step srv) s fs = some t ∧
      t.server.others = [] ∧ t.server.itsConnectionCount ≤ 1 ∧
      (s.server.acceptLoop ≠ .stopped → s.server.itsShutdownRequested = false →
        t.server.itsConnectionCount = 0 ∧
          (t.server.handleAccept false).acceptLoop = .starting) := by
  have h : Sound srv s := (sound_constructed n).run hrun
  -- a call of `startAccept` that is due comes first
  obtain ⟨gs, u, hgs, hu, hfresh, hshut⟩ : ∃ gs u, (∀ e ∈ gs, e.Frees) ∧
      Transition.run (step srv) s gs = some u ∧
      (s.server.acceptLoop ≠ .stopped → s.server.itsShutdownRequested = false →
        ∀ o ∈ u.server.itsNewConnection, o.started = false) ∧
      u.server.itsShutdownRequested = s.server.itsShutdownRequested := by
    by_cases hl : s.server.acceptLoop = .restarting
    · exact exists_startAccept hl
    · refine ⟨[], s, fun _ he => absurd he List.not_mem_nil, rfl, fun hne _ o ho => ?_, rfl⟩
      refine (h.counts.fresh ?_ o ho).1
      cases hloop : s.server.acceptLoop with
      | accepting => exact Or.inl rfl
      | starting => exact Or.inr (Or.inl rfl)
      | refusing => exact Or.inr (Or.inr rfl)
      | restarting => exact absurd hloop hl
      | stopped => exact absurd hloop hne
  obtain ⟨fs, t, hfs, ht, hsound, hnew, hshut', hothers⟩ := (h.run hu).exists_release a
  have hobjects : t.server.objects = t.server.itsNewConnection.toList := by
    unfold AsyncServer.objects
    rw [hothers, List.append_nil]
  refine ⟨gs ++ fs, t, List.forall_mem_append.mpr ⟨hgs, hfs⟩, Transition.run_append hu ht,
    hothers, ?_, fun hl hs => ?_⟩
  · rw [hsound.counts.count]
    unfold AsyncServer.startedConnections
    rw [hobjects]
    refine Int.ofNat_le.mpr (Nat.le_trans List.countP_le_length ?_)
    cases t.server.itsNewConnection with
    | none => exact Nat.zero_le 1
    | some o => exact Nat.le_refl 1
  · have hzero : t.server.itsConnectionCount = 0 := by
      rw [hsound.counts.count]
      unfold AsyncServer.startedConnections
      rw [hobjects, hnew]
      refine congrArg _ (List.countP_eq_zero.mpr fun o ho => ?_)
      rw [hfresh hl hs o (Option.mem_toList.mp ho)]
      exact Bool.false_ne_true
    refine ⟨hzero, ?_⟩
    unfold AsyncServer.handleAccept
    rw [hshut', hshut, hs, hzero, if_neg Bool.false_ne_true, if_neg Bool.false_ne_true, if_neg]
    simp only [Bool.and_eq_true, decide_eq_true_eq]
    omega

/-- The connection that is read and the one that was refused are destroyed. -/
theorem slots_return_refused :
    ∃ s fs t, Transition.run (step MinimalSpine.server) (constructed 1) secondRefused = some s ∧
      s.server.itsConnectionCount = 1 ∧ (∀ e ∈ fs, e.Frees) ∧
      Transition.run (step MinimalSpine.server) s fs = some t ∧
      t.server.itsConnectionCount = 0 ∧ t.server.others = [] := by
  obtain ⟨s, hs, hp⟩ := (Option.any_eq_true _ _).mp
    (show (Transition.run (step MinimalSpine.server) (constructed 1) secondRefused).any
      (fun s => s.server.acceptLoop == .restarting && !s.server.itsShutdownRequested &&
        s.server.itsConnectionCount == 1) = true by decide +kernel)
  simp only [Bool.and_eq_true, beq_iff_eq, Bool.not_eq_true'] at hp
  obtain ⟨⟨hl, hshut⟩, hcount⟩ := hp
  obtain ⟨fs, t, hfs, ht, hothers, -, hfree⟩ := slots_return hs MinimalSpine.answers
  exact ⟨s, fs, t, hs, hcount, hfs, ht, (hfree (by rw [hl]; simp) hshut).1, hothers⟩

end Service

end SmartMet
