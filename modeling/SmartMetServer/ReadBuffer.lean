/-
# How much the buffer holds

`itsBuffer` holds the bytes in front of the next request.  A read is issued only
while they are no whole request, so that a request that is whole at last ends in
the bytes of the last read: what is left of them is less than one socket buffer.

* `Bounded.step` : the bounds are kept by every step;
* `buffer_accounted` : the counter and the bounds in every reachable state.
-/
import SmartMetServer.Rearming

namespace SmartMet

open StreamFraming

/-- A request that is parsed consumes more than any part of it that was incomplete. -/
def Outgrows {α : Type} (parse : Bytes → Parsed α) : Prop :=
  ∀ b c r n, parse b = .incomplete → parse (b ++ c) = .complete r n → b.length < n

namespace AsyncConnection

variable (srv : Server)

/-! ## The bounds -/

/-- The bounds of the buffer and of the bytes behind it. -/
structure Bounded (s : AsyncConnection) : Prop where
  /-- What a read has delivered came through the socket buffer. -/
  delivered : ∀ bytes, s.world.outstanding = [.handleRead bytes] →
    bytes.length ≤ socketBufferSize
  fits : 0 < srv.itsMaxRequestSize → s.itsBuffer.length ≤ srv.itsMaxRequestSize
  /-- A connection that waits for bytes holds no whole request. -/
  incomplete : ∀ y, s.world.outstanding = [y] → y.Waits →
    s.itsBuffer = [] ∨ srv.spine.parseOneRequest s.itsBuffer = .incomplete
  /-- One that does not holds what was read too much. -/
  spare : ∀ y, s.world.outstanding = [y] → ¬ y.Waits → s.itsBuffer.length ≤ socketBufferSize

theorem bounded_of_none {s : AsyncConnection} (ho : s.world.outstanding = [])
    (hf : 0 < srv.itsMaxRequestSize → s.itsBuffer.length ≤ srv.itsMaxRequestSize) :
    Bounded srv s := by
  have hnot : ∀ y, s.world.outstanding ≠ [y] := by
    intro y hy
    rw [ho] at hy
    cases hy
  exact ⟨fun b h => absurd h (hnot _), hf, fun y h => absurd h (hnot y),
    fun y h => absurd h (hnot y)⟩

/-- A step that goes on with a reply, or has parsed a request. -/
theorem bounded_of_ends {A : Message → Prop} {s : AsyncConnection} {x : Outcome}
    (h : x.Ends A s) (ho : s.world.outstanding = []) (a : Answers)
    (hf : 0 < srv.itsMaxRequestSize → x.state.itsBuffer.length ≤ srv.itsMaxRequestSize)
    (hb : x.state.itsBuffer.length ≤ socketBufferSize) : Bounded srv (x.run srv a) := by
  rw [← buffer_run srv a] at hf hb
  have hone : ∀ z : Activity, (x.run srv a).world.outstanding = [z] → z.unread = [] →
      (z.Waits → (x.run srv a).itsBuffer = []) → Bounded srv (x.run srv a) := by
    intro z hz hread hwait
    have heq : ∀ {y}, (x.run srv a).world.outstanding = [y] → y = z := fun hy =>
      (List.singleton_inj.mp (hz.symm.trans hy)).symm
    refine ⟨fun bytes hy => ?_, hf, fun y hy hw => ?_, fun _ _ _ => hb⟩
    · obtain rfl : bytes = [] := by
        rw [← heq hy] at hread
        exact hread
      exact Nat.zero_le _
    · rw [heq hy] at hw
      exact Or.inl (hwait hw)
  have hlast : x.state.world.outstanding = [] → Bounded srv (x.run srv a) := by
    intro hnone
    rcases rests_or_rearms srv a x with hrest | hre
    · exact bounded_of_none srv (hrest.outstanding.trans hnone) hf
    · have hnext := hre.outstanding
      rw [hnone, List.nil_append, ← buffer_run srv a] at hnext
      refine hone _ hnext ?_ fun hw => ?_
      · unfold nextActivity
        split
        · rfl
        · rfl
      · unfold nextActivity at hw
        split at hw
        · rename_i hempty
          exact List.isEmpty_iff.mp hempty
        · exact absurd rfl hw
  cases x with
  | stop t =>
    rcases h with h | ⟨z, hz, h⟩
    · exact hlast (h.trans ho)
    · refine hone z (h.trans (by rw [ho, List.nil_append])) ?_ fun hw => absurd hw hz.not_waits
      cases z with
      | handleRead bytes => exact absurd hz id
      | _ => rfl
  | reply m t books => exact hlast (h.2.trans ho)
  | finish t => exact hlast (Eq.trans h ho)

variable {srv}

/-- The counter while bytes are read. -/
theorem Inv.received_of_reading {s : AsyncConnection} (h : Inv srv s) {y : Activity}
    (ho : s.world.outstanding = [y]) (hy : ¬ y.Works) :
    s.itsReceivedBytes = s.itsBuffer.length := by
  obtain ⟨-, -, hph⟩ := h.released srv (i := 0) (by rw [ho]; rfl : s.world.outstanding[0]? = some y)
  cases y with
  | handshake => exact (show Reading srv s.bare from hph).received
  | read => exact (show Reading srv s.bare from hph).received
  | handleRead bytes => exact (show Reading srv s.bare from hph).received
  | task pool task => exact absurd trivial hy
  | write handler buffer => exact absurd trivial hy

/-- A queued call of `handleRead` keeps the bounds. -/
theorem Bounded.runRead {s : AsyncConnection} (hparse : Outgrows srv.spine.parseOneRequest)
    (hinv : Inv srv s) (h : Bounded srv s) {i : ℕ} {bytes : Bytes}
    (hi : s.world.outstanding[i]? = some (.handleRead bytes)) (a : Answers) :
    Bounded srv ((Tail.handleRead srv a .success bytes (s.release i)).run srv a) := by
  obtain ⟨ho, -, -, -⟩ := hinv.held_release hi
  have hreceived := hinv.received_of_reading ho id
  have hfits : 0 < srv.itsMaxRequestSize →
      (Tail.handleRead srv a .success bytes (s.release i)).state.itsBuffer.length ≤
        srv.itsMaxRequestSize := by
    intro hmax
    rcases buffer_handleRead srv a bytes (s.release i) with hsame | ⟨hle, hsuffix⟩
    · rw [hsame]
      exact h.fits hmax
    · have hall : s.itsReceivedBytes + bytes.length ≤ srv.itsMaxRequestSize := hle hmax
      have hlen := hsuffix.length_le
      rw [List.length_append] at hlen
      rw [hreceived] at hall
      exact hlen.trans hall
  obtain ⟨t, hf, hcase⟩ := hinv.runRead_cases hi a
  have hnone := hf.common.outstanding
  -- a refusal closes the connection
  have hrefuse : ∀ st (u : AsyncConnection), u.itsKeepAlive = false → u.world.outstanding = [] →
      (0 < srv.itsMaxRequestSize → u.itsBuffer.length ≤ srv.itsMaxRequestSize) →
      Bounded srv ((Tail.sendStockReply srv a st u).run srv a) := by
    intro st u hk hu hfu
    refine bounded_of_none srv ((outstanding_sendStockReply srv hk a).trans hu) fun hmax => ?_
    rw [buffer_run]
    exact hfu hmax
  rcases hcase with ⟨-, hx⟩ | ⟨-, -, hx⟩ | ⟨-, -, -, hb, hx⟩
  · rw [hx] at hfits ⊢
    exact hrefuse _ t hf.keepAlive hnone hfits
  · rw [hx] at hfits ⊢
    exact hrefuse _ t hf.keepAlive hnone hfits
  rw [hx] at hfits ⊢
  unfold Tail.parseBuffer at hfits ⊢
  rw [hb] at hfits ⊢
  cases hp : srv.spine.parseOneRequest (s.itsBuffer ++ bytes) with
  | complete r n =>
    rw [hp] at hfits
    let v : AsyncConnection :=
      { t with itsRequest := r, itsBuffer := (s.itsBuffer ++ bytes).drop n,
               itsReceivedBytes := ((s.itsBuffer ++ bytes).drop n).length }
    refine bounded_of_ends srv (s := v) (ends_handleParsedRequest srv a v) hnone a hfits ?_
    rw [(stretch_handleParsedRequest srv a _).buffer]
    -- what is left ends in the bytes of the last read
    have hdelivered := h.delivered bytes ho
    show ((s.itsBuffer ++ bytes).drop n).length ≤ socketBufferSize
    rw [List.length_drop, List.length_append]
    by_cases hempty : bytes = []
    · have hspare := h.spare _ ho (fun hw => hw hempty)
      rw [hempty, List.length_nil]
      omega
    · rcases h.incomplete _ ho hempty with hnil | hinc
      · rw [hnil, List.length_nil]
        omega
      · have := hparse _ _ _ _ hinc hp
        omega
  | failed =>
    rw [hp] at hfits
    exact hrefuse _ t hf.keepAlive hnone hfits
  | incomplete =>
    rw [hp] at hfits
    dsimp only at hfits ⊢
    have hgo : ∀ u, Tail.handleIncompleteRequest srv a t = .stop (startRead u) →
        Bounded srv ((Tail.handleIncompleteRequest srv a t).run srv a) := by
      intro u hu
      have hs := (stretch_handleIncompleteRequest srv a t).buffer
      rw [hu] at hs hfits ⊢
      have hbu : u.itsBuffer = s.itsBuffer ++ bytes := hs.trans hb
      have hread : ∀ {y}, (startRead u).world.outstanding = [y] → y = .read := by
        intro y hy
        have hlast : u.world.outstanding ++ [Activity.read] = [] ++ [y] := hy
        exact (List.singleton_inj.mp (List.append_inj' hlast rfl).2).symm
      refine ⟨fun b hy => ?_, hfits, fun y hy _ => ?_, fun y hy hw => ?_⟩
      · cases hread hy
      · right
        show srv.spine.parseOneRequest u.itsBuffer = .incomplete
        rw [hbu, hp]
      · rw [hread hy] at hw
        exact absurd trivial hw
    rcases handleIncompleteRequest_cases srv a t with
      ⟨-, heq⟩ | ⟨-, ⟨-, heq⟩ | ⟨-, -, heq⟩ | ⟨-, -, -, u, -, heq | ⟨hu, heq⟩⟩⟩
    · rw [heq] at hfits ⊢
      exact hrefuse _ _ rfl hnone hfits
    · exact hgo _ heq
    · rw [heq] at hfits ⊢
      exact hrefuse _ _ rfl hnone hfits
    · exact hgo _ heq
    · rw [heq] at hfits ⊢
      exact bounded_of_none srv (hu.trans hnone) hfits

/-- **One step** keeps the bounds. -/
theorem Bounded.step {s s' : AsyncConnection} {e : Event}
    (hparse : Outgrows srv.spine.parseOneRequest) (hinv : Inv srv s) (h : Bounded srv s)
    (hstep : step srv s e = some s') : Bounded srv s' := by
  obtain ⟨x, hx, rfl⟩ := exists_outcome srv hstep
  have hsame : (∀ i a, e ≠ .runRead i a) → (x.run srv e.answers).itsBuffer = s.itsBuffer :=
    fun he => (buffer_run srv _ x).trans (unlooked_tail srv hx he).buffer
  have hkept : (∀ i a, e ≠ .runRead i a) →
      (x.run srv e.answers).world.outstanding = s.world.outstanding →
      Bounded srv (x.run srv e.answers) := by
    intro he ho
    have hb := hsame he
    refine ⟨fun b hy => h.delivered b (ho.symm.trans hy), ?_, fun y hy hw => ?_, fun y hy hw => ?_⟩
    · rw [hb]
      exact h.fits
    · rw [hb]
      exact h.incomplete y (ho.symm.trans hy) hw
    · rw [hb]
      exact h.spare y (ho.symm.trans hy) hw
  -- a task or a write goes on with a reply
  have hresumed : e.Resumes → ∀ z, s.world.outstanding = [z] → z.Works →
      Bounded srv (x.run srv e.answers) := by
    intro hr z hz hw
    obtain ⟨i, y, hi, hends⟩ := ends_step srv hx hr
    obtain ⟨-, -, -, hnone⟩ := hinv.held_release hi
    have hread : ∀ i a, e ≠ .runRead i a := by
      rintro i a rfl
      exact hr
    have hb := (unlooked_tail srv hx hread).buffer
    refine bounded_of_ends srv hends hnone _ ?_ ?_
    · rw [hb]
      exact h.fits
    · rw [hb]
      exact h.spare z hz hw.not_waits
  -- the first read, and what it delivers
  have hone : ∀ y z, (∀ i a, e ≠ .runRead i a) → s.world.outstanding = [y] → y.Waits →
      (x.run srv e.answers).world.outstanding = [z] → z.Waits →
      (∀ b, z = .handleRead b → b.length ≤ socketBufferSize) →
      Bounded srv (x.run srv e.answers) := by
    intro y z he hy hyw hz hzw hdel
    have hb := hsame he
    refine ⟨fun b hy' => hdel b ?_, ?_, fun _ _ _ => ?_, fun y' hy' hw => ?_⟩
    · exact List.singleton_inj.mp (hz.symm.trans hy')
    · rw [hb]
      exact h.fits
    · rw [hb]
      exact h.incomplete y hy hyw
    · obtain rfl := List.singleton_inj.mp (hz.symm.trans hy')
      exact absurd hzw hw
  have hover : (∀ i a, e ≠ .runRead i a) → (x.run srv e.answers).world.outstanding = [] →
      Bounded srv (x.run srv e.answers) := by
    intro he ho
    refine bounded_of_none srv ho ?_
    rw [hsame he]
    exact h.fits
  cases e with
  | handshake i ok =>
    have hx' := hx
    simp only [Tail.step, AsyncConnection.step] at hx'
    split at hx'
    · rename_i hi
      obtain rfl := Option.some.inj hx'
      obtain ⟨ho, -, -, hnone⟩ := hinv.held_release hi
      cases ok with
      | true =>
        refine hone .handshake .read (by simp) ho trivial ?_ trivial (by simp)
        exact congrArg (· ++ [Activity.read]) hnone
      | false => exact hover (by simp) hnone
    · cases hx'
  | receive i bytes =>
    have hx' := hx
    simp only [Tail.step, AsyncConnection.step] at hx'
    split at hx'
    · rename_i hi
      split at hx'
      · rename_i hb
        obtain rfl := Option.some.inj hx'
        obtain ⟨ho, -, -, hnone⟩ := hinv.held_release hi
        refine hone .read (.handleRead bytes) (by simp) ho trivial ?_ hb.1 ?_
        · exact congrArg (· ++ [Activity.handleRead bytes]) hnone
        · rintro b heq
          obtain rfl := Activity.handleRead.inj heq
          exact hb.2.1
      · cases hx'
    · cases hx'
  | readFails i err a =>
    have hx' := hx
    simp only [Tail.step] at hx'
    split at hx'
    · rename_i hi
      split at hx'
      · obtain rfl := Option.some.inj hx'
        obtain ⟨-, -, -, hnone⟩ := hinv.held_release hi
        obtain ⟨hrel, -, hph⟩ := hinv.released srv hi
        have hk : (s.release i).itsKeepAlive = false := by
          rw [hrel]
          exact (show Reading srv s.bare from hph).keepAlive
        refine hover (by simp) ?_
        show ((Tail.handleRead srv a err [] (s.release i)).run srv a).world.outstanding = []
        unfold Tail.handleRead
        split
        · exact (outstanding_sendStockReply srv hk a).trans hnone
        · exact hnone
      · cases hx'
    · cases hx'
  | runRead i a =>
    simp only [Tail.step] at hx
    split at hx
    · rename_i bytes hi
      obtain rfl := Option.some.inj hx
      exact h.runRead hparse hinv hi a
    · cases hx
  | runTask i a =>
    have hx' := hx
    simp only [Tail.step] at hx'
    split at hx'
    · rename_i pool task hi
      exact hresumed trivial _ (hinv.held_release hi).1 trivial
    · cases hx'
  | writeSome i n a =>
    have hx' := hx
    simp only [Tail.step] at hx'
    split at hx'
    · rename_i handler buffer hi
      exact hresumed trivial _ (hinv.held_release hi).1 trivial
    · cases hx'
  | writeFails i a =>
    have hx' := hx
    simp only [Tail.step] at hx'
    split at hx'
    · rename_i handler buffer hi
      exact hresumed trivial _ (hinv.held_release hi).1 trivial
    · cases hx'
  | timerExpires =>
    have hx' := hx
    simp only [Tail.step, AsyncConnection.step] at hx'
    split at hx'
    · obtain rfl := Option.some.inj hx'
      exact hkept (by simp) rfl
    · cases hx'
  | runTimer generation a =>
    have hx' := hx
    simp only [Tail.step] at hx'
    split at hx'
    · rename_i w hw
      obtain rfl := Option.some.inj hx'
      refine hkept (by simp) ?_
      exact (handleTimer_frame srv a _ generation
        { s with world.waits := s.world.waits.erase w }).1
    · cases hx'
  | requestShutdown =>
    have hx' := hx
    obtain rfl := Option.some.inj hx'
    exact hkept (by simp) rfl

theorem bounded_start : Bounded srv (start srv) := by
  have hbuf : (start srv).itsBuffer = [] := by
    unfold start
    dsimp only
    split
    · rfl
    · rfl
  have hout : ∀ y, (start srv).world.outstanding = [y] → y.Waits ∧ y.unread = [] := by
    intro y hy
    unfold start at hy
    dsimp only at hy
    split at hy
    · obtain rfl := List.singleton_inj.mp (show [Activity.handshake] = [y] from hy)
      exact ⟨trivial, rfl⟩
    · obtain rfl := List.singleton_inj.mp (show [Activity.read] = [y] from hy)
      exact ⟨trivial, rfl⟩
  refine ⟨fun b hy => ?_, fun _ => ?_, fun _ _ _ => Or.inl hbuf, fun y hy hw => ?_⟩
  · exact absurd (hout _ hy).2 (hout _ hy).1
  · rw [hbuf]
    exact Nat.zero_le _
  · exact absurd (hout y hy).1 hw

variable (srv)

/-- **The accounts of the buffer**: the counter is its size whenever bytes are read or
about to be looked at, the limit of a request is kept, and what a re-armed connection
starts with is less than one socket buffer. -/
theorem buffer_accounted (hparse : Outgrows srv.spine.parseOneRequest) {s : AsyncConnection}
    (h : Reachable srv s) :
    (∀ y ∈ s.world.outstanding, y = .read ∨ (∃ bytes, y = .handleRead bytes) →
      s.itsReceivedBytes = s.itsBuffer.length) ∧
    (0 < srv.itsMaxRequestSize → s.itsBuffer.length ≤ srv.itsMaxRequestSize) ∧
    ∀ e s', step srv s e = some s' → past s'.world.trace ≠ past s.world.trace →
      s'.itsBuffer.length ≤ socketBufferSize := by
  have hrun : ∀ {u}, Reachable srv u → Inv srv u ∧ Bounded srv u := by
    rintro u ⟨es, hes⟩
    refine Transition.run_preserves (P := fun v => Inv srv v ∧ Bounded srv v) ?_
      ⟨inv_start srv, bounded_start⟩ hes
    intro v e v' hv hstep
    exact ⟨inv_step srv hv.1 hstep, hv.2.step hparse hv.1 hstep⟩
  obtain ⟨hinv, hb⟩ := hrun h
  refine ⟨?_, hb.fits, ?_⟩
  · intro y hy hkind
    obtain ⟨i, hi⟩ := List.mem_iff_getElem?.mp hy
    obtain ⟨ho, -, -, -⟩ := hinv.held_release hi
    rcases hkind with rfl | ⟨bytes, rfl⟩
    · exact hinv.received_of_reading ho id
    · exact hinv.received_of_reading ho id
  · intro e s' hstep hpast
    have hinv' := inv_step srv hinv hstep
    have hb' := hb.step hparse hinv hstep
    obtain ⟨x, hx, rfl⟩ := exists_outcome srv hstep
    have hquiet : past x.state.world.trace = past s.world.trace := by
      obtain ⟨new, hnew, hev⟩ := (trail_step srv hx).events
      rw [hnew]
      exact past_append fun o ho => not_rearmed_of_stepEvent srv (hev o ho).1
    rcases rests_or_rearms srv e.answers x with hrest | hre
    · exact absurd (hrest.past.trans hquiet) hpast
    · -- the connection was re-armed: it reads, or looks at what it holds
      have hnext := hre.outstanding
      rw [← buffer_run srv e.answers] at hnext
      have hmem : (x.run srv e.answers).world.outstanding[x.state.world.outstanding.length]? =
          some (nextActivity (x.run srv e.answers).itsBuffer) := by
        rw [hnext]
        exact List.getElem?_concat_length ..
      obtain ⟨ho, -, -, -⟩ := hinv'.held_release hmem
      by_cases hempty : (x.run srv e.answers).itsBuffer = []
      · rw [hempty]
        exact Nat.zero_le _
      · refine hb'.spare _ ho ?_
        unfold nextActivity
        rw [if_neg (by rwa [List.isEmpty_iff])]
        exact fun hw => hw rfl

theorem outgrows_parseBodyless : Outgrows MinimalSpine.parseBodyless := by
  intro b c r n hinc hcomplete
  have hnone : find crlfcrlf b 0 = none := by
    cases hf : find crlfcrlf b 0 with
    | none => rfl
    | some stop =>
      unfold MinimalSpine.parseBodyless at hinc
      rw [hf] at hinc
      dsimp only at hinc
      split at hinc
      · cases hinc
      · cases hinc
  unfold MinimalSpine.parseBodyless at hcomplete
  cases hf : find crlfcrlf (b ++ c) 0 with
  | none =>
    rw [hf] at hcomplete
    cases hcomplete
  | some stop =>
    rw [hf] at hcomplete
    dsimp only at hcomplete
    split at hcomplete
    · obtain ⟨-, rfl⟩ := Parsed.complete.inj hcomplete
      by_contra hle
      -- the empty line would stand in the part that was incomplete
      obtain ⟨-, -, hp, -⟩ := find_eq_some.mp hf
      refine find_eq_none.mp hnone stop (by omega) (Nat.zero_le _) ?_
      rw [List.drop_append_of_le_length (by omega)] at hp
      refine List.prefix_of_prefix_length_le hp (List.prefix_append _ _) ?_
      rw [List.length_drop, show crlfcrlf.length = 4 by decide]
      omega
    · cases hcomplete

/-- A read that ends one request and begins the next. -/
theorem buffer_accounted_split :
    ∃ s s', Reachable MinimalSpine.server s ∧
      step MinimalSpine.server s (.runRead 0 MinimalSpine.answers) = some s' ∧
      past s'.world.trace ≠ past s.world.trace ∧ s'.itsBuffer = "GET /x HTTP".toList ∧
      s.itsReceivedBytes = s.itsBuffer.length ∧ s'.itsBuffer.length ≤ socketBufferSize := by
  obtain ⟨s, hs, hp⟩ := MinimalSpine.reached (splitRun.take 3)
    (fun s => s.world.outstanding == [.handleRead "st: h\r\n\r\nGET /x HTTP".toList] &&
      (step MinimalSpine.server s (.runRead 0 MinimalSpine.answers)).any fun s' =>
        past s'.world.trace != past s.world.trace && s'.itsBuffer == "GET /x HTTP".toList)
    (by decide +kernel)
  obtain ⟨ho, hp⟩ := Bool.and_eq_true_iff.mp hp
  rw [Option.any_eq_true] at hp
  obtain ⟨s', hstep, hp⟩ := hp
  obtain ⟨hpast, hbuf⟩ := Bool.and_eq_true_iff.mp hp
  have hpast' : past s'.world.trace ≠ past s.world.trace := by simpa using hpast
  obtain ⟨hcount, -, hcarried⟩ := buffer_accounted MinimalSpine.server outgrows_parseBodyless
    ⟨_, hs⟩
  refine ⟨s, s', ⟨_, hs⟩, hstep, hpast', by simpa using hbuf, ?_, hcarried _ _ hstep hpast'⟩
  refine hcount (.handleRead "st: h\r\n\r\nGET /x HTTP".toList) ?_ (Or.inr ⟨_, rfl⟩)
  rw [beq_iff_eq.mp ho]
  exact List.mem_singleton_self _

end AsyncConnection

end SmartMet
