/-
# The frequency of errors (`main/smartmetd.cpp`)

`MaxEventFreq` keeps the times of the last errors in an array of fixed size,
which every check compacts in place.  An index outside of the array, or a loop
that does not end, leaves a check without a result.

* `check_eq` : what one check does to the entries in use;
* `check_window` : the checks of any run are those of a sliding window over the
  whole history, as long as the window can be counted in nanoseconds.

The readings of the clock and the durations are 64 bit numbers of nanoseconds, and
their arithmetic wraps around.
-/
import Mathlib.Algebra.Group.Int.Defs
import Mathlib.Algebra.Group.Nat.Defs
import Mathlib.Data.Int.Notation
import Mathlib.Data.List.TakeWhile
import SmartMetServer.Transition

namespace SmartMet

/-- The members of `MaxEventFreq`. -/
structure MaxEventFreq (maxCount : ℕ) where
  itsCount : ℕ := 0
  itsTimeWindowInSec : ℕ
  itsTimePoints : Vector ℤ maxCount := Vector.replicate maxCount 0
  deriving DecidableEq, Repr

namespace MaxEventFreq

variable {maxCount : ℕ}

/-! ## The functions -/

/-- The 64 bit number an arithmetic result is stored as. -/
def wrap (x : ℤ) : ℤ := x.bmod (2 ^ 64)

/-- `std::chrono::seconds`, converted to the nanoseconds of the clock. -/
def seconds (n : ℕ) : ℤ := wrap (wrap n * 1000000000)

/-- The start of the window that ends at a reading of the clock. -/
def oldest (now : ℤ) (timeWindowInSec : ℕ) : ℤ := wrap (now - seconds timeWindowInSec)

/-- The assignment to an entry. -/
def store (points : Vector ℤ maxCount) (j : ℕ) (p : ℤ) : Option (Vector ℤ maxCount) :=
  if h : j < maxCount then some (points.set j p h) else none

/-- The first loop: it passes the entries before `oldest`. -/
def skip (points : Vector ℤ maxCount) (itsCount : ℕ) (oldest : ℤ) : ℕ → ℕ → Option ℕ
  | 0, _ => none
  | fuel + 1, i =>
    if i < itsCount then
      match points[i]? with
      | some p => if p < oldest then skip points itsCount oldest fuel (i + 1) else some i
      | none => none
    else some i

/-- The second loop: the entries from `i` on are moved to the front. -/
def shift (itsCount i : ℕ) : ℕ → ℕ → Vector ℤ maxCount → Option (Vector ℤ maxCount)
  | 0, _, _ => none
  | fuel + 1, j, points =>
    if j + i < itsCount then
      match points[i + j]? with
      | some p =>
        match store points j p with
        | some points => shift itsCount i fuel (j + 1) points
        | none => none
      | none => none
    else some points

/-- `check` at a reading of the clock: whether it returns without throwing, and
the state. -/
def check (now : ℤ) (s : MaxEventFreq maxCount) : Option (Bool × MaxEventFreq maxCount) :=
  match skip s.itsTimePoints s.itsCount (oldest now s.itsTimeWindowInSec) (s.itsCount + 1) 0 with
  | none => none
  | some i =>
    match shift s.itsCount i (s.itsCount + 1) 0 s.itsTimePoints with
    | none => none
    | some points =>
      let s := { s with itsTimePoints := points, itsCount := s.itsCount - i }
      if s.itsCount ≥ maxCount then some (false, s)
      else
        match store s.itsTimePoints s.itsCount now with
        | none => none
        | some points => some (true, { s with itsTimePoints := points, itsCount := s.itsCount + 1 })

/-! ## One check -/

/-- The entries in use. -/
def events (s : MaxEventFreq maxCount) : List ℤ := s.itsTimePoints.toList.take s.itsCount

/-- The ring holds as many events as are counted. -/
theorem length_events {s : MaxEventFreq maxCount} (h : s.itsCount ≤ maxCount) :
    s.events.length = s.itsCount := by
  unfold events
  rw [List.length_take, Vector.length_toList]
  exact Nat.min_eq_left h

/-- The first loop counts the entries it passes. -/
theorem skip_eq {points : Vector ℤ maxCount} {n : ℕ} {oldest : ℤ} (hn : n ≤ maxCount)
    {fuel i : ℕ} (hi : i ≤ n) (hfuel : n - i < fuel) :
    skip points n oldest fuel i = some (i +
      (((points.toList.take n).drop i).takeWhile fun p => decide (p < oldest)).length) := by
  induction fuel generalizing i with
  | zero => omega
  | succ fuel ih =>
    unfold skip
    by_cases hlt : i < n
    · have hat : i < maxCount := by omega
      have hcut : (points.toList.take n).drop i
          = points[i] :: (points.toList.take n).drop (i + 1) := by
        have hlen : i < (points.toList.take n).length := by
          rw [List.length_take, Vector.length_toList]
          omega
        rw [List.drop_eq_getElem_cons hlen, List.getElem_take, Vector.getElem_toList]
      rw [if_pos hlt, Vector.getElem?_eq_getElem hat, hcut]
      dsimp only
      by_cases hold : points[i] < oldest
      · rw [if_pos hold, List.takeWhile_cons_of_pos (by simpa using hold),
          ih (by omega) (by omega), List.length_cons]
        congr 1
        omega
      · rw [if_neg hold, List.takeWhile_cons_of_neg (by simpa using hold)]
        rfl
    · have hend : (points.toList.take n).drop i = [] := by
        apply List.drop_eq_nil_of_le
        rw [List.length_take]
        omega
      rw [if_neg hlt, hend]
      rfl

/-- The second loop from `j` on: the entries before `j` stay, those behind are
taken from `i` places further. -/
theorem shift_spec {n i : ℕ} (hn : n ≤ maxCount) {fuel j : ℕ} (hfuel : n - i - j < fuel)
    (points : Vector ℤ maxCount) :
    ∃ q, shift n i fuel j points = some q ∧
      ∀ k, k < n - i → q[k]? = if k < j then points[k]? else points[i + k]? := by
  induction fuel generalizing j points with
  | zero => omega
  | succ fuel ih =>
    unfold shift
    by_cases hlt : j + i < n
    · have hfrom : i + j < maxCount := by omega
      have hto : j < maxCount := by omega
      rw [if_pos hlt, Vector.getElem?_eq_getElem hfrom]
      unfold store
      dsimp only
      rw [dif_pos hto]
      dsimp only
      obtain ⟨q, hq, hget⟩ := ih (j := j + 1) (by omega) (points.set j points[i + j] hto)
      refine ⟨q, hq, ?_⟩
      intro k hk
      rw [hget k hk, Vector.getElem?_set, Vector.getElem?_set]
      rcases lt_trichotomy k j with hkj | rfl | hkj
      · rw [if_pos (by omega), if_neg (by omega), if_pos hkj]
      · rw [if_pos (by omega), if_pos rfl, if_neg (by omega), Vector.getElem?_eq_getElem hfrom]
      · rw [if_neg (by omega), if_neg (by omega), if_neg (by omega)]
    · rw [if_neg hlt]
      refine ⟨points, rfl, ?_⟩
      intro k hk
      rw [if_pos (by omega)]

/-- The entries behind the first `i` end up at the front. -/
theorem shift_eq {n i : ℕ} (hn : n ≤ maxCount) (points : Vector ℤ maxCount) :
    ∃ q, shift n i (n + 1) 0 points = some q ∧
      q.toList.take (n - i) = (points.toList.take n).drop i := by
  obtain ⟨q, hq, hget⟩ := shift_spec hn (show n - i - 0 < n + 1 by omega) points
  refine ⟨q, hq, ?_⟩
  apply List.ext_getElem?
  intro k
  rw [List.getElem?_take, List.getElem?_drop, List.getElem?_take, Vector.getElem?_toList,
    Vector.getElem?_toList]
  by_cases hk : k < n - i
  · rw [if_pos hk, if_pos (by omega), hget k hk, if_neg (by omega)]
  · rw [if_neg hk, if_neg (by omega)]

/-- An entry is added behind those in use. -/
theorem take_store {points : Vector ℤ maxCount} {n : ℕ} (hn : n < maxCount) (p : ℤ) :
    ∃ q, store points n p = some q ∧ q.toList.take (n + 1) = points.toList.take n ++ [p] := by
  refine ⟨points.set n p hn, dif_pos hn, ?_⟩
  have hlen : n < (points.toList.set n p).length := by
    rw [List.length_set, Vector.length_toList]
    exact hn
  rw [Vector.toList_set, List.take_succ_eq_append_getElem hlen, List.getElem_set_self,
    List.take_set_of_le (Nat.le_refl n)]

/-- **One check.**  The entries before the window are dropped, and if the array
has room then the reading is added. -/
theorem check_eq {s : MaxEventFreq maxCount} (h : s.itsCount ≤ maxCount) (now : ℤ) :
    ∃ s' : MaxEventFreq maxCount,
      s'.itsTimeWindowInSec = s.itsTimeWindowInSec ∧ s'.itsCount ≤ maxCount ∧
        let kept := s.events.dropWhile fun p => decide (p < oldest now s.itsTimeWindowInSec)
        s.check now = some (decide (kept.length < maxCount), s') ∧
          s'.events = if kept.length < maxCount then kept ++ [now] else kept := by
  let oldest := oldest now s.itsTimeWindowInSec
  let i := (s.events.takeWhile fun p => decide (p < oldest)).length
  -- the loop stops at the first event inside the window
  have hskip : skip s.itsTimePoints s.itsCount oldest (s.itsCount + 1) 0 = some i := by
    rw [skip_eq h (Nat.zero_le _) (by omega), Nat.zero_add]
    rfl
  obtain ⟨q, hq, hkept⟩ := shift_eq (i := i) h s.itsTimePoints
  -- what is moved to the front are the events behind that
  have hdrop : (s.itsTimePoints.toList.take s.itsCount).drop i
      = s.events.dropWhile fun p => decide (p < oldest) := by
    have hcut := List.takeWhile_append_dropWhile (p := fun p => decide (p < oldest)) (l := s.events)
    calc s.events.drop i
        = ((s.events.takeWhile fun p => decide (p < oldest)) ++
            s.events.dropWhile fun p => decide (p < oldest)).drop i := by rw [hcut]
      _ = s.events.dropWhile fun p => decide (p < oldest) := List.drop_left
  rw [hdrop] at hkept
  have hlen : (s.events.dropWhile fun p => decide (p < oldest)).length = s.itsCount - i := by
    rw [← hdrop, List.length_drop, List.length_take, Vector.length_toList, Nat.min_eq_left h]
  unfold check
  dsimp only
  rw [hskip, hlen]
  dsimp only
  rw [hq]
  dsimp only
  by_cases hroom : s.itsCount - i < maxCount
  · obtain ⟨q', hq', hadded⟩ := @take_store _ q _ hroom now
    rw [if_neg (by omega), hq', if_pos hroom]
    refine ⟨{ s with itsTimePoints := q', itsCount := s.itsCount - i + 1 }, rfl, hroom, ?_, ?_⟩
    · rw [decide_eq_true hroom]
    · show q'.toList.take (s.itsCount - i + 1) = _
      rw [hadded, hkept]
  · rw [if_pos (by omega), if_neg hroom]
    refine ⟨{ s with itsTimePoints := q, itsCount := s.itsCount - i }, rfl, ?_, ?_, hkept⟩
    · show s.itsCount - i ≤ maxCount
      omega
    · rw [decide_eq_false hroom]

/-! ## The window -/

/-- A number of seconds in nanoseconds. -/
def nanoseconds (n : ℕ) : ℤ := n * 1000000000

/-- No result overflows: the length of the window, its start and its end at `now` are 64 bit
numbers. -/
def Fits (timeWindowInSec : ℕ) (now : ℤ) : Prop :=
  nanoseconds timeWindowInSec < 2 ^ 63 ∧ -2 ^ 63 ≤ now - nanoseconds timeWindowInSec ∧ now < 2 ^ 63

instance (n : ℕ) (now : ℤ) : Decidable (Fits n now) := inferInstanceAs (Decidable (_ ∧ _))

/-- A number of 64 bits is stored as it is. -/
theorem wrap_eq {x : ℤ} (hlow : -2 ^ 63 ≤ x) (hhigh : x < 2 ^ 63) : wrap x = x := by
  refine Int.bmod_eq_of_le ?_ ?_
  · exact hlow
  · exact hhigh

/-- A setting is no negative number. -/
theorem nanoseconds_nonneg (n : ℕ) : 0 ≤ nanoseconds n := by
  unfold nanoseconds
  omega

/-- Where the start of the window fits, it is as far back as was set. -/
theorem oldest_eq {w : ℕ} {t : ℤ} (h : Fits w t) : oldest t w = t - nanoseconds w := by
  have hmod : oldest t w = wrap (t - nanoseconds w) := by
    unfold oldest seconds wrap nanoseconds
    rw [Int.bmod_mul_bmod, Int.sub_bmod_bmod]
  have hnonneg := nanoseconds_nonneg w
  rw [hmod]
  refine wrap_eq h.2.1 ?_
  have := h.2.2
  omega

/-! ## The history -/

/-- The readings of a history in the closed window that ends at `t`. -/
def window (length : ℤ) (history : List ℤ) (t : ℤ) : List ℤ :=
  history.filter fun r => decide (t - length ≤ r ∧ r ≤ t)

/-- The object, and the readings of the checks that returned so far. -/
structure Recorded (maxCount : ℕ) where
  freq : MaxEventFreq maxCount
  history : List ℤ := []
  deriving DecidableEq, Repr

namespace Recorded

/-- A check at the reading `t`. -/
def step (u : Recorded maxCount) (t : ℤ) : Option (Recorded maxCount) :=
  (u.freq.check t).map fun p =>
    { freq := p.2, history := if p.1 then u.history ++ [t] else u.history }

/-- A new object. -/
def start (maxCount timeWindowInSec : ℕ) : Recorded maxCount :=
  { freq := { itsTimeWindowInSec := timeWindowInSec } }

/-- The entries in use are the readings of a window that ends at `t` or before,
and no reading is behind `t`. -/
structure Exact (w : ℕ) (u : Recorded maxCount) (t : ℤ) : Prop where
  count : u.freq.itsCount ≤ maxCount
  setting : u.freq.itsTimeWindowInSec = w
  sorted : u.history.Pairwise (· ≤ ·)
  past : ∀ r ∈ u.history, r ≤ t
  entries : ∃ oldest ≤ t - nanoseconds w,
    u.freq.events = u.history.filter fun r => decide (oldest ≤ r)

/-- No event was counted yet. -/
theorem exact_start (w : ℕ) (t : ℤ) : Exact w (start maxCount w) t := by
  refine ⟨Nat.zero_le _, rfl, List.Pairwise.nil, ?_, t - nanoseconds w, Int.le_refl _, rfl⟩
  intro r hr
  cases hr

/-- The clock goes on. -/
theorem Exact.mono {w : ℕ} {u : Recorded maxCount} {t t' : ℤ} (h : Exact w u t) (ht : t ≤ t') :
    Exact w u t' := by
  obtain ⟨oldest, hle, hentries⟩ := h.entries
  refine ⟨h.count, h.setting, h.sorted, fun r hr => Int.le_trans (h.past r hr) ht, oldest, ?_,
    hentries⟩
  omega

/-- What is left of a sorted list behind its small elements. -/
theorem dropWhile_eq_filter {l : List ℤ} (h : l.Pairwise (· ≤ ·)) (c : ℤ) :
    (l.dropWhile fun p => decide (p < c)) = l.filter fun p => decide (c ≤ p) := by
  induction l with
  | nil => rfl
  | cons x l ih =>
    obtain ⟨hx, hl⟩ := List.pairwise_cons.mp h
    by_cases hc : x < c
    · rw [List.dropWhile_cons_of_pos (by simpa using hc), List.filter_cons_of_neg (by simpa using hc)]
      exact ih hl
    · rw [List.dropWhile_cons_of_neg (by simpa using hc), eq_comm]
      apply List.filter_eq_self.mpr
      intro y hy
      rcases List.mem_cons.mp hy with rfl | hy
      · simpa using hc
      · have := hx y hy
        simp only [decide_eq_true_eq]
        omega

/-- The entries a check keeps are the window of the history. -/
theorem Exact.kept {w : ℕ} {u : Recorded maxCount} {t : ℤ} (h : Exact w u t)
    (hfits : Fits w t) :
    (u.freq.events.dropWhile fun p => decide (p < MaxEventFreq.oldest t w))
      = window (nanoseconds w) u.history t := by
  rw [oldest_eq hfits]
  obtain ⟨oldest, hle, hentries⟩ := h.entries
  rw [hentries, dropWhile_eq_filter (h.sorted.filter _), List.filter_filter]
  apply List.filter_congr
  intro r hr
  have := h.past r hr
  rw [← Bool.decide_and]
  apply decide_eq_decide.mpr
  omega

/-- A check at `t` is the one of the window that ends at `t`. -/
theorem Exact.check {w : ℕ} {u : Recorded maxCount} {t : ℤ} (h : Exact w u t)
    (hfits : Fits w t) :
    ∃ ok s, u.freq.check t = some (ok, s) ∧
      (ok = true ↔ (window (nanoseconds w) u.history t).length < maxCount) ∧
      s.itsCount ≤ maxCount ∧ s.itsTimeWindowInSec = w ∧
      s.events = window (nanoseconds w) (if ok then u.history ++ [t] else u.history) t := by
  obtain ⟨s, hsetting, hcount, hcheck, hevents⟩ := check_eq h.count t
  rw [h.setting, h.kept hfits] at hcheck hevents
  refine ⟨_, s, hcheck, decide_eq_true_iff, hcount, hsetting.trans h.setting, ?_⟩
  rw [hevents]
  by_cases hroom : (window (nanoseconds w) u.history t).length < maxCount
  · have hnow : t - nanoseconds w ≤ t ∧ t ≤ t := by
      have : (0 : ℤ) ≤ nanoseconds w := nanoseconds_nonneg w
      omega
    rw [if_pos hroom, if_pos (decide_eq_true hroom)]
    unfold window
    rw [List.filter_append, List.filter_singleton, decide_eq_true hnow]
    rfl
  · rw [if_neg hroom, decide_eq_false hroom]
    rfl

/-- A check leaves the entries of its window. -/
theorem Exact.step {w : ℕ} {u : Recorded maxCount} {t : ℤ} (h : Exact w u t)
    (hfits : Fits w t) :
    ∃ u', u.step t = some u' ∧ Exact w u' t := by
  obtain ⟨ok, s, hcheck, -, hcount, hsetting, hevents⟩ := h.check hfits
  have hpast : ∀ r ∈ (if ok then u.history ++ [t] else u.history), r ≤ t := by
    intro r hr
    split at hr
    · rcases List.mem_append.mp hr with hr | hr
      · exact h.past r hr
      · obtain rfl := List.mem_singleton.mp hr
        exact Int.le_refl r
    · exact h.past r hr
  refine ⟨⟨s, if ok then u.history ++ [t] else u.history⟩, ?_, hcount, hsetting, ?_, hpast,
    t - nanoseconds w, Int.le_refl _, ?_⟩
  · unfold Recorded.step
    rw [hcheck]
    rfl
  · show (if ok then u.history ++ [t] else u.history).Pairwise (· ≤ ·)
    split
    · refine List.pairwise_append.mpr ⟨h.sorted, List.pairwise_singleton _ _, ?_⟩
      intro r hr x hx
      rw [List.mem_singleton.mp hx]
      exact h.past r hr
    · exact h.sorted
  · rw [hevents]
    unfold window
    apply List.filter_congr
    intro r hr
    have := hpast r hr
    apply decide_eq_decide.mpr
    omega

/-- A run of checks on a clock that does not go back. -/
theorem Exact.run {w : ℕ} {ts : List ℤ} {t : ℤ} (hclock : (ts ++ [t]).Pairwise (· ≤ ·))
    (hfits : ∀ x ∈ ts, Fits w x) {u : Recorded maxCount} (h : ∀ x ∈ ts ++ [t], Exact w u x) :
    ∃ u', Transition.run Recorded.step u ts = some u' ∧ Exact w u' t := by
  induction ts generalizing u with
  | nil => exact ⟨u, rfl, h t (List.mem_singleton.mpr rfl)⟩
  | cons x ts ih =>
    obtain ⟨hx, hrest⟩ := List.pairwise_cons.mp hclock
    obtain ⟨hfit, hfits⟩ := List.forall_mem_cons.mp hfits
    obtain ⟨v, hv, hexact⟩ := (h x List.mem_cons_self).step hfit
    obtain ⟨u', hrun, hu'⟩ := ih hrest hfits fun y hy => hexact.mono (hx y hy)
    exact ⟨u', Transition.run_cons.mpr ⟨v, hv, hrun⟩, hu'⟩

/-- **The checks are those of an exact sliding window.**  After any readings of
a clock that does not go back, from each of which the window can be counted back in 64
bits, a check at `t` returns exactly when fewer than `maxCount` of the checks that
returned before have their reading in the closed window that ends at `t`.  One that
throws is not recorded.  Then the entries in use are in order, and are the recorded
checks of that window; no loop and no index fails on the way. -/
theorem check_window (timeWindowInSec : ℕ) {before : List ℤ} {t : ℤ}
    (hclock : (before ++ [t]).Pairwise (· ≤ ·))
    (hfits : ∀ x ∈ before ++ [t], Fits timeWindowInSec x) :
    ∃ u ok s, Transition.run Recorded.step (start maxCount timeWindowInSec) before = some u ∧
      u.freq.check t = some (ok, s) ∧
      (ok = true ↔ (window (nanoseconds timeWindowInSec) u.history t).length < maxCount) ∧
      s.itsCount ≤ maxCount ∧ s.events.length = s.itsCount ∧ s.events.Pairwise (· ≤ ·) ∧
      s.events = window (nanoseconds timeWindowInSec)
        (if ok then u.history ++ [t] else u.history) t := by
  obtain ⟨hbefore, hnow⟩ := List.forall_mem_append.mp hfits
  have hfit : Fits timeWindowInSec t := hnow t (List.mem_singleton.mpr rfl)
  obtain ⟨u, hrun, hexact⟩ := Exact.run hclock hbefore
    (fun x _ => @exact_start maxCount timeWindowInSec x)
  obtain ⟨ok, s, hcheck, hok, hcount, -, hevents⟩ := hexact.check hfit
  refine ⟨u, ok, s, hrun, hcheck, hok, hcount, length_events hcount, ?_, hevents⟩
  obtain ⟨u', hstep, hu'⟩ := hexact.step hfit
  rw [Recorded.step, hcheck] at hstep
  obtain rfl := Option.some.inj hstep
  rw [hevents]
  exact hu'.sorted.filter _

/-- A third event within a minute, when two are allowed. -/
theorem check_window_full :
    [(0 : ℤ), 1, 60000000000].Pairwise (· ≤ ·) ∧
      ∃ u ok s, Transition.run Recorded.step (start 2 60) [0, 1] = some u ∧
        u.freq.check 60000000000 = some (ok, s) ∧ ok = false := by
  have hclock : ([(0 : ℤ), 1] ++ [60000000000]).Pairwise (· ≤ ·) := by decide
  refine ⟨hclock, ?_⟩
  obtain ⟨u, ok, s, hrun, hcheck, hok, -⟩ := @check_window 2 60 _ _ hclock (by decide)
  refine ⟨u, ok, s, hrun, hcheck, ?_⟩
  have hu : u.history = [0, 1] := by
    have hreached : (Transition.run Recorded.step (start 2 60) [0, 1]).map Recorded.history
        = some [0, 1] := by decide +kernel
    rw [hrun] at hreached
    exact Option.some.inj hreached
  rw [hu] at hok
  have hfull : ¬ (window (nanoseconds 60) [0, 1] 60000000000).length < 2 := by decide
  exact Bool.eq_false_iff.mpr fun h => hfull (hok.mp h)

/-- **A window that cannot be counted in nanoseconds limits nothing.**  Its start comes
out behind the reading of the clock, so that each check drops the entries before it. -/
theorem check_window_wraps :
    [(0 : ℤ), 1, 2].Pairwise (· ≤ ·) ∧
      ∃ u s, Transition.run Recorded.step (start 1 10000000000) [0, 1] = some u ∧
        u.history = [0, 1] ∧ u.freq.check 2 = some (true, s) ∧
        ¬ (window (nanoseconds 10000000000) u.history 2).length < 1 := by
  have hreached : (Transition.run Recorded.step (start 1 10000000000) [0, 1]).any (fun u =>
      u.history == [0, 1] && (u.freq.check 2).any fun p => p.1) = true := by decide +kernel
  obtain ⟨u, hrun, hu⟩ := Option.any_eq_true _ _ |>.mp hreached
  obtain ⟨hhistory, hcheck⟩ := (Bool.and_eq_true _ _).mp hu
  obtain ⟨⟨ok, s⟩, hs, hok⟩ := Option.any_eq_true _ _ |>.mp hcheck
  obtain rfl : ok = true := hok
  refine ⟨by decide, u, s, hrun, beq_iff_eq.mp hhistory, hs, ?_⟩
  rw [beq_iff_eq.mp hhistory]
  decide

end Recorded

end MaxEventFreq

end SmartMet
