/-
# Runs that come to an end

A measure that the steps decrease bounds the length of a run, and where there is
always a step that decreases it, some run comes to an end.

* `count_add_potential_le` : a run has no more counted steps than it gains credit for;
* `count_add_measure_le` : a run has no more decreasing steps than the measure;
* `exists_run_of_runs`, `exists_run_of_measure` : a machine that can always go on
  towards a goal can reach it.
-/
import Mathlib.Data.List.Count
import SmartMetServer.Transition

namespace Transition

variable {σ ε : Type*}

/-- **Runs that are paid for.**  If a step gains credit for what it adds to the measure,
and one more if its event is in `G`, then the credit a run gains pays for its events
in `G`. -/
theorem count_add_potential_le {step : σ → ε → Option σ} {P : σ → Prop} {H : σ → ε → Prop}
    {G : ε → Bool} (μ κ : σ → ℕ)
    (hstep : ∀ s e s', P s → H s e → step s e = some s' →
      P s' ∧ μ s' + κ s + (if G e then 1 else 0) ≤ μ s + κ s')
    {s s' : σ} {es : List ε} (hs : P s) (hH : Along step H s es) (hrun : run step s es = some s') :
    P s' ∧ es.countP G + μ s' + κ s ≤ μ s + κ s' := by
  induction es generalizing s with
  | nil =>
    obtain rfl := Option.some.inj hrun
    refine ⟨hs, ?_⟩
    simp
  | cons e es ih =>
    obtain ⟨t, ht, hrest⟩ := run_cons.mp hrun
    obtain ⟨hP, hμ⟩ := hstep s e t hs hH.1 ht
    obtain ⟨hP', hle⟩ := ih hP (hH.2 t ht) hrest
    refine ⟨hP', ?_⟩
    rw [List.countP_cons]
    omega

/-- **Bounded runs.**  If the events in `G` decrease the measure and the others do
not increase it, then a run has at most as many of the former. -/
theorem count_add_measure_le {step : σ → ε → Option σ} {P : σ → Prop} {G : ε → Bool}
    (μ : σ → ℕ)
    (hstep : ∀ s e s', P s → step s e = some s' →
      P s' ∧ (if G e then μ s' + 1 ≤ μ s else μ s' ≤ μ s))
    {s s' : σ} {es : List ε} (hs : P s) (hrun : run step s es = some s') :
    P s' ∧ es.countP G + μ s' ≤ μ s := by
  have hall : Along step (fun _ _ => True) s es :=
    along_of_forall (fun _ _ _ => trivial) s
  refine count_add_potential_le μ (fun _ => 0) (fun s e s' hP _ h => ?_) hs hall hrun
  obtain ⟨hP', hμ⟩ := hstep s e s' hP h
  refine ⟨hP', ?_⟩
  split at hμ
  · rename_i hG
    rw [if_pos hG]
    omega
  · rename_i hG
    rw [if_neg hG]
    omega

/-- **Progress.**  If from every state short of the goal `Q` a run of events in `G`
decreases the measure, then the goal is reached by events in `G`. -/
theorem exists_run_of_runs {step : σ → ε → Option σ} {P Q : σ → Prop} {G : ε → Prop}
    (μ : σ → ℕ)
    (hrun : ∀ s, P s → ¬ Q s →
      ∃ es s', (∀ e ∈ es, G e) ∧ run step s es = some s' ∧ P s' ∧ μ s' < μ s)
    {s : σ} (hs : P s) :
    ∃ es s', (∀ e ∈ es, G e) ∧ run step s es = some s' ∧ P s' ∧ Q s' := by
  induction hn : μ s using Nat.strongRecOn generalizing s with
  | _ n ih =>
    by_cases hQ : Q s
    · exact ⟨[], s, fun _ he => absurd he List.not_mem_nil, rfl, hs, hQ⟩
    · obtain ⟨es, t, hes, ht, hP, hlt⟩ := hrun s hs hQ
      obtain ⟨fs, u, hfs, hu, hPu, hQu⟩ := ih (μ t) (hn ▸ hlt) hP rfl
      exact ⟨es ++ fs, u, List.forall_mem_append.mpr ⟨hes, hfs⟩, run_append ht hu, hPu, hQu⟩

/-- One event is enough for each decrease. -/
theorem exists_run_of_measure {step : σ → ε → Option σ} {P Q : σ → Prop} {G : ε → Prop}
    (μ : σ → ℕ)
    (hstep : ∀ s, P s → ¬ Q s → ∃ e s', G e ∧ step s e = some s' ∧ P s' ∧ μ s' < μ s)
    {s : σ} (hs : P s) :
    ∃ es s', (∀ e ∈ es, G e) ∧ run step s es = some s' ∧ P s' ∧ Q s' := by
  refine exists_run_of_runs μ (fun s hP hQ => ?_) hs
  obtain ⟨e, t, he, ht, hPt, hlt⟩ := hstep s hP hQ
  exact ⟨[e], t, List.forall_mem_singleton.mpr he, run_cons.mpr ⟨t, ht, rfl⟩, hPt, hlt⟩

end Transition
