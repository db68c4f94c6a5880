/-
# Runs of a deterministic transition function

A machine is given by a partial step function `step : σ → ε → Option σ`: the
event `e` is possible in the state `s` when `step s e` is defined.  A run is the
list of its events.

* `run_preserves`, `run_preserves_of` : the induction over a run, plain and for
  runs whose every step meets a condition;
* `run_accepted` : what the runs write on a trace is accepted by another machine;
* `run_both` : two machines that read the same events, side by side;
* `run_simulated` : a machine that answers each step of another with a run of
  its own answers whole runs.
-/
import Mathlib.Data.List.Basic

namespace Transition

variable {σ τ ε ω : Type*}

/-- The state after the events `es`, when all of them are possible in turn. -/
def run (step : σ → ε → Option σ) : σ → List ε → Option σ
  | s, [] => some s
  | s, e :: es =>
    match step s e with
    | some s' => run step s' es
    | none => none

/-- Every step of the run meets `G`, a condition on the state before the step
and the event. -/
def Along (step : σ → ε → Option σ) (G : σ → ε → Prop) : σ → List ε → Prop
  | _, [] => True
  | s, e :: es => G s e ∧ ∀ s', step s e = some s' → Along step G s' es

/-- The empty run. -/
@[simp] theorem run_nil (step : σ → ε → Option σ) (s : σ) : run step s [] = some s := rfl

/-- The first step of a run, and the rest of it. -/
theorem run_cons {step : σ → ε → Option σ} {s s' : σ} {e : ε} {es : List ε} :
    run step s (e :: es) = some s' ↔ ∃ t, step s e = some t ∧ run step t es = some s' := by
  simp only [run]
  cases h : step s e with
  | none => simp
  | some t => simp

/-- Runs compose. -/
theorem run_append {step : σ → ε → Option σ} {s t u : σ} {es fs : List ε}
    (h : run step s es = some t) (h' : run step t fs = some u) :
    run step s (es ++ fs) = some u := by
  induction es generalizing s with
  | nil =>
    obtain rfl := Option.some.inj h
    exact h'
  | cons e es ih =>
    obtain ⟨m, hm, hrest⟩ := run_cons.mp h
    exact run_cons.mpr ⟨m, hm, ih hrest⟩

/-- A condition on the events alone. -/
theorem along_of_forall {step : σ → ε → Option σ} {G : σ → ε → Prop} {es : List ε}
    (h : ∀ e ∈ es, ∀ s, G s e) (s : σ) : Along step G s es := by
  induction es generalizing s with
  | nil => trivial
  | cons e es ih =>
    obtain ⟨he, hes⟩ := List.forall_mem_cons.mp h
    exact ⟨he s, fun s' _ => ih hes s'⟩

/-- Two conditions on a run. -/
theorem Along.and {step : σ → ε → Option σ} {G Q : σ → ε → Prop} {s : σ} {es : List ε}
    (hG : Along step G s es) (hQ : Along step Q s es) :
    Along step (fun s e => G s e ∧ Q s e) s es := by
  induction es generalizing s with
  | nil => trivial
  | cons e es ih => exact ⟨⟨hG.1, hQ.1⟩, fun t ht => ih (hG.2 t ht) (hQ.2 t ht)⟩

/-- A weaker condition on a run. -/
theorem Along.mono {step : σ → ε → Option σ} {G Q : σ → ε → Prop} {s : σ} {es : List ε}
    (hG : Along step G s es) (hQ : ∀ s e, G s e → Q s e) : Along step Q s es := by
  induction es generalizing s with
  | nil => trivial
  | cons e es ih => exact ⟨hQ s e hG.1, fun t ht => ih (hG.2 t ht)⟩

/-- Whether the steps of a run meet a condition can be computed. -/
instance decidableAlong {step : σ → ε → Option σ} {G : σ → ε → Prop}
    [∀ s e, Decidable (G s e)] : ∀ s es, Decidable (Along step G s es)
  | _, [] => isTrue trivial
  | s, e :: es =>
    match h : step s e with
    | none => decidable_of_iff (G s e) ⟨fun hg => ⟨hg, fun _ ht => by simp [h] at ht⟩, And.left⟩
    | some t =>
      have : Decidable (Along step G t es) := decidableAlong t es
      decidable_of_iff (G s e ∧ Along step G t es)
        ⟨fun hg => ⟨hg.1, fun u hu => by simp_all⟩, fun hg => ⟨hg.1, hg.2 t h⟩⟩

/-- What a step preserves under the condition `G`, a run whose steps meet `G`
preserves. -/
theorem run_preserves_of {step : σ → ε → Option σ} {G : σ → ε → Prop} {P : σ → Prop}
    (hstep : ∀ s e s', P s → G s e → step s e = some s' → P s')
    {s s' : σ} {es : List ε} (hG : Along step G s es) (hs : P s)
    (hrun : run step s es = some s') : P s' := by
  induction es generalizing s with
  | nil =>
    obtain rfl := Option.some.inj hrun
    exact hs
  | cons e es ih =>
    obtain ⟨t, ht, hrest⟩ := run_cons.mp hrun
    exact ih (hG.2 t ht) (hstep s e t hs hG.1 ht) hrest

/-- A run whose steps meet `G` meets whatever `G` and an invariant entail at each
step. -/
theorem along_of_preserves {step : σ → ε → Option σ} {G Q : σ → ε → Prop} {P : σ → Prop}
    (hstep : ∀ s e s', P s → G s e → step s e = some s' → P s')
    (hQ : ∀ s e, P s → G s e → Q s e) {s : σ} {es : List ε} (hs : P s)
    (hG : Along step G s es) : Along step Q s es := by
  induction es generalizing s with
  | nil => trivial
  | cons e es ih =>
    exact ⟨hQ s e hs hG.1, fun t ht => ih (hstep s e t hs hG.1 ht) (hG.2 t ht)⟩

/-- What holds along a run holds of its last step. -/
theorem along_last {step : σ → ε → Option σ} {G : σ → ε → Prop} {s t : σ} {es : List ε} {e : ε}
    (hG : Along step G s (es ++ [e])) (hrun : run step s es = some t) : G t e := by
  induction es generalizing s with
  | nil =>
    obtain rfl := Option.some.inj hrun
    exact hG.1
  | cons d es ih =>
    obtain ⟨m, hm, hrest⟩ := run_cons.mp hrun
    exact ih (hG.2 m hm) hrest

/-- What every step preserves, every run preserves. -/
theorem run_preserves {step : σ → ε → Option σ} {P : σ → Prop}
    (hstep : ∀ s e s', P s → step s e = some s' → P s')
    {s s' : σ} {es : List ε} (hs : P s) (hrun : run step s es = some s') : P s' := by
  induction es generalizing s with
  | nil =>
    obtain rfl := Option.some.inj hrun
    exact hs
  | cons e es ih =>
    obtain ⟨t, ht, hrest⟩ := run_cons.mp hrun
    exact ih (hstep s e t hs ht) hrest

/-- Events that change nothing. -/
theorem run_of_fixed {step : σ → ε → Option σ} {s : σ} {es : List ε}
    (h : ∀ e ∈ es, step s e = some s) : run step s es = some s := by
  induction es with
  | nil => rfl
  | cons e es ih =>
    obtain ⟨he, hes⟩ := List.forall_mem_cons.mp h
    exact run_cons.mpr ⟨s, he, ih hes⟩

/-- **Accepted traces.**  If what a step adds to the trace leads the machine `accept`
from one related state to another, it accepts the trace of a whole run. -/
theorem run_accepted {step : σ → ε → Option σ} {accept : τ → ω → Option τ}
    {P : σ → Prop} {R : τ → σ → Prop} (trace : σ → List ω)
    (hstep : ∀ s e s' d, P s → R d s → step s e = some s' → P s' ∧
      ∃ d' new, trace s' = trace s ++ new ∧ run accept d new = some d' ∧ R d' s')
    {s s' : σ} {es : List ε} {d₀ d : τ} (hs : P s) (hd : run accept d₀ (trace s) = some d)
    (hR : R d s) (hrun : run step s es = some s') :
    ∃ d', run accept d₀ (trace s') = some d' ∧ R d' s' := by
  induction es generalizing s d with
  | nil =>
    obtain rfl := Option.some.inj hrun
    exact ⟨d, hd, hR⟩
  | cons e es ih =>
    obtain ⟨t, ht, hrest⟩ := run_cons.mp hrun
    obtain ⟨hP, d', new, hnew, haccept, hR'⟩ := hstep s e t d hs hR ht
    refine ih hP ?_ hR' hrest
    rw [hnew]
    exact run_append hd haccept

/-- Two machines that read the same events, side by side. -/
def both (step : σ → ε → Option σ) (step' : τ → ε → Option τ) (p : σ × τ) (e : ε) :
    Option (σ × τ) :=
  match step p.1 e, step' p.2 e with
  | some s, some t => some (s, t)
  | _, _ => none

/-- What both machines accept, they accept side by side. -/
theorem run_both {step : σ → ε → Option σ} {step' : τ → ε → Option τ} {s s' : σ} {t t' : τ}
    {es : List ε} (h : run step s es = some s') (h' : run step' t es = some t') :
    run (both step step') (s, t) es = some (s', t') := by
  induction es generalizing s t with
  | nil =>
    obtain rfl := Option.some.inj h
    obtain rfl := Option.some.inj h'
    rfl
  | cons e es ih =>
    obtain ⟨u, hu, hrest⟩ := run_cons.mp h
    obtain ⟨v, hv, hrest'⟩ := run_cons.mp h'
    refine run_cons.mpr ⟨(u, v), ?_, ih hrest hrest'⟩
    simp only [both, hu, hv]

/-- **Simulation of runs.**  If each step from related states that meets `G` is
answered by a run that keeps the states related, and `view` of the answer is what
`view` gives of the step, then a whole run whose steps meet `G` is answered by a run
with the same view. -/
theorem run_simulated {step : σ → ε → Option σ} {step' : τ → ε → Option τ}
    {G : σ → ε → Prop} {R : σ → τ → Prop} {β : Type*} (view : ε → List β)
    (hstep : ∀ s t e s', R s t → G s e → step s e = some s' →
      ∃ es t', run step' t es = some t' ∧ es.flatMap view = view e ∧ R s' t')
    {s s' : σ} {t : τ} {es : List ε} (hG : Along step G s es) (hR : R s t)
    (hrun : run step s es = some s') :
    ∃ fs t', run step' t fs = some t' ∧ fs.flatMap view = es.flatMap view ∧ R s' t' := by
  induction es generalizing s t with
  | nil =>
    obtain rfl := Option.some.inj hrun
    exact ⟨[], t, rfl, rfl, hR⟩
  | cons e es ih =>
    obtain ⟨m, hm, hrest⟩ := run_cons.mp hrun
    obtain ⟨es₁, t₁, h₁, hv₁, hR₁⟩ := hstep s t e m hR hG.1 hm
    obtain ⟨es₂, t₂, h₂, hv₂, hR₂⟩ := ih (hG.2 m hm) hR₁ hrest
    refine ⟨es₁ ++ es₂, t₂, run_append h₁ h₂, ?_, hR₂⟩
    rw [List.flatMap_append, List.flatMap_cons, hv₁, hv₂]

end Transition
