import Duplex.Proofs.Checked

/-!
# Runs: machines that take one input after another

`runAll` gives a machine its inputs in order and collects the answers; `runChecked` does the same
for a machine that may meet a fault, at which the run ends. Two runs are compared by a relation that one
step keeps (`runAll_related`), and a machine that meets no fault on the way is reasoned about by a plain
one that keeps up with it (`runChecked_simulates`).
-/

namespace Duplex

variable {σ τ ι ω : Type}

/-- Give a machine one input after another, and collect its answers. -/
def runAll (step : σ → ι → σ × ω) : σ → List ι → σ × List ω
  | s, [] => (s, [])
  | s, input :: inputs =>
    let (s, answer) := step s input
    let (s, answers) := runAll step s inputs
    (s, answer :: answers)

theorem runAll_cons (step : σ → ι → σ × ω) (s : σ) (input : ι) (inputs : List ι) :
    runAll step s (input :: inputs) =
      ((runAll step (step s input).1 inputs).1,
        (step s input).2 :: (runAll step (step s input).1 inputs).2) := rfl

theorem runAll_append (step : σ → ι → σ × ω) (s : σ) (xs ys : List ι) :
    runAll step s (xs ++ ys) =
      ((runAll step (runAll step s xs).1 ys).1,
        (runAll step s xs).2 ++ (runAll step (runAll step s xs).1 ys).2) := by
  induction xs generalizing s with
  | nil => rfl
  | cons x xs ih => rw [List.cons_append, runAll_cons, runAll_cons, ih, List.cons_append]

/-- Machines that answer alike as long as their states are related do so in runs. -/
theorem runAll_related {related : σ → τ → Prop} {f : σ → ι → σ × ω} {g : τ → ι → τ × ω}
    (hstep : ∀ s t input, related s t →
      related (f s input).1 (g t input).1 ∧ (f s input).2 = (g t input).2)
    {s : σ} {t : τ} (h : related s t) (inputs : List ι) :
    related (runAll f s inputs).1 (runAll g t inputs).1 ∧
      (runAll f s inputs).2 = (runAll g t inputs).2 := by
  induction inputs generalizing s t with
  | nil => exact ⟨h, rfl⟩
  | cons input inputs ih =>
    obtain ⟨hnext, hanswer⟩ := hstep s t input h
    obtain ⟨hlast, hanswers⟩ := ih hnext
    refine ⟨hlast, ?_⟩
    rw [runAll_cons, runAll_cons, hanswer, hanswers]

/-- The same machine with a record of its inputs. -/
def recording (step : σ → ι → σ × ω) (s : σ × List ι) (input : ι) : (σ × List ι) × ω :=
  (((step s.1 input).1, s.2 ++ [input]), (step s.1 input).2)

theorem runAll_recording (step : σ → ι → σ × ω) (s : σ) (log inputs : List ι) :
    runAll (recording step) (s, log) inputs =
      (((runAll step s inputs).1, log ++ inputs), (runAll step s inputs).2) := by
  induction inputs generalizing s log with
  | nil => rw [runAll, runAll, List.append_nil]
  | cons input inputs ih =>
    rw [runAll_cons, runAll_cons, recording, ih, List.append_assoc, List.singleton_append]

/-- What holds of a state and is kept by every input holds after all of them. -/
theorem foldlM_returns {P : σ → Prop} {step : σ → ι → Checked σ} {inputs : List ι}
    (hstep : ∀ s, P s → ∀ input ∈ inputs, Returns (step s input) P) {s : σ} (h : P s) :
    Returns (inputs.foldlM step s) P := by
  induction inputs generalizing s with
  | nil => exact returns_ok h
  | cons input inputs ih =>
    rw [List.foldlM_cons]
    refine (hstep s h input List.mem_cons_self).bind fun s hs => ?_
    exact ih (fun s hs i hi => hstep s hs i (List.mem_cons_of_mem input hi)) hs

/-- Checks that are all met are met one after another. -/
theorem forM_returns {check : ι → Checked Unit} {inputs : List ι}
    (h : ∀ input ∈ inputs, Returns (check input) fun _ => True) :
    Returns (inputs.forM check) fun _ => True := by
  induction inputs with
  | nil => exact returns_ok trivial
  | cons input inputs ih =>
    refine (h input List.mem_cons_self).bind fun _ _ => ?_
    exact ih fun i hi => h i (List.mem_cons_of_mem input hi)

/-- Give a machine one input after another, and collect its answers, up to the first fault. -/
def runChecked (step : σ → ι → Checked (σ × ω)) : σ → List ι → Checked (σ × List ω)
  | s, [] => .ok (s, [])
  | s, input :: inputs => do
    let first ← step s input
    let rest ← runChecked step first.1 inputs
    return (rest.1, first.2 :: rest.2)

/-- A machine that meets no fault on good inputs, and that another machine keeps up with on what it
makes of them, runs like that one. -/
theorem runChecked_simulates {κ : Type} {related : σ → τ → Prop} {good : ι → Prop}
    {step : σ → ι → Checked (σ × ω)} {plain : τ → κ → τ × ω} {view : ι → κ}
    (hstep : ∀ s t input, related s t → good input →
      ∃ s', step s input = .ok (s', (plain t (view input)).2) ∧ related s' (plain t (view input)).1)
    {s : σ} {t : τ} (h : related s t) {inputs : List ι} (hinputs : ∀ input ∈ inputs, good input) :
    ∃ s', runChecked step s inputs = .ok (s', (runAll plain t (inputs.map view)).2) ∧
      related s' (runAll plain t (inputs.map view)).1 := by
  induction inputs generalizing s t with
  | nil => exact ⟨s, rfl, h⟩
  | cons input inputs ih =>
    obtain ⟨next, hone, hnext⟩ := hstep s t input h (hinputs input List.mem_cons_self)
    obtain ⟨last, hrest, hlast⟩ := ih hnext fun i hi => hinputs i (List.mem_cons_of_mem input hi)
    refine ⟨last, ?_, hlast⟩
    rw [runChecked, hone, ok_bind]
    dsimp only
    rw [hrest]
    rfl

/-- A run goes on as it did if inputs are left out that do not change what the others look at. -/
theorem runChecked_filter {related : σ → τ → Prop} {keep : ι → Bool}
    {step : σ → ι → Checked (σ × ω)} {step' : τ → ι → Checked (τ × ω)}
    (hkept : ∀ s t s' input answer, related s t → keep input = true → step s input = .ok (s', answer) →
      ∃ t', step' t input = .ok (t', answer) ∧ related s' t')
    (hskipped : ∀ s t s' input answer, related s t → keep input = false →
      step s input = .ok (s', answer) → related s' t)
    {s s' : σ} {t : τ} {inputs : List ι} {answers : List ω} (h : related s t)
    (hrun : runChecked step s inputs = .ok (s', answers)) :
    ∃ t', runChecked step' t (inputs.filter keep) =
        .ok (t', ((inputs.zip answers).filter (keep ·.1)).map (·.2)) ∧ related s' t' := by
  induction inputs generalizing s t answers with
  | nil =>
    cases hrun
    exact ⟨t, rfl, h⟩
  | cons input inputs ih =>
    obtain ⟨⟨s₁, answer⟩, hone, hrun⟩ := bind_eq_ok.mp hrun
    obtain ⟨⟨s₂, rest⟩, hrest, hrun⟩ := bind_eq_ok.mp hrun
    cases hrun
    cases hkeep : keep input with
    | true =>
      obtain ⟨t₁, hone', h₁⟩ := hkept s t s₁ input answer h hkeep hone
      obtain ⟨t', hrest', h'⟩ := ih h₁ hrest
      refine ⟨t', ?_, h'⟩
      rw [List.filter_cons, if_pos hkeep, List.zip_cons_cons, List.filter_cons, if_pos hkeep, runChecked,
        hone', ok_bind]
      dsimp only
      rw [hrest']
      rfl
    | false =>
      have hleft : ¬ keep input = true := Bool.eq_false_iff.mp hkeep
      obtain ⟨t', hrest', h'⟩ := ih (hskipped s t s₁ input answer h hkeep hone) hrest
      refine ⟨t', ?_, h'⟩
      rw [List.filter_cons, if_neg hleft, List.zip_cons_cons, List.filter_cons, if_neg hleft]
      exact hrest'

end Duplex
