import Duplex.Proofs.Runs
import Duplex.Proofs.Silence
import Duplex.Proofs.Window

/-!
# The three-band filter as a polyphase filter of the stream

A branch looks at one stream, back over `shift + stride * i` samples for its tap `i`, and before the
start of the stream at silence (`firAt`). Its history is the end of what it has seen (`memory`), so a
frame is filtered as the stretch of the stream that it is (`fir_window`). Both directions are one
`sweep` over the branches, with another signal and another place for the result; on streams a sweep
moves every history on by one frame and adds up what the branches give (`sweep_window`).
-/

namespace Duplex.Filter.ThreeBand

open Signal

/-! ### One branch -/

/-- The sample `d` places before place `k`. -/
def past (x : Nat → Float32) (k d : Nat) : Float32 := if d ≤ k then x (k - d) else 0

/-- The filter at place `k` of a stream: the sum, in the order of the taps and from zero, of each tap
times a sample of the past. -/
def firAt (taps : List Float32) (shift : Nat) (x : Nat → Float32) (k : Nat) : Float32 :=
  taps.zipIdx.foldl (fun sum tap => sum + past x k (shift + stride * tap.2) * tap.1) 0

/-- The last samples before place `t`. -/
def memory (x : Nat → Float32) (t : Nat) : List Float32 := window (past x · memorySize) t memorySize

@[simp] theorem length_memory (x : Nat → Float32) (t : Nat) : (memory x t).length = memorySize :=
  length_window ..

theorem memory_zero (x : Nat → Float32) : memory x 0 = List.replicate memorySize 0 := by
  rw [replicate_eq_window 0 0]
  refine window_congr ?_
  intro i hi
  exact if_neg (by omega)

/-- The stream goes on from the memory of it. -/
theorem memory_append (x : Nat → Float32) (t n : Nat) :
    memory x t ++ window x t n = window (past x · memorySize) t (memorySize + n) := by
  have hrest : window x t n = window (past x · memorySize) (t + memorySize) n := by
    refine window_congr ?_
    intro i _
    show x (t + i) = if memorySize ≤ t + memorySize + i then x (t + memorySize + i - memorySize) else 0
    rw [if_pos (by omega)]
    congr 1
    omega
  rw [hrest, memory, window_append]

theorem recent_window (x : Nat → Float32) (t n : Nat) :
    recent (memory x t) (window x t n) = memory x (t + n) := by
  rw [recent, memory_append, length_window, drop_window, Nat.add_sub_cancel, memory]

/-- A tap reads the line of past samples as far back as its shift says. -/
theorem drop_line (x : Nat → Float32) (t n : Nat) {d : Nat} (h : d ≤ memorySize) :
    (memory x t ++ window x t n).drop (memorySize - d) = window (past x · d) t (n + d) := by
  rw [memory_append, drop_window]
  have hlength : memorySize + n - (memorySize - d) = n + d := by omega
  rw [hlength]
  refine window_congr ?_
  intro i _
  show (if memorySize ≤ t + (memorySize - d) + i then _ else _) = if d ≤ t + i then _ else _
  by_cases hd : d ≤ t + i
  · rw [if_pos (by omega), if_pos hd]
    congr 1
    omega
  · rw [if_neg (by omega), if_neg hd]

/-- A branch of the bank: one of three phases, one of four shifts, four taps and a gain for each
band. -/
structure Branch.Proper (b : Branch) : Prop where
  phase : b.phase < bandCount
  shift : b.shift < stride
  taps : b.taps.length = 4
  gains : b.gains.length = bandCount

/-- A filter has a number below that of the filters. -/
theorem filterIndex_lt {p q i : Nat} (hp : p < bandCount) (hq : q < stride)
    (h : filterIndex (p + bandCount * q) = some i) : i < 10 := by
  have hlt : p + bandCount * q < 12 := by
    simp only [bandCount, stride] at hp hq ⊢
    omega
  unfold filterIndex at h
  split at h
  · cases h
  · split at h
    · obtain rfl := Option.some.inj h
      omega
    · split at h
      · obtain rfl := Option.some.inj h
        omega
      · obtain rfl := Option.some.inj h
        omega

theorem length_taps {i : Nat} (h : i < 10) : (taps.getD i []).length = 4 := by
  have hall : ∀ row ∈ taps, row.length = 4 := by decide
  rw [List.getD_eq_getElem _ _ h]
  exact hall _ (List.getElem_mem h)

theorem length_gains {i : Nat} (h : i < 10) : (modulation.getD i []).length = bandCount := by
  have hall : ∀ row ∈ modulation, row.length = bandCount := by decide
  rw [List.getD_eq_getElem _ _ h]
  exact hall _ (List.getElem_mem h)

theorem branches_proper : ∀ b ∈ branches, b.Proper := by
  intro b hb
  obtain ⟨p, hp, hb⟩ := List.mem_flatMap.mp hb
  obtain ⟨q, hq, hb⟩ := List.mem_filterMap.mp hb
  obtain ⟨i, hi, rfl⟩ := Option.map_eq_some_iff.mp hb
  have hp : p < bandCount := List.mem_range.mp hp
  have hq : q < stride := List.mem_range.mp hq
  have hlt := filterIndex_lt hp hq hi
  exact ⟨hp, hq, length_taps hlt, length_gains hlt⟩

/-- No tap reaches back further than the memory. -/
theorem reach {taps : List Float32} (htaps : taps.length = 4) {shift : Nat} (hshift : shift < stride)
    {tap : Float32 × Nat} (h : tap ∈ taps.zipIdx) : shift + stride * tap.2 ≤ memorySize := by
  have hplace : tap.2 < taps.length := by
    have := List.mem_zipIdx h
    omega
  simp only [stride, memorySize] at hshift ⊢
  omega

theorem fir_window {taps : List Float32} (htaps : taps.length = 4) {shift : Nat}
    (hshift : shift < stride) (x : Nat → Float32) (t n : Nat) :
    fir taps shift (memory x t) (window x t n) = window (firAt taps shift x) t n := by
  rw [fir, length_window, length_memory, replicate_eq_window 0 t]
  refine foldl_window ?_ _
  intro tap htap sums
  have hreach := reach htaps hshift htap
  have hplace : memorySize - shift - stride * tap.2 = memorySize - (shift + stride * tap.2) := by omega
  show List.zipWith _ _ ((memory x t ++ window x t n).drop (memorySize - shift - stride * tap.2)) = _
  rw [hplace, drop_line x t n hreach, zipWith_window, Nat.min_eq_left (Nat.le_add_right _ _)]
  refine window_congr ?_
  intro i _
  rw [Nat.zero_add]

/-! ### All branches -/

/-- One frame through the branches: each filters its signal, moves its history on, and its result is
added to what there is so far. -/
def sweep {σ : Type} (signal : Branch → List Float32) (add : Branch → List Float32 → σ → σ) :
    List Branch → List (List Float32) → σ → List (List Float32) × σ
  | b :: bs, history :: histories, acc =>
    let rest := sweep signal add bs histories (add b (fir b.taps b.shift history (signal b)) acc)
    (recent history (signal b) :: rest.1, rest.2)
  | _, histories, acc => (histories, acc)

/-- Add what a branch makes of a phase to the bands. -/
def addToBands (b : Branch) (filtered : List Float32) (bands : List (List Float32)) :
    List (List Float32) := addScaled b.gains filtered bands

/-- Add what a branch makes of the bands to a phase. -/
def addToPhase (b : Branch) (filtered : List Float32) (phases : List (List Float32)) :
    List (List Float32) := phases.modify b.phase (List.zipWith (fun y x => y + 3 * x) · filtered)

theorem analyse_eq_sweep (phases : List (List Float32)) (bs : List Branch)
    (histories bands : List (List Float32)) :
    analyse phases bs histories bands =
      sweep (fun b => phases.getD (bandCount - 1 - b.phase) []) addToBands bs histories bands := by
  induction bs generalizing histories bands with
  | nil => cases histories <;> rfl
  | cons b bs ih =>
    cases histories with
    | nil => rfl
    | cons history histories =>
      rw [analyse, sweep, ih]
      rfl

theorem synthesise_eq_sweep (bands : List (List Float32)) (bs : List Branch)
    (histories phases : List (List Float32)) :
    synthesise bands bs histories phases =
      sweep (fun b => scaledSum b.gains bands) addToPhase bs histories phases := by
  induction bs generalizing histories phases with
  | nil => cases histories <;> rfl
  | cons b bs ih =>
    cases histories with
    | nil => rfl
    | cons history histories =>
      rw [synthesise, sweep, ih]
      rfl

/-- If the signals are stretches of streams, so is what is filtered, and the histories go on. -/
theorem sweep_window {σ : Type} {signal : Branch → List Float32} (add : Branch → List Float32 → σ → σ)
    {stream : Branch → Nat → Float32} {t n : Nat} {bs : List Branch}
    (h : ∀ b ∈ bs, b.Proper ∧ signal b = window (stream b) t n) (acc : σ) :
    sweep signal add bs (bs.map fun b => memory (stream b) t) acc =
      (bs.map fun b => memory (stream b) (t + n),
        bs.foldl (fun acc b => add b (window (firAt b.taps b.shift (stream b)) t n) acc) acc) := by
  induction bs generalizing acc with
  | nil => rfl
  | cons b bs ih =>
    obtain ⟨hproper, hsignal⟩ := h b List.mem_cons_self
    rw [List.map_cons, sweep, hsignal, recent_window, fir_window hproper.taps hproper.shift,
      ih fun b' hb' => h b' (List.mem_cons_of_mem b hb')]
    rfl

/-- A sweep over some branches and then over others. -/
theorem sweep_append {σ : Type} (signal : Branch → List Float32) (add : Branch → List Float32 → σ → σ)
    {bs : List Branch} {histories : List (List Float32)} (h : histories.length = bs.length)
    (bs' : List Branch) (histories' : List (List Float32)) (acc : σ) :
    sweep signal add (bs ++ bs') (histories ++ histories') acc =
      ((sweep signal add bs histories acc).1 ++
          (sweep signal add bs' histories' (sweep signal add bs histories acc).2).1,
        (sweep signal add bs' histories' (sweep signal add bs histories acc).2).2) := by
  induction bs generalizing histories acc with
  | nil =>
    obtain rfl := List.eq_nil_of_length_eq_zero h
    rfl
  | cons b bs ih =>
    obtain ⟨history, histories, rfl⟩ := List.exists_cons_of_length_eq_add_one h
    rw [List.cons_append, List.cons_append, sweep, ih (by simpa using h)]
    rfl

/-- Phase by phase and by growing shift, as far as there is a filter. -/
theorem foldl_branches {σ : Type} (f : σ → Branch → σ) (acc : σ) :
    branches.foldl f acc =
      (List.range bandCount).foldl (fun acc p => (List.range stride).foldl (fun acc q =>
        (filterIndex (p + bandCount * q)).elim acc fun i =>
          f acc ⟨p, q, taps.getD i [], modulation.getD i []⟩) acc) acc := by
  rw [branches, List.foldl_flatMap]
  congr 1
  funext acc p
  rw [List.foldl_filterMap]
  congr 1
  funext acc q
  cases filterIndex (p + bandCount * q) with
  | none => rfl
  | some i => rfl

/-! ### Bands and phases of a stream -/

/-- Three stretches side by side. -/
def windows (x : Nat → Nat → Float32) (t n : Nat) : List (List Float32) :=
  (List.range bandCount).map fun c => window (x c) t n

theorem getD_windows (x : Nat → Nat → Float32) (t n : Nat) {c : Nat} (hc : c < bandCount) :
    (windows x t n).getD c [] = window (x c) t n := by
  rw [List.getD_eq_getElem _ _ (by simpa [windows] using hc)]
  simp [windows]

theorem windows_congr {x y : Nat → Nat → Float32} {t n : Nat}
    (h : ∀ c < bandCount, ∀ k, x c k = y c k) : windows x t n = windows y t n := by
  refine List.map_congr_left ?_
  intro c hc
  exact window_congr fun i _ => h c (List.mem_range.mp hc) (t + i)

/-- What is folded into three stretches place by place is folded into the samples. -/
theorem foldl_windows {step : List (List Float32) → Branch → List (List Float32)}
    {act : Branch → Nat → Nat → Float32 → Float32} {t n : Nat} {bs : List Branch}
    (hstep : ∀ b ∈ bs, ∀ x, step (windows x t n) b = windows (fun c k => act b c k (x c k)) t n)
    (x : Nat → Nat → Float32) :
    bs.foldl step (windows x t n) =
      windows (fun c k => bs.foldl (fun a b => act b c k a) (x c k)) t n := by
  induction bs generalizing x with
  | nil => rfl
  | cons b bs ih =>
    rw [List.foldl_cons, hstep b List.mem_cons_self,
      ih fun b' hb' => hstep b' (List.mem_cons_of_mem b hb')]
    rfl

theorem silent_windows (t n : Nat) :
    List.replicate bandCount (List.replicate n 0) = windows (fun _ _ => 0) t n := by
  rw [windows, replicate_eq_window 0 t]
  rfl

/-- One sample in three: phase `p` of the stream. -/
def phaseOf (x : Nat → Float32) (p k : Nat) : Float32 := x (bandCount * k + (bandCount - 1) - p)

theorem columns_frame (x : Nat → Float32) (t n : Nat) {p : Nat} (hp : p < bandCount) :
    (columns bandCount (window x (bandCount * t) (bandCount * n))).getD (bandCount - 1 - p) [] =
      window (phaseOf x p) t n := by
  have hc : bandCount - 1 - p < bandCount := by omega
  rw [columns_window (by decide), List.getD_eq_getElem _ _ (by simpa using hc)]
  simp only [List.getElem_map, List.getElem_range]
  refine window_congr ?_
  intro i _
  rw [phaseOf]
  congr 1
  omega

theorem gains_eq {gains : List Float32} (h : gains.length = bandCount) :
    gains = (List.range bandCount).map (gains.getD · 0) := by
  refine List.ext_getElem (by simp [h]) ?_
  intro i hi _
  rw [List.getElem_map, List.getElem_range, List.getD_eq_getElem _ _ hi]

theorem addScaled_windows {gains : List Float32} (h : gains.length = bandCount) (y : Nat → Float32)
    (x : Nat → Nat → Float32) (t n : Nat) :
    addScaled gains (window y t n) (windows x t n) =
      windows (fun c k => x c k + gains.getD c 0 * y k) t n := by
  conv_lhs => rw [gains_eq h]
  rw [addScaled, windows, List.zipWith_map, List.zipWith_self]
  simp only [zipWith_window_same]
  rfl

/-- The sum, from zero, of the bands of a stream scaled. -/
def modulatedAt (gains : List Float32) (bands : Nat → Nat → Float32) (k : Nat) : Float32 :=
  (List.range bandCount).foldl (fun sum c => sum + gains.getD c 0 * bands c k) 0

theorem scaledSum_windows {gains : List Float32} (h : gains.length = bandCount)
    (x : Nat → Nat → Float32) (t : Nat) :
    scaledSum gains (windows x t bandSize) = window (modulatedAt gains x) t bandSize := by
  conv_lhs => rw [gains_eq h]
  rw [scaledSum, windows, List.zip_map', List.foldl_map, replicate_eq_window 0 t]
  exact foldl_window (fun c _ sums => zipWith_window_same ..) _

theorem modify_windows (y : Nat → Float32) (x : Nat → Nat → Float32) (t n p : Nat) :
    (windows x t n).modify p (List.zipWith (fun y x => y + 3 * x) · (window y t n)) =
      windows (fun c k => if c = p then x c k + 3 * y k else x c k) t n := by
  refine List.ext_getElem (by simp [windows]) ?_
  intro c hc _
  simp only [windows, List.getElem_modify, List.getElem_map, List.getElem_range]
  by_cases hcp : p = c
  · rw [if_pos hcp, zipWith_window_same]
    exact window_congr fun i _ => (if_pos hcp.symm).symm
  · rw [if_neg hcp]
    exact window_congr fun i _ => (if_neg (Ne.symm hcp)).symm

/-! ### The bank -/

/-- Band `c` of a stream at place `k`: the sum, from zero and in the order of the phases and then of the
shifts, of what the filters make of the phases, scaled. -/
def bandAt (x : Nat → Float32) (c k : Nat) : Float32 :=
  (List.range bandCount).foldl (fun sum p => (List.range stride).foldl (fun sum q =>
    (filterIndex (p + bandCount * q)).elim sum fun i =>
      sum + (modulation.getD i []).getD c 0 * firAt (taps.getD i []) q (phaseOf x p) k) sum) 0

/-- Phase `p` of the stream of three bands at place `k`: the sum, from zero and in the order of the
shifts, of three times what the filters make of the bands, scaled. -/
def sampleAt (bands : Nat → Nat → Float32) (p k : Nat) : Float32 :=
  (List.range stride).foldl (fun sum q =>
    (filterIndex (p + bandCount * q)).elim sum fun i =>
      sum + 3 * firAt (taps.getD i []) q (modulatedAt (modulation.getD i []) bands) k) 0

/-- The bank after so many samples of each band. -/
def analysisAfter (x : Nat → Float32) (t : Nat) : List (List Float32) :=
  branches.map fun b => memory (phaseOf x b.phase) t

def synthesisAfter (bands : Nat → Nat → Float32) (t : Nat) : List (List Float32) :=
  branches.map fun b => memory (modulatedAt b.gains bands) t

theorem split_window (f : ThreeBand) (x : Nat → Float32) {t : Nat}
    (h : f.analysis = analysisAfter x t) :
    f.split (window x (bandCount * t) frameSize) =
      ({ f with analysis := analysisAfter x (t + bandSize) }, windows (bandAt x) t bandSize) := by
  have hbranches : ∀ b ∈ branches, b.Proper ∧
      (columns bandCount (window x (bandCount * t) frameSize)).getD (bandCount - 1 - b.phase) [] =
        window (phaseOf x b.phase) t bandSize := by
    intro b hb
    exact ⟨branches_proper b hb, columns_frame x t bandSize (branches_proper b hb).phase⟩
  have hbands : branches.foldl (fun bands b =>
      addToBands b (window (firAt b.taps b.shift (phaseOf x b.phase)) t bandSize) bands)
        (windows (fun _ _ => 0) t bandSize) =
      windows (fun c k => branches.foldl (fun sum b =>
        sum + b.gains.getD c 0 * firAt b.taps b.shift (phaseOf x b.phase) k) 0) t bandSize :=
    foldl_windows (fun b hb y => addScaled_windows (branches_proper b hb).gains _ y t bandSize) _
  have hall := windows_congr (t := t) (n := bandSize) fun c (_ : c < bandCount) k =>
    foldl_branches (fun sum b =>
      sum + b.gains.getD c 0 * firAt b.taps b.shift (phaseOf x b.phase) k) 0
  have hsweep := sweep_window addToBands hbranches (windows (fun _ _ => 0) t bandSize)
  rw [split, analyse_eq_sweep, h, silent_windows t, analysisAfter, hsweep]
  exact congrArg (Prod.mk _) (hbands.trans hall)

/-- Only the branches of a phase add to it. -/
theorem sampleAt_eq (bands : Nat → Nat → Float32) {c : Nat} (hc : c < bandCount) (k : Nat) :
    branches.foldl (fun sum b => if c = b.phase then
      sum + 3 * firAt b.taps b.shift (modulatedAt b.gains bands) k else sum) 0 = sampleAt bands c k := by
  obtain ⟨act, hact⟩ : ∃ act : Nat → Float32 → Float32, (fun p sum => (List.range stride).foldl
      (fun sum q => (filterIndex (p + bandCount * q)).elim sum fun i =>
        sum + 3 * firAt (taps.getD i []) q (modulatedAt (modulation.getD i []) bands) k) sum) = act :=
    ⟨_, rfl⟩
  have hphase (p : Nat) (sum : Float32) : (List.range stride).foldl (fun sum q =>
      (filterIndex (p + bandCount * q)).elim sum fun i => if c = p then
        sum + 3 * firAt (taps.getD i []) q (modulatedAt (modulation.getD i []) bands) k else sum) sum =
      if c = p then act p sum else sum := by
    by_cases hcp : c = p
    · simp only [if_pos hcp, ← hact]
    · simp only [if_neg hcp]
      refine List.foldl_fixed' ?_ _
      intro q
      cases filterIndex (p + bandCount * q) with
      | none => rfl
      | some i => rfl
  have hsample : sampleAt bands c k = act c 0 := by rw [← hact, sampleAt]
  rw [foldl_branches]
  simp only [hphase]
  rw [hsample]
  rcases (by simp only [bandCount] at hc; omega : c = 0 ∨ c = 1 ∨ c = 2) with rfl | rfl | rfl <;> rfl

theorem merge_window (f : ThreeBand) (bands : Nat → Nat → Float32) {t : Nat}
    (h : f.synthesis = synthesisAfter bands t) :
    f.merge (windows bands t bandSize) =
      ({ f with synthesis := synthesisAfter bands (t + bandSize) },
        window (fun i => sampleAt bands (i % bandCount) (i / bandCount)) (bandCount * t) frameSize) := by
  have hbranches : ∀ b ∈ branches, b.Proper ∧
      scaledSum b.gains (windows bands t bandSize) = window (modulatedAt b.gains bands) t bandSize := by
    intro b hb
    exact ⟨branches_proper b hb, scaledSum_windows (branches_proper b hb).gains bands t⟩
  have hphases : branches.foldl (fun phases b =>
      addToPhase b (window (firAt b.taps b.shift (modulatedAt b.gains bands)) t bandSize) phases)
        (windows (fun _ _ => 0) t bandSize) =
      windows (fun c k => branches.foldl (fun sum b => if c = b.phase then
        sum + 3 * firAt b.taps b.shift (modulatedAt b.gains bands) k else sum) 0) t bandSize :=
    foldl_windows (fun b _ y => modify_windows _ y t bandSize b.phase) _
  have hall := windows_congr (t := t) (n := bandSize) fun c (hc : c < bandCount) k =>
    sampleAt_eq bands hc k
  have hsweep := sweep_window addToPhase hbranches (windows (fun _ _ => 0) t bandSize)
  have hframe := interleave_windows (show 0 < bandCount by decide) (sampleAt bands) t bandSize
  rw [merge, synthesise_eq_sweep, h, silent_windows t, synthesisAfter, hsweep]
  exact congrArg (Prod.mk _) ((congrArg interleave (hphases.trans hall)).trans hframe)

/-! ### Runs -/

theorem rest_analysis (x : Nat → Float32) : rest.analysis = analysisAfter x 0 := by
  simp only [analysisAfter, memory_zero, List.map_const']
  rfl

theorem rest_synthesis (bands : Nat → Nat → Float32) : rest.synthesis = synthesisAfter bands 0 := by
  simp only [synthesisAfter, memory_zero, List.map_const']
  rfl

/-- The frames of a stream, one after another, are split as the stream is. -/
theorem runAll_split_windows (x : Nat → Float32) (m : Nat) :
    runAll split rest ((List.range m).map fun i => window x (frameSize * i) frameSize) =
      ({ rest with analysis := analysisAfter x (bandSize * m) },
        (List.range m).map fun i => windows (bandAt x) (bandSize * i) bandSize) := by
  induction m with
  | zero => rw [Nat.mul_zero, ← rest_analysis x]; rfl
  | succ m ih =>
    have hplace : frameSize * m = bandCount * (bandSize * m) := Nat.mul_assoc bandCount bandSize m
    have hone := split_window { rest with analysis := analysisAfter x (bandSize * m) } x rfl
    rw [List.range_succ, List.map_append, List.map_append, runAll_append, ih, List.map_singleton,
      runAll_cons, hplace, hone]
    rfl

/-- The bands of a stream, one stretch after another, are merged as the stream is. -/
theorem runAll_merge_windows (bands : Nat → Nat → Float32) (m : Nat) :
    runAll merge rest ((List.range m).map fun i => windows bands (bandSize * i) bandSize) =
      ({ rest with synthesis := synthesisAfter bands (bandSize * m) },
        (List.range m).map fun i => window (fun j => sampleAt bands (j % bandCount) (j / bandCount))
          (frameSize * i) frameSize) := by
  induction m with
  | zero => rw [Nat.mul_zero, ← rest_synthesis bands]; rfl
  | succ m ih =>
    have hplace : frameSize * m = bandCount * (bandSize * m) := Nat.mul_assoc bandCount bandSize m
    have hone := merge_window { rest with synthesis := synthesisAfter bands (bandSize * m) } bands rfl
    rw [List.range_succ, List.map_append, List.map_append, runAll_append, ih, List.map_singleton,
      runAll_cons, hone, List.map_singleton, hplace]
    rfl

/-- The bands of frames of the right size are those of the stream that the frames make up. -/
theorem runAll_split_eq {frames : List (List Float32)} (h : ∀ frame ∈ frames, frame.length = frameSize)
    {c : Nat} (hc : c < bandCount) :
    (runAll split rest frames).2.flatMap (·.getD c []) =
      window (bandAt (streamOf 0 frames.flatten) c) 0 (bandSize * frames.length) := by
  have hbands (i : Nat) :
      (windows (bandAt (streamOf 0 frames.flatten)) (bandSize * i) bandSize).getD c [] =
      window (bandAt (streamOf 0 frames.flatten) c) (0 + bandSize * i) bandSize := by
    rw [getD_windows _ _ _ hc, Nat.zero_add]
  have hframes := frames_eq_windows 0 h
  rw [← flatMap_windows]
  conv_lhs => rw [hframes, runAll_split_windows]
  simp only [List.flatMap_map, hbands]

/-- Three bands of the right size are stretches of the streams that such bands make up. -/
theorem calls_eq_windows {calls : List (List (List Float32))} (h : ∀ bands ∈ calls, InBands bands) :
    calls = (List.range calls.length).map fun i =>
      windows (fun c => streamOf 0 (calls.flatMap (·.getD c []))) (bandSize * i) bandSize := by
  have hshape (i : Nat) (hi : i < calls.length) :
      calls[i].length = bandCount ∧ ∀ c (hc : c < calls[i].length), calls[i][c].length = bandSize := by
    have hbands := h calls[i] (List.getElem_mem hi)
    have hcount : calls[i].length = bandCount := by
      have := congrArg List.length hbands
      simpa using this
    refine ⟨hcount, ?_⟩
    intro c hc
    have hmem := List.mem_map_of_mem (f := List.length) (List.getElem_mem hc)
    rw [hbands] at hmem
    exact List.eq_of_mem_replicate hmem
  have hband (c : Nat) (hc : c < bandCount) (i : Nat) (hi : i < calls.length) : calls[i].getD c [] =
      window (streamOf 0 (calls.flatMap (·.getD c []))) (bandSize * i) bandSize := by
    have hsizes : ∀ band ∈ calls.map (·.getD c []), band.length = bandSize := by
      intro band hband
      obtain ⟨bands, hbands, rfl⟩ := List.mem_map.mp hband
      obtain ⟨j, hj, rfl⟩ := List.mem_iff_getElem.mp hbands
      obtain ⟨hcount, hall⟩ := hshape j hj
      rw [List.getD_eq_getElem _ _ (hcount ▸ hc)]
      exact hall c (hcount ▸ hc)
    have hitem := congrArg (·[i]?) (frames_eq_windows 0 hsizes)
    simpa [hi, ← List.flatMap_def] using hitem
  refine List.ext_getElem (by simp) ?_
  intro i hi _
  obtain ⟨hcount, -⟩ := hshape i hi
  rw [List.getElem_map, List.getElem_range]
  refine List.ext_getElem (by simp [windows, hcount]) ?_
  intro c hc _
  have hc' : c < bandCount := hcount ▸ hc
  have hitem := hband c hc' i hi
  rw [List.getD_eq_getElem _ _ hc] at hitem
  simp only [windows, List.getElem_map, List.getElem_range]
  exact hitem

/-- The frames of three bands of the right size are those of the streams that the bands make up. -/
theorem runAll_merge_eq {calls : List (List (List Float32))} (h : ∀ bands ∈ calls, InBands bands) :
    (runAll merge rest calls).2.flatten =
      window (fun j => sampleAt (fun c => streamOf 0 (calls.flatMap (·.getD c [])))
        (j % bandCount) (j / bandCount)) 0 (frameSize * calls.length) := by
  have hcalls := calls_eq_windows h
  have hjoin := flatMap_windows (fun j => sampleAt (fun c => streamOf 0 (calls.flatMap (·.getD c [])))
    (j % bandCount) (j / bandCount)) 0 frameSize calls.length
  rw [← hjoin, List.flatMap_def]
  conv_lhs => rw [hcalls, runAll_merge_windows]
  simp only [Nat.zero_add]

end Duplex.Filter.ThreeBand
