import Duplex.Proofs.Guarded
import Duplex.Proofs.Polyphase

/-!
# The bank of filters with every access checked

The three-band filter once more, with the indices that it computes. A filter fills its output in three
stretches: the first places see history alone, the next ones history and frame, the rest the frame
alone. The branches of a frame work on one set of histories, kept by the number of the filter, and on
buffers that are used again and again. No index is ever out of range, and the results are those of the
plain filter (`filterCore_eq`, `analysis_eq`, `synthesis_eq`).
-/

namespace Duplex.Filter.ThreeBand

open Signal

namespace Guarded

/-! ### One filter -/

/-- The number of taps of a filter. -/
def tapCount : Nat := 4

/-- A difference of 64-bit numbers, which wraps around below zero. -/
def wrappingSub (a b : Nat) : Nat := (a + (2 ^ 64 - b)) % 2 ^ 64

theorem wrappingSub_of_le {a b : Nat} (h : b ≤ a) (ha : a < 2 ^ 64) : wrappingSub a b = a - b := by
  rw [wrappingSub]
  omega

/-- Add each tap times what is read for it, in order. -/
def accumulate (taps : List Float32) (read : Nat → Checked Float32) (start : Float32) :
    Checked Float32 :=
  taps.zipIdx.foldlM (fun sum tap => do
    let x ← read tap.2
    return sum + x * tap.1) start

/-- An output that sees history alone: the index goes down from tap to tap, and wraps around behind the
last one. -/
def fromHistory (taps state : List Float32) (shift k : Nat) (output : List Float32) :
    Checked Float32 := do
  let start ← item output k
  let newest ← difference (memorySize + k) shift
  accumulate taps (fun i => item state (wrappingSub newest (stride * i))) start

/-- An output whose first taps see the frame and whose other taps see history. -/
def fromBoth (taps state input : List Float32) (shift k : Nat) (output : List Float32) :
    Checked Float32 := do
  let start ← item output k
  let place ← difference k shift
  accumulate taps (fun i =>
    if i < min (1 + place / stride) tapCount then do
      let index ← difference place (stride * i)
      item input index
    else do
      let index ← difference (memorySize + place) (stride * i)
      item state index) start

/-- An output that sees the frame alone. -/
def fromFrame (taps input : List Float32) (shift k : Nat) (output : List Float32) :
    Checked Float32 := do
  let start ← item output k
  let place ← difference k shift
  accumulate taps (fun i => do
    let index ← difference place (stride * i)
    item input index) start

/-- Filter a frame over an output buffer that is cleared first, and keep the end of the frame. -/
def filterCore (taps input : List Float32) (shift : Nat) (output state : List Float32) :
    Checked (List Float32 × List Float32) := do
  let output := output.map fun _ => 0
  let output ← fillFrom (fromHistory taps state shift) 0 shift output
  let both ← difference (tapCount * stride) shift
  let output ← fillFrom (fromBoth taps state input shift) shift both output
  let inside ← difference output.length (tapCount * stride)
  let output ← fillFrom (fromFrame taps input shift) (tapCount * stride) inside output
  let start ← difference input.length memorySize
  let state ← slice input start memorySize
  return (output, state)

section Filter

variable {taps : List Float32} (htaps : taps.length = 4) (x : Nat → Float32) (t : Nat)

theorem accumulate_eq {read : Nat → Checked Float32} {shift k : Nat} (start : Float32)
    (hread : ∀ i < taps.length, read i = .ok (past x k (shift + stride * i))) :
    accumulate taps read start =
      .ok (taps.zipIdx.foldl
        (fun sum tap => sum + past x k (shift + stride * tap.2) * tap.1) start) := by
  have hall : ∀ tap ∈ taps.zipIdx, read tap.2 = .ok (past x k (shift + stride * tap.2)) := by
    intro tap htap
    have hplace := List.mem_zipIdx htap
    exact hread tap.2 (by omega)
  rw [accumulate]
  generalize taps.zipIdx = placed at hall
  induction placed generalizing start with
  | nil => rfl
  | cons tap placed ih =>
    rw [List.foldlM_cons, hall tap List.mem_cons_self, List.foldl_cons]
    exact ih _ fun tap' htap' => hall tap' (List.mem_cons_of_mem tap htap')

/-- A sample of the history. -/
theorem item_memory {d k : Nat} (hd : d ≤ memorySize) (hk : k < d) :
    item (memory x t) (memorySize + k - d) = .ok (past x (t + k) d) := by
  rw [memory, item_window _ _ (by omega), past, past]
  by_cases h : d ≤ t + k
  · rw [if_pos (by omega), if_pos h]
    congr 2
    omega
  · rw [if_neg (by omega), if_neg h]

/-- A sample of the frame. -/
theorem item_frame {d k n : Nat} (hd : d ≤ k) (hk : k < n + d) :
    item (window x t n) (k - d) = .ok (past x (t + k) d) := by
  rw [item_window _ _ (by omega), past, if_pos (by omega)]
  congr 2
  omega

/-- The place in an output buffer that is filled next is still clear. -/
theorem item_clear (y : Nat → Float32) {k n : Nat} (h : k < n) :
    item (window y 0 k ++ List.replicate (n - k) 0) k = .ok 0 := by
  refine item_eq_ok ?_
  rw [List.getElem?_append_right (by simp), length_window, Nat.sub_self, List.getElem?_replicate,
    if_pos (by omega)]

/-- The end of a frame is the history of the next one. -/
theorem slice_memory {n : Nat} (hn : memorySize ≤ n) :
    slice (window x t n) (n - memorySize) memorySize = .ok (memory x (t + n)) := by
  have hall : min memorySize (n - (n - memorySize)) = memorySize := by omega
  rw [slice_eq_ok (by rw [length_window]; omega), drop_window, take_window, hall, memory]
  refine congrArg Except.ok (window_congr ?_)
  intro i _
  rw [past, if_pos (by omega)]
  congr 1
  omega

/-- A stretch of a cleared buffer is filled. -/
theorem fillFrom_clear (value : Nat → List Float32 → Checked Float32) {y : Nat → Float32}
    {k m l n : Nat} (hm : k + m = l) (hl : l ≤ n)
    (hvalue : ∀ i, k ≤ i → i < l → ∀ done, item done i = .ok 0 → value i done = .ok (y i)) :
    fillFrom value k m (window y 0 k ++ List.replicate (n - k) 0) =
      .ok (window y 0 l ++ List.replicate (n - l) 0) := by
  have hrest : List.replicate (n - l) (0 : Float32) = (List.replicate (n - k) 0).drop m := by
    rw [List.drop_replicate, Nat.sub_sub, hm]
  rw [hrest, ← hm]
  refine fillFrom_window (by rw [List.length_replicate]; omega) ?_
  intro i hi
  refine hvalue (k + i) (Nat.le_add_right k i) (by omega) _ ?_
  rw [List.drop_replicate, Nat.sub_sub]
  exact item_clear y (by omega)

variable {shift : Nat} (hshift : shift < stride)

include htaps hshift

theorem fromHistory_eq {k : Nat} (hk : k < shift) {output : List Float32}
    (hclear : item output k = .ok 0) :
    fromHistory taps (memory x t) shift k output = .ok (firAt taps shift x (t + k)) := by
  have hshift : shift < 4 := hshift
  have hmemory : memorySize = 15 := rfl
  rw [fromHistory, hclear, ok_bind, difference_eq_ok (by omega), ok_bind]
  refine accumulate_eq x 0 fun i hi => ?_
  have hmul : stride * i = 4 * i := rfl
  -- Down to the last tap the index does not wrap around.
  have hindex : wrappingSub (memorySize + k - shift) (stride * i) =
      memorySize + k - (shift + stride * i) := by
    rw [wrappingSub_of_le (by omega) (by omega)]
    omega
  rw [hindex, item_memory x t (by omega) (by omega)]

theorem fromBoth_eq {k n : Nat} (hk : shift ≤ k) (hlt : k < tapCount * stride) (hn : k < n)
    {output : List Float32} (hclear : item output k = .ok 0) :
    fromBoth taps (memory x t) (window x t n) shift k output = .ok (firAt taps shift x (t + k)) := by
  have hshift : shift < 4 := hshift
  have hlt : k < 16 := hlt
  have hmemory : memorySize = 15 := rfl
  rw [fromBoth, hclear, ok_bind, difference_eq_ok hk, ok_bind]
  refine accumulate_eq x 0 fun i hi => ?_
  have hmul : stride * i = 4 * i := rfl
  by_cases hframe : i < min (1 + (k - shift) / stride) tapCount
  · have hreach : i < min (1 + (k - shift) / 4) 4 := hframe
    have hindex : k - shift - stride * i = k - (shift + stride * i) := by omega
    rw [if_pos hframe, difference_eq_ok (by omega), ok_bind, hindex,
      item_frame x t (by omega) (by omega)]
  · have hreach : ¬ i < min (1 + (k - shift) / 4) 4 := hframe
    have hindex : memorySize + (k - shift) - stride * i = memorySize + k - (shift + stride * i) := by
      omega
    rw [if_neg hframe, difference_eq_ok (by omega), ok_bind, hindex,
      item_memory x t (by omega) (by omega)]

theorem fromFrame_eq {k n : Nat} (hk : tapCount * stride ≤ k) (hn : k < n) {output : List Float32}
    (hclear : item output k = .ok 0) :
    fromFrame taps (window x t n) shift k output = .ok (firAt taps shift x (t + k)) := by
  have hshift : shift < 4 := hshift
  have hk : 16 ≤ k := hk
  rw [fromFrame, hclear, ok_bind, difference_eq_ok (by omega), ok_bind]
  refine accumulate_eq x 0 fun i hi => ?_
  have hmul : stride * i = 4 * i := rfl
  have hindex : k - shift - stride * i = k - (shift + stride * i) := by omega
  rw [difference_eq_ok (by omega), ok_bind, hindex, item_frame x t (by omega) (by omega)]

/-- The three stretches together are the filter on the stream. -/
theorem filterCore_window {n : Nat} (hn : tapCount * stride ≤ n) {output : List Float32}
    (houtput : output.length = n) :
    filterCore taps (window x t n) shift output (memory x t) =
      .ok (window (firAt taps shift x) t n, memory x (t + n)) := by
  obtain ⟨y, hy⟩ : ∃ y : Nat → Float32, (fun k => firAt taps shift x (t + k)) = y := ⟨_, rfl⟩
  have hplace (k : Nat) : firAt taps shift x (t + k) = y k := congrFun hy k
  have hsizes : tapCount * stride = 16 ∧ memorySize = 15 := ⟨rfl, rfl⟩
  have hshift' : shift < 4 := hshift
  have hhistory := fillFrom_clear (fromHistory taps (memory x t) shift) (Nat.zero_add shift)
    (by omega : shift ≤ n)
    fun i _ hi done hdone => by rw [fromHistory_eq htaps x t hshift hi hdone, hplace]
  have hboth := fillFrom_clear (fromBoth taps (memory x t) (window x t n) shift)
    (Nat.add_sub_cancel' (by omega : shift ≤ tapCount * stride)) hn
    fun i hle hlt done hdone => by
      rw [fromBoth_eq htaps x t hshift hle hlt (by omega) hdone, hplace]
  have hframe := fillFrom_clear (fromFrame taps (window x t n) shift) (Nat.add_sub_cancel' hn)
    (Nat.le_refl n)
    fun i hle hlt done hdone => by rw [fromFrame_eq htaps x t hshift hle hlt hdone, hplace]
  have hcleared : output.map (fun _ => (0 : Float32)) = window y 0 0 ++ List.replicate (n - 0) 0 := by
    rw [List.map_const', houtput]
    rfl
  have hlength : (window y 0 (tapCount * stride) ++
      List.replicate (n - tapCount * stride) (0 : Float32)).length = n := by
    rw [List.length_append, length_window, List.length_replicate]
    omega
  have hresult : window (firAt taps shift x) t n = window y 0 n ++ List.replicate (n - n) 0 := by
    rw [Nat.sub_self, List.replicate_zero, List.append_nil]
    refine window_congr ?_
    intro i _
    rw [hplace, Nat.zero_add]
  rw [filterCore, hcleared, hhistory, ok_bind, difference_eq_ok (by omega), ok_bind, hboth, ok_bind,
    hlength, difference_eq_ok hn, ok_bind, hframe, ok_bind, length_window, difference_eq_ok (by omega),
    ok_bind, slice_memory x t (by omega), hresult]
  rfl

end Filter

/-- Any history and any frame behind it are stretches of a stream. -/
theorem exists_stream {history : List Float32} (h : history.length = memorySize)
    (signal : List Float32) :
    ∃ x, history = memory x memorySize ∧ signal = window x memorySize signal.length := by
  refine ⟨streamOf 0 (history ++ signal), eq_window h ?_, eq_window rfl ?_⟩
  · intro i hi
    rw [past, if_pos (by omega), Nat.add_sub_cancel_left, streamOf, List.getD_append _ _ _ _ hi,
      List.getD_eq_getElem _ _ hi]
  · intro i hi
    rw [streamOf, ← h, List.getD_append_right _ _ _ _ (Nat.le_add_right _ _), Nat.add_sub_cancel_left,
      List.getD_eq_getElem _ _ hi]

/-- The checked filter is the plain one. -/
theorem filterCore_eq {taps history signal output : List Float32} {shift : Nat}
    (htaps : taps.length = 4) (hshift : shift < stride) (hhistory : history.length = memorySize)
    (hsignal : signal.length = bandSize) (houtput : output.length = bandSize) :
    filterCore taps signal shift output history =
      .ok (fir taps shift history signal, recent history signal) := by
  obtain ⟨x, rfl, hx⟩ := exists_stream hhistory signal
  rw [hx, fir_window htaps hshift, recent_window, hsignal]
  exact filterCore_window htaps x memorySize hshift (by decide) houtput

/-! ### A frame -/

/-- What a frame is worked on with: the histories, the frame that is made, and the two buffers of the
filter that is being run. -/
structure Work where
  states : List (List Float32)
  out : List Float32
  signal : List Float32
  filtered : List Float32

/-- The history of a filter. -/
def Work.state (w : Work) (i : Nat) : List Float32 := w.states.getD i []

/-- Run filter `i` on the signal. -/
def Work.filter (w : Work) (i shift : Nat) : Checked Work := do
  let taps ← item ThreeBand.taps i
  let state ← item w.states i
  let filtered ← filterCore taps w.signal shift w.filtered state
  let states ← setItem w.states i filtered.2
  return { w with states, filtered := filtered.1 }

/-- Visit the branches, phase by phase and by growing shift. -/
def visit (enter : Nat → Work → Checked Work) (step : Nat → Nat → Nat → Work → Checked Work)
    (w : Work) : Checked Work :=
  (List.range bandCount).foldlM (fun w phase => do
    let w ← enter phase w
    (List.range stride).foldlM (fun w shift =>
      (filterIndex (phase + bandCount * shift)).elim (.ok w) fun i => step phase shift i w) w) w

/-- Take one sample in three of a frame. -/
def subsample (frame : List Float32) (phase : Nat) (w : Work) : Checked Work := do
  let first ← difference (bandCount - 1) phase
  let signal ← fillFrom (fun k _ => item frame (first + bandCount * k)) 0 w.signal.length w.signal
  return { w with signal }

/-- Filter the phase and add the result, scaled, to the bands. -/
def splitStep (_phase shift i : Nat) (w : Work) : Checked Work := do
  let w ← w.filter i shift
  let gains ← item modulation i
  return { w with out := (addScaled gains w.filtered (blocks bandSize w.out)).flatten }

/-- Add three times a signal to one sample in three, from the given place on. -/
def addAt (place : Nat) (out : List Float32) (y : Float32 × Nat) : Checked (List Float32) := do
  let old ← item out (place + bandCount * y.2)
  setItem out (place + bandCount * y.2) (old + 3 * y.1)

/-- Filter the scaled sum of the bands and add three times the result to a phase. -/
def mergeStep (bands : List Float32) (phase shift i : Nat) (w : Work) : Checked Work := do
  let gains ← item modulation i
  let w ← { w with signal := scaledSum gains (blocks bandSize bands) }.filter i shift
  let out ← w.filtered.zipIdx.foldlM (addAt phase) w.out
  return { w with out }

/-- Work on a cleared frame. -/
def Work.begin (states : List (List Float32)) (target : List Float32) : Work where
  states := states
  out := target.map fun _ => 0
  signal := List.replicate bandSize 0
  filtered := List.replicate bandSize 0

/-- Split a frame into the three bands of a target. -/
def analysis (states : List (List Float32)) (frame target : List Float32) : Checked Work :=
  visit (subsample frame) splitStep (.begin states target)

/-- Merge three bands into a target. -/
def synthesis (states : List (List Float32)) (bands target : List Float32) : Checked Work :=
  visit (fun _ w => .ok w) (mergeStep bands) (.begin states target)

/-! ### One filter of a frame -/

/-- Everything has its size. -/
structure Work.Sized (w : Work) : Prop where
  states : w.states.map List.length = List.replicate 10 memorySize
  out : w.out.length = frameSize
  signal : w.signal.length = bandSize
  filtered : w.filtered.length = bandSize

namespace Work.Sized

variable {w : Work} (h : w.Sized) {i : Nat} (hi : i < 10)

include h

theorem length_states : w.states.length = 10 := by
  have hlength := congrArg List.length h.states
  simpa using hlength

include hi

theorem item_states : item w.states i = .ok (w.state i) := by
  have hroom : i < w.states.length := by rw [h.length_states]; exact hi
  rw [Work.state, List.getD_eq_getElem _ _ hroom]
  exact item_eq_ok (List.getElem?_eq_getElem hroom)

theorem length_state : (w.state i).length = memorySize := by
  have hroom : i < w.states.length := by rw [h.length_states]; exact hi
  have hmem := List.mem_map_of_mem (f := List.length) (List.getElem_mem hroom)
  rw [h.states] at hmem
  rw [Work.state, List.getD_eq_getElem _ _ hroom]
  exact List.eq_of_mem_replicate hmem

variable {shift : Nat} (hshift : shift < stride)

include hshift

theorem filter_eq :
    w.filter i shift =
      .ok { w with
        states := w.states.set i (recent (w.state i) w.signal)
        filtered := fir (taps.getD i []) shift (w.state i) w.signal } := by
  have htaps : item ThreeBand.taps i = .ok (ThreeBand.taps.getD i []) := by
    refine item_eq_ok ?_
    rw [List.getD_eq_getElem _ _ hi, List.getElem?_eq_getElem hi]
  have hroom : i < w.states.length := by rw [h.length_states]; exact hi
  rw [Work.filter, htaps, ok_bind, h.item_states hi, ok_bind,
    filterCore_eq (length_taps hi) hshift (h.length_state hi) h.signal h.filtered, ok_bind,
    setItem_eq_ok hroom, ok_bind]
  rfl

theorem sized_filter :
    ({ w with
        states := w.states.set i (recent (w.state i) w.signal)
        filtered := fir (taps.getD i []) shift (w.state i) w.signal } : Work).Sized := by
  obtain ⟨x, hx, hsignal⟩ := exists_stream (h.length_state hi) w.signal
  refine ⟨?_, h.out, h.signal, ?_⟩
  · have hrecent : (recent (w.state i) w.signal).length = memorySize := by
      rw [hx, hsignal, recent_window, length_memory]
    rw [List.map_set, h.states, hrecent, List.set_replicate_self]
  · rw [hx, hsignal, fir_window (length_taps hi) hshift, length_window, h.signal]

end Work.Sized

/-! ### The two directions -/

theorem exists_bands {out : List Float32} (h : out.length = frameSize) :
    ∃ y, blocks bandSize out = windows y 0 bandSize := by
  have hout : out = window (streamOf 0 out) 0 (bandSize * bandCount) := by
    conv_lhs => rw [eq_window_streamOf 0 out, h]
    rfl
  refine ⟨fun c k => streamOf 0 out (0 + bandSize * c + k), ?_⟩
  rw [hout, blocks_window (by decide), windows]
  refine List.map_congr_left ?_
  intro c _
  refine window_congr ?_
  intro i _
  rw [← hout, Nat.zero_add i]

theorem exists_phases {out : List Float32} (h : out.length = frameSize) :
    ∃ x : Nat → Float32, out = window x 0 frameSize ∧
      columns bandCount out = windows (fun c k => x (bandCount * k + c)) 0 bandSize := by
  have hout : out = window (streamOf 0 out) (bandCount * 0) (bandCount * bandSize) := by
    conv_lhs => rw [eq_window_streamOf 0 out, h]
    rfl
  refine ⟨streamOf 0 out, hout, ?_⟩
  conv_lhs => rw [hout, columns_window (by decide)]
  rfl

theorem interleave_columns {out : List Float32} (h : out.length = frameSize) :
    interleave (columns bandCount out) = out := by
  obtain ⟨x, rfl, hcolumns⟩ := exists_phases h
  have hframe := interleave_windows (show 0 < bandCount by decide) (fun c k => x (bandCount * k + c)) 0
    bandSize
  rw [hcolumns]
  refine hframe.trans (window_congr ?_)
  intro j _
  exact congrArg x (Nat.div_add_mod (bandCount * 0 + j) bandCount)

theorem blocks_flatten_windows (y : Nat → Nat → Float32) :
    blocks bandSize (windows y 0 bandSize).flatten = windows y 0 bandSize ∧
      (windows y 0 bandSize).flatten.length = frameSize := by
  have hsizes : ∀ band ∈ windows y 0 bandSize, band.length = bandSize := by
    intro band hband
    obtain ⟨c, -, rfl⟩ := List.mem_map.mp hband
    exact length_window ..
  have hnone : blocks bandSize ([] : List Float32) = [] := blocks_of_length_lt (by decide)
  have hblocks := blocks_flatten_append (by decide) hsizes []
  rw [List.append_nil, hnone, List.append_nil] at hblocks
  refine ⟨hblocks, ?_⟩
  rw [List.length_flatten, List.map_congr_left hsizes, List.map_const', List.sum_replicate]
  simp [windows, bandCount, bandSize, frameSize]

/-- A signal is added to one sample in three. -/
theorem addAt_eq {x : Nat → Float32} {p : Nat} (hp : p < bandCount) (y : Nat → Float32) {k n : Nat}
    (h : k + n ≤ bandSize) :
    ((window y k n).zipIdx k).foldlM (addAt p) (window x 0 frameSize) =
      .ok (window (fun j => if j % bandCount = p ∧ k ≤ j / bandCount ∧ j / bandCount < k + n then
        x j + 3 * y (j / bandCount) else x j) 0 frameSize) := by
  induction n with
  | zero =>
    refine congrArg Except.ok (window_congr ?_)
    intro j _
    rw [if_neg (by omega)]
  | succ n ih =>
    have hcount : bandCount = 3 := rfl
    have hsizes : frameSize = 480 ∧ bandSize = 160 := ⟨rfl, rfl⟩
    have hmul : bandCount * (k + n) = 3 * (k + n) := rfl
    have hplace : p + bandCount * (k + n) < frameSize := by omega
    have hphase : (p + bandCount * (k + n)) % bandCount = p := by
      rw [Nat.add_mul_mod_self_left, Nat.mod_eq_of_lt hp]
    have hrow : (p + bandCount * (k + n)) / bandCount = k + n := by
      rw [Nat.add_mul_div_left _ _ (by decide), Nat.div_eq_of_lt hp, Nat.zero_add]
    rw [window_succ, List.zipIdx_append, List.foldlM_append, ih (by omega), ok_bind, length_window]
    show (addAt p _ (y (k + n), k + n) >>= pure) = _
    rw [bind_pure, addAt, item_window _ _ hplace, ok_bind, setItem_window _ hplace]
    refine congrArg Except.ok (window_congr ?_)
    intro j _
    simp only [Nat.zero_add, hphase, hrow]
    by_cases hj : j = p + bandCount * (k + n)
    · subst hj
      rw [if_pos rfl, if_neg (by omega), hphase, hrow, if_pos (by omega)]
    · rw [if_neg hj]
      have hsame : (j % bandCount = p ∧ k ≤ j / bandCount ∧ j / bandCount < k + n) ↔
          (j % bandCount = p ∧ k ≤ j / bandCount ∧ j / bandCount < k + (n + 1)) := by
        have hcut := Nat.div_add_mod j bandCount
        rw [hcount] at hj hcut ⊢
        omega
      simp only [hsame]

/-- Adding a signal to one sample in three adds it to one phase. -/
theorem addAt_phase {b : Branch} (hp : b.phase < bandCount) {out filtered : List Float32}
    (hout : out.length = frameSize) (hfiltered : filtered.length = bandSize) :
    ∃ out', filtered.zipIdx.foldlM (addAt b.phase) out = .ok out' ∧ out'.length = frameSize ∧
      columns bandCount out' = addToPhase b filtered (columns bandCount out) := by
  obtain ⟨x, hx, hcolumns⟩ := exists_phases hout
  obtain ⟨y, hy⟩ : ∃ y, filtered = window y 0 bandSize := ⟨_, hfiltered ▸ eq_window_streamOf 0 filtered⟩
  have hadded := addAt_eq (x := x) hp y (Nat.le_of_eq (Nat.zero_add bandSize))
  rw [← hy, ← hx] at hadded
  refine ⟨_, hadded, length_window .., ?_⟩
  have hphases := columns_window (show 0 < bandCount by decide) (fun j => if j % bandCount = b.phase ∧
    0 ≤ j / bandCount ∧ j / bandCount < 0 + bandSize then x j + 3 * y (j / bandCount) else x j) 0
    bandSize
  rw [addToPhase, hcolumns, hy, modify_windows]
  refine hphases.trans (List.map_congr_left ?_)
  intro c hc
  have hc : c < bandCount := List.mem_range.mp hc
  refine window_congr ?_
  intro k hk
  have hphase : (bandCount * (0 + k) + c) % bandCount = c := by
    rw [Nat.mul_add_mod, Nat.mod_eq_of_lt hc]
  have hrow : (bandCount * (0 + k) + c) / bandCount = 0 + k := by
    rw [Nat.mul_add_div (by decide), Nat.div_eq_of_lt hc, Nat.add_zero]
  simp only [hphase, hrow]
  by_cases hcp : c = b.phase
  · rw [if_pos ⟨hcp, Nat.zero_le _, by omega⟩, if_pos hcp]
  · rw [if_neg fun hall => hcp hall.1, if_neg hcp]

/-! ### All branches -/

/-- The branch of filter `i`. -/
def branch (p q i : Nat) : Branch := ⟨p, q, taps.getD i [], modulation.getD i []⟩

/-- The numbers of the filters of a phase, by growing shift. -/
def numbers (p : Nat) (qs : List Nat) : List Nat :=
  qs.filterMap fun q => filterIndex (p + bandCount * q)

/-- The branches of a phase. -/
def branchesOf (p : Nat) (qs : List Nat) : List Branch :=
  qs.filterMap fun q => (filterIndex (p + bandCount * q)).map (branch p q)

theorem numbers_cons (p q : Nat) (qs : List Nat) :
    numbers p (q :: qs) = (filterIndex (p + bandCount * q)).toList ++ numbers p qs := by
  rw [numbers, List.filterMap_cons]
  cases filterIndex (p + bandCount * q) with
  | none => rfl
  | some i => rfl

theorem branchesOf_cons (p q : Nat) (qs : List Nat) :
    branchesOf p (q :: qs) =
      ((filterIndex (p + bandCount * q)).map (branch p q)).toList ++ branchesOf p qs := by
  rw [branchesOf, List.filterMap_cons]
  cases filterIndex (p + bandCount * q) with
  | none => rfl
  | some i => rfl

theorem length_branchesOf (p : Nat) (qs : List Nat) :
    (branchesOf p qs).length = (numbers p qs).length := by
  rw [branchesOf, numbers, List.length_filterMap_eq_countP, List.length_filterMap_eq_countP]
  simp

theorem state_set (w : Work) {i : Nat} (hi : i < w.states.length) (history : List Float32) (j : Nat) :
    (w.states.set i history).getD j [] = if j = i then history else w.state j := by
  rw [Work.state, List.getD_eq_getElem?_getD, List.getD_eq_getElem?_getD, List.getElem?_set]
  by_cases hj : j = i
  · rw [if_pos hj.symm, if_pos hi, if_pos hj]
    rfl
  · rw [if_neg (Ne.symm hj), if_neg hj]

/-- A visit makes a sweep: entering a phase leaves it ready, and at a filter the history of that filter
alone moves on, and the result is added. -/
structure Sweeps {σ : Type} (enter : Nat → Work → Checked Work)
    (step : Nat → Nat → Nat → Work → Checked Work) (view : List Float32 → σ)
    (signal : Branch → List Float32) (add : Branch → List Float32 → σ → σ)
    (ready : Nat → Work → Prop) : Prop where
  entered : ∀ p w, p < bandCount → w.Sized → ∃ w', enter p w = .ok w' ∧ (w'.Sized ∧ ready p w') ∧
    w'.states = w.states ∧ w'.out = w.out
  stepped : ∀ p q i w, p < bandCount → q < stride → i < 10 → w.Sized → ready p w →
    ∃ w', step p q i w = .ok w' ∧ (w'.Sized ∧ ready p w') ∧
      w'.states = w.states.set i (recent (w.state i) (signal (branch p q i))) ∧
      view w'.out = add (branch p q i)
        (fir (taps.getD i []) q (w.state i) (signal (branch p q i))) (view w.out)

namespace Sweeps

variable {σ : Type} {enter : Nat → Work → Checked Work} {step : Nat → Nat → Nat → Work → Checked Work}
  {view : List Float32 → σ} {signal : Branch → List Float32} {add : Branch → List Float32 → σ → σ}
  {ready : Nat → Work → Prop} (h : Sweeps enter step view signal add ready)

include h

/-- The filters of a phase. Each of them finds its own history as it was before the phase. -/
theorem shifts {p : Nat} (hp : p < bandCount) {qs : List Nat} (hqs : ∀ q ∈ qs, q < stride)
    (hnodup : (numbers p qs).Nodup) {w : Work} (hw : w.Sized) (hready : ready p w) :
    ∃ w', qs.foldlM (fun w q =>
          (filterIndex (p + bandCount * q)).elim (.ok w) fun i => step p q i w) w = .ok w' ∧ (w'.Sized ∧ ready p w') ∧
      sweep signal add (branchesOf p qs) ((numbers p qs).map w.state) (view w.out) =
        ((numbers p qs).map w'.state, view w'.out) ∧
      ∀ i ∉ numbers p qs, w'.state i = w.state i := by
  induction qs generalizing w with
  | nil => exact ⟨w, rfl, ⟨hw, hready⟩, rfl, fun i _ => rfl⟩
  | cons q qs ih =>
    have hrest := fun q' hq' => hqs q' (List.mem_cons_of_mem q hq')
    rw [numbers_cons] at hnodup ⊢
    rw [branchesOf_cons, List.foldlM_cons]
    cases hi : filterIndex (p + bandCount * q) with
    | none =>
      rw [hi] at hnodup
      exact ih hrest hnodup hw hready
    | some i =>
      rw [hi] at hnodup
      have hq := hqs q List.mem_cons_self
      have hlt := filterIndex_lt hp hq hi
      obtain ⟨next, hstep, ⟨hnext, hagain⟩, hstates, hout⟩ := h.stepped p q i w hp hq hlt hw hready
      obtain ⟨hfresh, hnodup⟩ : i ∉ numbers p qs ∧ (numbers p qs).Nodup := List.nodup_cons.mp hnodup
      have hstate (j : Nat) : next.state j =
          if j = i then recent (w.state i) (signal (branch p q i)) else w.state j := by
        rw [Work.state, hstates]
        exact state_set w (by rw [hw.length_states]; exact hlt) _ j
      obtain ⟨last, hlast, hsized, hsweep, hkeeps⟩ := ih hrest hnodup hnext hagain
      -- No filter comes twice, so those to come still have the histories from before the phase.
      have hothers : (numbers p qs).map next.state = (numbers p qs).map w.state := by
        refine List.map_congr_left ?_
        intro j hj
        rw [hstate, if_neg fun hji : j = i => hfresh (hji ▸ hj)]
      refine ⟨last, ?_, hsized, ?_, ?_⟩
      · show (step p q i w >>= _) = _
        rw [hstep]
        exact hlast
      · show sweep signal add (branch p q i :: branchesOf p qs)
          (w.state i :: (numbers p qs).map w.state) (view w.out) =
            (last.state i :: (numbers p qs).map last.state, view last.out)
        rw [hothers, hout] at hsweep
        rw [sweep, hkeeps i hfresh, hstate i, if_pos rfl]
        exact congrArg (fun r => (recent (w.state i) (signal (branch p q i)) :: r.1, r.2)) hsweep
      · intro j hj
        obtain ⟨hji, hj⟩ : j ≠ i ∧ j ∉ numbers p qs := by simpa using hj
        rw [hkeeps j hj, hstate j, if_neg hji]

/-- All phases. -/
theorem phases {ps : List Nat} (hps : ∀ p ∈ ps, p < bandCount)
    (hnodup : (ps.flatMap (numbers · (List.range stride))).Nodup) {w : Work} (hw : w.Sized) :
    ∃ w', ps.foldlM (fun w p => do
          let w ← enter p w
          (List.range stride).foldlM (fun w q =>
            (filterIndex (p + bandCount * q)).elim (.ok w) fun i => step p q i w) w) w = .ok w' ∧
      w'.Sized ∧
      sweep signal add (ps.flatMap (branchesOf · (List.range stride)))
          ((ps.flatMap (numbers · (List.range stride))).map w.state) (view w.out) =
        ((ps.flatMap (numbers · (List.range stride))).map w'.state, view w'.out) ∧
      ∀ i ∉ ps.flatMap (numbers · (List.range stride)), w'.state i = w.state i := by
  induction ps generalizing w with
  | nil => exact ⟨w, rfl, hw, rfl, fun i _ => rfl⟩
  | cons p ps ih =>
    have hp := hps p List.mem_cons_self
    have hrest := fun p' hp' => hps p' (List.mem_cons_of_mem p hp')
    obtain ⟨hown, hlater, hapart⟩ := List.nodup_append.mp hnodup
    obtain ⟨first, henter, ⟨hfirst, hready⟩, hstates, hout⟩ := h.entered p w hp hw
    obtain ⟨next, hshifts, ⟨hnext, -⟩, hsweep, hkeeps⟩ :=
      h.shifts hp (fun q hq => List.mem_range.mp hq) hown hfirst hready
    obtain ⟨last, hlast, hsized, hsweeps, hkeeps'⟩ := ih hrest hlater hnext
    have hentered : first.state = w.state := by
      funext i
      rw [Work.state, Work.state, hstates]
    have hlater_state : (ps.flatMap (numbers · (List.range stride))).map next.state =
        (ps.flatMap (numbers · (List.range stride))).map w.state := by
      refine List.map_congr_left ?_
      intro i hi
      rw [hkeeps i fun hown => hapart i hown i hi rfl, hentered]
    have hown_state : (numbers p (List.range stride)).map last.state =
        (numbers p (List.range stride)).map next.state := by
      refine List.map_congr_left ?_
      intro i hi
      rw [hkeeps' i fun hlater => hapart i hi i hlater rfl]
    refine ⟨last, ?_, hsized, ?_, ?_⟩
    · rw [List.foldlM_cons, henter, ok_bind]
      show (_ >>= _) = _
      rw [hshifts]
      exact hlast
    · rw [hentered, hout] at hsweep
      rw [hlater_state] at hsweeps
      rw [List.flatMap_cons, List.flatMap_cons, List.map_append,
        sweep_append signal add (by rw [List.length_map, length_branchesOf]), hsweep, hsweeps,
        List.map_append, hown_state]
    · intro i hi
      rw [List.flatMap_cons, List.mem_append] at hi
      rw [hkeeps' i fun hlater => hi (.inr hlater), hkeeps i fun hown => hi (.inl hown), hentered]

end Sweeps

/-- The numbers of all filters, phase by phase and by growing shift. -/
def numbering : List Nat := (List.range bandCount).flatMap (numbers · (List.range stride))

/-- A visit of all branches is the sweep of the plain filter. -/
theorem Sweeps.visit {σ : Type} {enter : Nat → Work → Checked Work}
    {step : Nat → Nat → Nat → Work → Checked Work} {view : List Float32 → σ}
    {signal : Branch → List Float32} {add : Branch → List Float32 → σ → σ} {ready : Nat → Work → Prop}
    (h : Sweeps enter step view signal add ready) {w : Work} (hw : w.Sized) :
    ∃ w', Guarded.visit enter step w = .ok w' ∧ w'.Sized ∧
      sweep signal add branches (numbering.map w.state) (view w.out) =
        (numbering.map w'.state, view w'.out) := by
  obtain ⟨w', hvisit, hsized, hsweep, -⟩ :=
    h.phases (fun p hp => List.mem_range.mp hp) (by decide : numbering.Nodup) hw
  exact ⟨w', hvisit, hsized, hsweep⟩

/-! ### Both directions -/

theorem item_modulation {i : Nat} (hi : i < 10) : item modulation i = .ok (modulation.getD i []) := by
  refine item_eq_ok ?_
  rw [List.getD_eq_getElem _ _ hi, List.getElem?_eq_getElem hi]

theorem subsample_eq (x : Nat → Float32) {p : Nat} (hp : p < bandCount) {w : Work} (hw : w.Sized) :
    subsample (window x 0 frameSize) p w =
      .ok { w with signal := window (phaseOf x p) 0 bandSize } := by
  have hcount : bandCount = 3 := rfl
  have hsizes : frameSize = 480 ∧ bandSize = 160 := ⟨rfl, rfl⟩
  have hvalue (k : Nat) (hk : k < bandSize) :
      item (window x 0 frameSize) (bandCount - 1 - p + bandCount * k) = .ok (phaseOf x p k) := by
    have hmul : bandCount * k = 3 * k := rfl
    have hindex : 0 + (bandCount - 1 - p + bandCount * k) = bandCount * k + (bandCount - 1) - p := by
      omega
    rw [item_window x 0 (by omega), hindex, phaseOf]
  have hloop : fillFrom (fun k _ => item (window x 0 frameSize) (bandCount - 1 - p + bandCount * k)) 0
      bandSize (window (phaseOf x p) 0 0 ++ w.signal) =
        .ok (window (phaseOf x p) 0 (0 + bandSize) ++ w.signal.drop bandSize) := by
    refine fillFrom_window (Nat.le_of_eq hw.signal.symm) ?_
    intro k hk
    rw [Nat.zero_add]
    exact hvalue k hk
  have hfill : fillFrom (fun k _ => item (window x 0 frameSize) (bandCount - 1 - p + bandCount * k)) 0
      bandSize w.signal = .ok (window (phaseOf x p) 0 bandSize) := by
    rwa [List.drop_eq_nil_of_le (Nat.le_of_eq hw.signal), List.append_nil, Nat.zero_add] at hloop
  rw [subsample, difference_eq_ok (by omega), ok_bind, hw.signal, hfill]
  rfl

theorem split_sweeps {frame : List Float32} (hframe : frame.length = frameSize) :
    Sweeps (subsample frame) splitStep (blocks bandSize)
      (fun b => (columns bandCount frame).getD (bandCount - 1 - b.phase) []) addToBands
      fun p w => w.signal = (columns bandCount frame).getD (bandCount - 1 - p) [] := by
  obtain ⟨x, rfl, -⟩ := exists_phases hframe
  constructor
  · intro p w hp hw
    refine ⟨_, subsample_eq x hp hw, ⟨⟨hw.states, hw.out, length_window .., hw.filtered⟩, ?_⟩, rfl, rfl⟩
    exact (columns_frame x 0 bandSize hp).symm
  · intro p q i w hp hq hi hw hready
    obtain ⟨filtered, hfiltered⟩ : ∃ filtered, fir (taps.getD i []) q (w.state i) w.signal = filtered :=
      ⟨_, rfl⟩
    have hsized := hw.sized_filter hi hq
    rw [hfiltered] at hsized
    obtain ⟨y, hy⟩ := exists_bands hw.out
    have hstream : filtered = window (streamOf 0 filtered) 0 bandSize :=
      hsized.filtered ▸ eq_window_streamOf 0 filtered
    have hadded := addScaled_windows (length_gains hi) (streamOf 0 filtered) y 0 bandSize
    obtain ⟨hblocks, hlength⟩ := blocks_flatten_windows
      fun c k => y c k + (modulation.getD i []).getD c 0 * streamOf 0 filtered k
    rw [← hadded, ← hstream, ← hy] at hblocks hlength
    refine ⟨{ w with
        states := w.states.set i (recent (w.state i) w.signal)
        out := (addScaled (modulation.getD i []) filtered (blocks bandSize w.out)).flatten
        filtered }, ?_, ⟨⟨hsized.states, hlength, hw.signal, hsized.filtered⟩, hready⟩, ?_, ?_⟩
    · rw [splitStep, hw.filter_eq hi hq, ok_bind, item_modulation hi, ok_bind, hfiltered]
      rfl
    · rw [hready]
      rfl
    · rw [hready] at hfiltered
      rw [hblocks, ← hfiltered]
      rfl

theorem merge_sweeps {bands : List Float32} (hbands : bands.length = frameSize) :
    Sweeps (fun _ w => .ok w) (mergeStep bands) (columns bandCount)
      (fun b => scaledSum b.gains (blocks bandSize bands)) addToPhase fun _ _ => True := by
  constructor
  · intro p w hp hw
    exact ⟨w, rfl, ⟨hw, trivial⟩, rfl, rfl⟩
  · intro p q i w hp hq hi hw _
    obtain ⟨y, hy⟩ := exists_bands hbands
    obtain ⟨signal, hsignal⟩ :
        ∃ signal, scaledSum (modulation.getD i []) (blocks bandSize bands) = signal := ⟨_, rfl⟩
    have hready : ({ w with signal } : Work).Sized := by
      refine ⟨hw.states, hw.out, ?_, hw.filtered⟩
      rw [← hsignal, hy, scaledSum_windows (length_gains hi), length_window]
    obtain ⟨filtered, hfiltered⟩ : ∃ filtered, fir (taps.getD i []) q (w.state i) signal = filtered :=
      ⟨_, rfl⟩
    have hsized := hready.sized_filter hi hq
    have hstate : ({ w with signal } : Work).state i = w.state i := rfl
    rw [hstate, hfiltered] at hsized
    obtain ⟨out, hadded, hout, hphases⟩ := addAt_phase (b := branch p q i) hp hw.out hsized.filtered
    refine ⟨{ w with states := w.states.set i (recent (w.state i) signal), out, signal, filtered }, ?_,
      ⟨⟨hsized.states, hout, hready.signal, hsized.filtered⟩, trivial⟩, ?_, ?_⟩
    · rw [mergeStep, item_modulation hi, ok_bind, hsignal, hready.filter_eq hi hq, ok_bind]
      dsimp only
      rw [hstate, hfiltered]
      exact congrArg (· >>= _) hadded
    · exact congrArg (fun signal => w.states.set i (recent (w.state i) signal)) hsignal.symm
    · rw [hphases, ← hfiltered, ← hsignal]
      rfl

/-! ### Frames and runs -/

/-- The histories by number, as the plain bank has them branch by branch. -/
structure Mirrors (states histories : List (List Float32)) : Prop where
  sizes : states.map List.length = List.replicate 10 memorySize
  histories : histories = numbering.map (states.getD · [])

theorem silent_blocks {target : List Float32} (h : target.length = frameSize) :
    blocks bandSize (target.map fun _ => (0 : Float32)) =
      List.replicate bandCount (List.replicate bandSize 0) := by
  have htarget : (target.map fun _ => (0 : Float32)) =
      window (fun _ => 0) 0 (bandSize * bandCount) := by
    rw [List.map_const', h, replicate_eq_window 0 0]
    rfl
  rw [htarget, blocks_window (by decide), silent_windows 0]
  rfl

theorem silent_columns {target : List Float32} (h : target.length = frameSize) :
    columns bandCount (target.map fun _ => (0 : Float32)) =
      List.replicate bandCount (List.replicate bandSize 0) := by
  have htarget : (target.map fun _ => (0 : Float32)) =
      window (fun _ => 0) (bandCount * 0) (bandCount * bandSize) := by
    rw [List.map_const', h, replicate_eq_window 0 0]
    rfl
  rw [htarget, columns_window (by decide), silent_windows 0]
  rfl

theorem Mirrors.begin {states histories : List (List Float32)} (h : Mirrors states histories)
    {target : List Float32} (htarget : target.length = frameSize) : (Work.begin states target).Sized :=
  ⟨h.sizes, by rw [Work.begin, List.length_map, htarget], List.length_replicate, List.length_replicate⟩

theorem analysis_eq {states : List (List Float32)} {f : ThreeBand} (h : Mirrors states f.analysis)
    {frame target : List Float32} (hframe : frame.length = frameSize)
    (htarget : target.length = frameSize) :
    ∃ w, analysis states frame target = .ok w ∧ Mirrors w.states (f.split frame).1.analysis ∧
      blocks bandSize w.out = (f.split frame).2 := by
  obtain ⟨w, hvisit, hsized, hsweep⟩ := (split_sweeps hframe).visit (h.begin htarget)
  have hhistories : numbering.map (Work.begin states target).state = f.analysis := h.histories.symm
  rw [hhistories, Work.begin, silent_blocks htarget, ← analyse_eq_sweep] at hsweep
  refine ⟨w, hvisit, ⟨hsized.states, ?_⟩, ?_⟩
  · rw [split, hsweep]
    rfl
  · rw [split, hsweep]

theorem synthesis_eq {states : List (List Float32)} {f : ThreeBand} (h : Mirrors states f.synthesis)
    {bands target : List Float32} (hbands : bands.length = frameSize)
    (htarget : target.length = frameSize) :
    ∃ w, synthesis states bands target = .ok w ∧
      Mirrors w.states (f.merge (blocks bandSize bands)).1.synthesis ∧
      w.out = (f.merge (blocks bandSize bands)).2 := by
  obtain ⟨w, hvisit, hsized, hsweep⟩ := (merge_sweeps hbands).visit (h.begin htarget)
  have hhistories : numbering.map (Work.begin states target).state = f.synthesis := h.histories.symm
  rw [hhistories, Work.begin, silent_columns htarget, ← synthesise_eq_sweep] at hsweep
  refine ⟨w, hvisit, ⟨hsized.states, ?_⟩, ?_⟩
  · rw [merge, hsweep]
    rfl
  · rw [merge, hsweep]
    exact (interleave_columns hsized.out).symm

/-- The histories of a fresh bank. -/
def silence : List (List Float32) := List.replicate 10 (List.replicate memorySize 0)

theorem mirrors_silence {histories : List (List Float32)} (h : histories = silence) :
    Mirrors silence histories := by
  subst h
  exact ⟨rfl, rfl⟩

/-- Split a frame into a target and look at the three bands. -/
def splitFrame (states : List (List Float32)) (call : List Float32 × List Float32) :
    Checked (List (List Float32) × List (List Float32)) := do
  let w ← analysis states call.1 call.2
  return (w.states, blocks bandSize w.out)

/-- Merge three bands into a target and look at the frame. -/
def mergeFrame (states : List (List Float32)) (call : List Float32 × List Float32) :
    Checked (List (List Float32) × List Float32) := do
  let w ← synthesis states call.1 call.2
  return (w.states, w.out)

/-- Frames are split without a fault, as the plain bank splits them. -/
theorem splitFrames_eq {calls : List (List Float32 × List Float32)}
    (h : ∀ call ∈ calls, call.1.length = frameSize ∧ call.2.length = frameSize) :
    ∃ states, runChecked splitFrame silence calls =
      .ok (states, (runAll split rest (calls.map (·.1))).2) := by
  have hstep (states : List (List Float32)) (f : ThreeBand) (call : List Float32 × List Float32)
      (hstates : Mirrors states f.analysis)
      (hcall : call.1.length = frameSize ∧ call.2.length = frameSize) :
      ∃ states', splitFrame states call = .ok (states', (f.split call.1).2) ∧
        Mirrors states' (f.split call.1).1.analysis := by
    obtain ⟨w, hanalysis, hmirrors, hbands⟩ := analysis_eq hstates hcall.1 hcall.2
    refine ⟨w.states, ?_, hmirrors⟩
    rw [splitFrame, hanalysis, ok_bind, hbands]
    rfl
  obtain ⟨states, hrun, -⟩ :=
    runChecked_simulates hstep (mirrors_silence rfl : Mirrors silence rest.analysis) h
  exact ⟨states, hrun⟩

/-- Bands are merged without a fault, as the plain bank merges them. -/
theorem mergeFrames_eq {calls : List (List Float32 × List Float32)}
    (h : ∀ call ∈ calls, call.1.length = frameSize ∧ call.2.length = frameSize) :
    ∃ states, runChecked mergeFrame silence calls =
      .ok (states, (runAll merge rest (calls.map fun call => blocks bandSize call.1)).2) := by
  have hstep (states : List (List Float32)) (f : ThreeBand) (call : List Float32 × List Float32)
      (hstates : Mirrors states f.synthesis)
      (hcall : call.1.length = frameSize ∧ call.2.length = frameSize) :
      ∃ states', mergeFrame states call = .ok (states', (f.merge (blocks bandSize call.1)).2) ∧
        Mirrors states' (f.merge (blocks bandSize call.1)).1.synthesis := by
    obtain ⟨w, hsynthesis, hmirrors, hout⟩ := synthesis_eq hstates hcall.1 hcall.2
    refine ⟨w.states, ?_, hmirrors⟩
    rw [mergeFrame, hsynthesis, ok_bind, hout]
    rfl
  obtain ⟨states, hrun, -⟩ :=
    runChecked_simulates hstep (mirrors_silence rfl : Mirrors silence rest.synthesis) h
  exact ⟨states, hrun⟩

end Guarded

theorem inBands_blocks {bands : List Float32} (h : bands.length = frameSize) :
    InBands (blocks bandSize bands) := by
  obtain ⟨y, hy⟩ := Guarded.exists_bands h
  rw [hy, InBands, windows, List.map_map, Function.comp_def]
  simp only [length_window]
  rw [List.map_const', List.length_range]

/-- A fresh bank is a polyphase filter of the whole stream. Frames of 480 samples, however many, give
the bands of the stream that they make up (`bandAt`), each sum in the order of the filters and the taps,
and three bands of 160 samples, however many, give the samples of the streams that they make up
(`sampleAt`). The same calls with every index checked, on targets that hold anything, meet no fault and
give the same. -/
theorem runs_follow_polyphase {calls : List (List Float32 × List Float32)}
    (h : ∀ call ∈ calls, call.1.length = frameSize ∧ call.2.length = frameSize) :
    let x := streamOf 0 (calls.flatMap (·.1))
    let bands := fun c => streamOf 0 (calls.flatMap fun call => (blocks bandSize call.1).getD c [])
    let splits := (runAll split rest (calls.map (·.1))).2
    let merges := (runAll merge rest (calls.map fun call => blocks bandSize call.1)).2
    ((∀ c < bandCount, splits.flatMap (·.getD c []) =
        window (bandAt x c) 0 (bandSize * calls.length)) ∧
      ∃ states, runChecked Guarded.splitFrame Guarded.silence calls = .ok (states, splits)) ∧
    (merges.flatten = window (fun j => sampleAt bands (j % bandCount) (j / bandCount)) 0
        (frameSize * calls.length) ∧
      ∃ states, runChecked Guarded.mergeFrame Guarded.silence calls = .ok (states, merges)) := by
  intro x bands splits merges
  refine ⟨⟨?_, Guarded.splitFrames_eq h⟩, ?_, Guarded.mergeFrames_eq h⟩
  · intro c hc
    have hframes : ∀ frame ∈ calls.map (·.1), frame.length = frameSize := by
      intro frame hframe
      obtain ⟨call, hcall, rfl⟩ := List.mem_map.mp hframe
      exact (h call hcall).1
    have hall := runAll_split_eq hframes hc
    rwa [List.length_map, ← List.flatMap_def] at hall
  · have hcalls : ∀ bands ∈ calls.map (fun call => blocks bandSize call.1), InBands bands := by
      intro bands hbands
      obtain ⟨call, hcall, rfl⟩ := List.mem_map.mp hbands
      exact inBands_blocks (h call hcall).1
    have hall := runAll_merge_eq hcalls
    simp only [List.length_map, List.flatMap_map] at hall
    exact hall

/-- A frame that ends in a pulse and a constant one, on targets that held other samples. -/
theorem runs_follow_polyphase_late_pulse :
    let calls := [(latePulse, List.replicate frameSize 7), (List.replicate frameSize 1, latePulse)]
    (∀ call ∈ calls, call.1.length = frameSize ∧ call.2.length = frameSize) ∧
      ((runAll split rest (calls.map (·.1))).2.flatMap (·.getD 1 []) =
          window (bandAt (streamOf 0 (latePulse ++ List.replicate frameSize 1)) 1) 0 320 ∧
        ∃ states bands, runChecked Guarded.splitFrame Guarded.silence calls = .ok (states, bands)) ∧
      ∃ states frames, runChecked Guarded.mergeFrame Guarded.silence calls = .ok (states, frames) := by
  intro calls
  have hcalls : ∀ call ∈ calls, call.1.length = frameSize ∧ call.2.length = frameSize := by
    intro call hcall
    rcases List.mem_pair.mp hcall with rfl | rfl
    · exact ⟨length_latePulse, List.length_replicate⟩
    · exact ⟨List.length_replicate, length_latePulse⟩
  obtain ⟨⟨hbands, states, hsplit⟩, -, states', hmerge⟩ := runs_follow_polyphase hcalls
  refine ⟨hcalls, ⟨?_, states, _, hsplit⟩, states', _, hmerge⟩
  have hstream : calls.flatMap (·.1) = latePulse ++ List.replicate frameSize 1 := by
    simp only [calls, List.flatMap_cons, List.flatMap_nil, List.append_nil]
  have hone := hbands 1 (by decide)
  rw [hstream] at hone
  exact hone

end Duplex.Filter.ThreeBand
