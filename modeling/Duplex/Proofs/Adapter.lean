import Duplex.Intake
import Duplex.Proofs.Pcm

/-!
# Rate adapters: how they are made, and portions of any length

Calls bring an adapter's resampler only to states in which it can stand (`Serves`). Draining goes on
where it was, so that the staging hides how the input was cut: as long as no block is refused, whole
frames in two portions give what they give in one (`process_append`).
-/

namespace Duplex

open Signal

variable {R : Resampling}

/-- A resampler that stands was built. -/
theorem Resampling.Stands.built {i o chunk channels : Nat} {s : R.State}
    (h : R.Stands i o chunk channels s) :
    ∃ s₀, (R.build i o chunk channels).run = .ok (.ok s₀) := by
  induction h with
  | build hbuild => exact ⟨_, hbuild⟩
  | feed _ _ ih => exact ih
  | finish _ _ ih => exact ih
  | reset _ ih => exact ih

namespace RateAdapter

variable {a : RateAdapter R} {i o n : Nat}

/-! ### Making an adapter -/

/-- An adapter as it is made between two rates, for so many channels. -/
structure Made (a : RateAdapter R) (i o n : Nat) : Prop where
  inputRate : a.inputRate = i
  outputRate : a.outputRate = o
  channels : a.channels = n
  chunk : a.chunk = max (i / 100) 1
  built : (R.build i o (max (i / 100) 1) n).run = .ok (.ok a.resampler)
  staged : a.staged = []
  carry : a.carry = []

theorem made_of_create {inputRate outputRate channels : Nat}
    (h : (create inputRate outputRate channels).run = .ok (.ok a)) :
    a.Made inputRate outputRate channels := by
  rw [create] at h
  split at h
  · obtain ⟨resampler, hbuild, h⟩ := attempt_bind_eq_ok.mp h
    rw [run_pure, Except.ok.injEq, Except.ok.injEq] at h
    subst h
    exact ⟨rfl, rfl, rfl, rfl, attempt_adapt_eq_ok.mp hbuild, rfl, rfl⟩
  · exact absurd (Except.ok.inj h) nofun

/-- Every stream's rate is one from which an adapter is made or refused. -/
theorem create_answers {inputRate : Nat} (outputRate : Nat) {channels : Nat}
    (hi : minSampleRate ≤ inputRate) (hchannels : channels ≤ 2) :
    Returns (create (R := R) inputRate outputRate channels).run fun _ => True := by
  rw [create]
  split
  · have hbuild : Returns (R.build inputRate outputRate (max (inputRate / 100) 1) channels).run
        fun _ => True := by
      obtain ⟨made, hmade⟩ := R.build_answers hi (Nat.le_max_left _ 1) hchannels
      exact ⟨made, hmade, trivial⟩
    exact attempt_bind_answers (attempt_adapt_answers _ hbuild) fun _ => returns_ok trivial
  · exact returns_ok trivial

/-- Where resamplers are refused for a rate of zero only, an adapter is made for channels between
rates. -/
theorem create_takes (hR : R.RefusesZeroRates) {inputRate outputRate channels : Nat}
    (hi : 0 < inputRate) (ho : 0 < outputRate) (hc : 0 < channels) (e : Error) :
    (create (R := R) inputRate outputRate channels).run ≠ .ok (.error e) := by
  intro h
  rw [create, dif_pos hc] at h
  cases hbuild : (R.build inputRate outputRate (max (inputRate / 100) 1) channels).run with
  | error fault =>
    rw [ExceptT.run_bind, ExceptT.run_adapt, hbuild] at h
    exact absurd h (by simp [Functor.map, Except.map])
  | ok made =>
    cases made with
    | error cause =>
      obtain hzero | hzero := (hR hc hbuild).mp ⟨cause, rfl⟩ <;> omega
    | ok resampler =>
      rw [ExceptT.run_bind, ExceptT.run_adapt, hbuild] at h
      exact absurd (Except.ok.inj h) (by simp)

/-! ### What calls keep -/

/-- An adapter between two rates for so many channels, whose resampler stands where calls can bring
it. As long as no block is refused, it has staged less than a block. -/
structure Serves (a : RateAdapter R) (i o n : Nat) : Prop where
  inputRate : a.inputRate = i
  outputRate : a.outputRate = o
  channels : a.channels = n
  chunk : a.chunk = max (i / 100) 1
  stands : R.Stands i o (max (i / 100) 1) n a.resampler
  short : R.Unfailing → a.staged.length < a.blockSize

theorem Serves.channels_pos (h : a.Serves i o n) : 0 < n := h.channels ▸ a.channels_pos

theorem Made.serves (h : a.Made i o n) : a.Serves i o n := by
  refine ⟨h.inputRate, h.outputRate, h.channels, h.chunk, .build h.built, fun _ => ?_⟩
  rw [h.staged]
  exact a.blockSize_pos

theorem Serves.reset (h : a.Serves i o n) : a.reset.Serves i o n :=
  ⟨h.inputRate, h.outputRate, h.channels, h.chunk, .reset h.stands, fun _ => a.reset.blockSize_pos⟩

/-- Where a reset renews the resampler, it makes of an adapter a new one. -/
theorem Serves.renewed (hR : R.Renewed) (h : a.Serves i o n) :
    (create i o n).run = .ok (.ok a.reset) := by
  have hbuild := hR h.stands
  obtain rfl := h.inputRate
  obtain rfl := h.outputRate
  obtain rfl := h.channels
  rw [create, dif_pos a.channels_pos, ExceptT.run_bind, ExceptT.run_adapt, hbuild, RateAdapter.reset]
  simp only [← h.chunk]
  rfl

/-- The columns of interleaved samples, as many as there are channels. -/
theorem columns_columnsOf (a : RateAdapter R) (samples : List Int16) :
    Columns a.channels (samples.length / a.channels) (a.columnsOf samples) := by
  refine ⟨?_, ?_⟩
  · rw [columnsOf, List.length_map, length_columns]
  · intro column hcolumn
    obtain ⟨plain, hplain, rfl⟩ := List.mem_map.mp hcolumn
    rw [List.length_map, length_of_mem_columns a.channels_pos hplain]

/-- The columns of a block. -/
theorem columns_block (h : a.blockSize ≤ a.staged.length) :
    Columns a.channels (R.needed a.resampler) (a.columnsOf (a.staged.take a.blockSize)) := by
  have hcolumns := a.columns_columnsOf (a.staged.take a.blockSize)
  have hheight : a.blockSize / a.channels = R.needed a.resampler :=
    Nat.mul_div_cancel _ a.channels_pos
  rwa [List.length_take, Nat.min_eq_left h, hheight] at hcolumns

theorem length_render {made : List (List Float32)} {channels height : Nat}
    (h : Columns channels height made) : (render made).length = height * channels := by
  have hheight : ∀ column ∈ made.map (·.map Pcm.round), column.length = height := by
    intro column hcolumn
    obtain ⟨plain, hplain, rfl⟩ := List.mem_map.mp hcolumn
    rw [List.length_map, h.height plain hplain]
  rw [render, length_interleave hheight, List.length_map, h.channels]

/-! ### Draining -/

/-- The adapter with other frames staged. -/
def restage (a : RateAdapter R) (staged : List Int16) : RateAdapter R := { a with staged }

@[simp] theorem staged_restage (a : RateAdapter R) (staged : List Int16) :
    (a.restage staged).staged = staged := rfl

@[simp] theorem blockSize_restage (a : RateAdapter R) (staged : List Int16) :
    (a.restage staged).blockSize = a.blockSize := rfl

/-- Draining goes block by block: it is over where less than a block is staged or a block is
refused. -/
theorem drain_induction {motive : RateAdapter R → Prop}
    (short : ∀ a, a.staged.length < a.blockSize → motive a)
    (refused : ∀ (a : RateAdapter R) (resampler : R.State) (cause : String),
      a.blockSize ≤ a.staged.length →
      R.feed a.resampler (a.columnsOf (a.staged.take a.blockSize)) = (resampler, .error cause) →
        motive a)
    (fed : ∀ (a : RateAdapter R) (resampler : R.State) (made : List (List Float32)),
      a.blockSize ≤ a.staged.length →
      R.feed a.resampler (a.columnsOf (a.staged.take a.blockSize)) = (resampler, .ok made) →
        motive { a with resampler, staged := a.staged.drop a.blockSize } → motive a)
    (a : RateAdapter R) : motive a := by
  induction a, ([] : List Int16) using drain.induct with
  | case1 a _ h resampler cause hfeed => exact refused a resampler cause h hfeed
  | case2 a _ h resampler made hfeed ih => exact fed a resampler made h hfeed ih
  | case3 a _ h => exact short a (Nat.lt_of_not_le h)

theorem drain_of_lt (h : a.staged.length < a.blockSize) (out : List Int16) :
    a.drain out = (a, out, .ok ()) := by
  rw [drain, dif_neg (Nat.not_le_of_lt h)]

theorem drain_refused {resampler : R.State} {cause : String} (h : a.blockSize ≤ a.staged.length)
    (hfeed : R.feed a.resampler (a.columnsOf (a.staged.take a.blockSize)) =
      (resampler, .error cause)) (out : List Int16) :
    a.drain out = ({ a with resampler }, out, .error (.resample cause)) := by
  rw [drain, dif_pos h, hfeed]

theorem drain_fed {resampler : R.State} {made : List (List Float32)}
    (h : a.blockSize ≤ a.staged.length)
    (hfeed : R.feed a.resampler (a.columnsOf (a.staged.take a.blockSize)) = (resampler, .ok made))
    (out : List Int16) :
    a.drain out =
      { a with resampler, staged := a.staged.drop a.blockSize }.drain (out ++ render made) := by
  rw [drain, dif_pos h, hfeed]

/-- Draining collects output behind what is there. -/
theorem drain_out (a : RateAdapter R) (out : List Int16) :
    a.drain out = ((a.drain []).1, out ++ (a.drain []).2.1, (a.drain []).2.2) := by
  induction a using drain_induction generalizing out with
  | short a h => rw [drain_of_lt h, drain_of_lt h, List.append_nil]
  | refused a resampler cause h hfeed =>
    rw [drain_refused h hfeed, drain_refused h hfeed, List.append_nil]
  | fed a resampler made h hfeed ih =>
    rw [drain_fed h hfeed, drain_fed h hfeed, ih (out ++ _), ih ([] ++ _), List.nil_append,
      List.append_assoc]

/-- Draining touches nothing but the resampler and what is staged. -/
theorem drain_same (a : RateAdapter R) (out : List Int16) :
    (a.drain out).1 =
      { a with resampler := (a.drain out).1.resampler, staged := (a.drain out).1.staged } := by
  induction a using drain_induction generalizing out with
  | short a h => rw [drain_of_lt h]
  | refused a resampler cause h hfeed => rw [drain_refused h hfeed]
  | fed a resampler made h hfeed ih =>
    rw [drain_fed h hfeed]
    exact ih _

/-- Draining fails with the resampler only. -/
theorem drain_error {out : List Int16} {e : Error} (h : (a.drain out).2.2 = .error e) :
    ∃ cause, e = .resample cause := by
  induction a using drain_induction generalizing out with
  | short a hshort =>
    rw [drain_of_lt hshort] at h
    exact absurd h nofun
  | refused a resampler cause hle hfeed =>
    rw [drain_refused hle hfeed] at h
    exact ⟨cause, (Except.error.inj h).symm⟩
  | fed a resampler made hle hfeed ih =>
    rw [drain_fed hle hfeed] at h
    exact ih h

/-- The resampler is brought to a state in which it can stand; where draining does not fail, less
than a block is left. -/
theorem drain_stands (out : List Int16) (h : R.Stands i o n a.channels a.resampler) :
    R.Stands i o n a.channels (a.drain out).1.resampler ∧
      ((a.drain out).2.2 = .ok () → (a.drain out).1.staged.length < (a.drain out).1.blockSize) := by
  induction a using drain_induction generalizing out with
  | short a hshort =>
    rw [drain_of_lt hshort]
    exact ⟨h, fun _ => hshort⟩
  | refused a resampler cause hle hfeed =>
    have hnext := Resampling.Stands.feed h (columns_block hle)
    rw [hfeed] at hnext
    rw [drain_refused hle hfeed]
    exact ⟨hnext, nofun⟩
  | fed a resampler made hle hfeed ih =>
    have hnext := Resampling.Stands.feed h (columns_block hle)
    rw [hfeed] at hnext
    rw [drain_fed hle hfeed]
    exact ih (out ++ render made) hnext

/-- An unfailing resampler takes every block, and whole frames come out. -/
theorem drain_ok (hR : R.Unfailing) {out : List Int16} (h : R.Stands i o n a.channels a.resampler)
    (hout : a.channels ∣ out.length) :
    (a.drain out).2.2 = .ok () ∧ a.channels ∣ (a.drain out).2.1.length := by
  induction a using drain_induction generalizing out with
  | short a hshort =>
    rw [drain_of_lt hshort]
    exact ⟨rfl, hout⟩
  | refused a resampler cause hle hfeed =>
    obtain ⟨made, k, hmade, -⟩ := hR h (columns_block hle)
    rw [hfeed] at hmade
    exact absurd hmade nofun
  | fed a resampler made hle hfeed ih =>
    have hnext := Resampling.Stands.feed h (columns_block hle)
    obtain ⟨made', k, hmade, hcolumns⟩ := hR h (columns_block hle)
    rw [hfeed] at hnext hmade
    obtain rfl : made = made' := Except.ok.inj hmade
    have hmore : a.channels ∣ (out ++ render made).length := by
      rw [List.length_append, length_render hcolumns]
      exact Nat.dvd_add hout (Nat.dvd_mul_left _ _)
    rw [drain_fed hle hfeed]
    exact ih hnext hmore

/-- Where draining does not fail, it goes on with what comes behind. -/
theorem drain_append {out : List Int16} (hok : (a.drain out).2.2 = .ok ()) (ys : List Int16) :
    (a.restage (a.staged ++ ys)).drain out =
      ((a.drain out).1.restage ((a.drain out).1.staged ++ ys)).drain (a.drain out).2.1 := by
  induction a using drain_induction generalizing out with
  | short a h => rw [drain_of_lt h]
  | refused a resampler cause h hfeed =>
    rw [drain_refused h hfeed] at hok
    exact absurd hok nofun
  | fed a resampler made h hfeed ih =>
    have hmore : (a.restage (a.staged ++ ys)).blockSize ≤ (a.restage (a.staged ++ ys)).staged.length := by
      rw [blockSize_restage, staged_restage, List.length_append]
      omega
    have hblock : (a.staged ++ ys).take a.blockSize = a.staged.take a.blockSize :=
      List.take_append_of_le_length h
    have hrest : (a.staged ++ ys).drop a.blockSize = a.staged.drop a.blockSize ++ ys :=
      List.drop_append_of_le_length h
    have hsame : R.feed a.resampler (a.columnsOf ((a.staged ++ ys).take a.blockSize)) =
        (resampler, .ok made) := hblock.symm ▸ hfeed
    rw [drain_fed h hfeed] at hok ⊢
    rw [drain_fed hmore hsame, ← ih hok]
    show RateAdapter.drain { a with resampler, staged := (a.staged ++ ys).drop a.blockSize } _ = _
    rw [hrest]
    rfl

/-! ### Portions -/

/-- Samples of whole frames are staged behind what is there. -/
theorem process_of_dvd {input : List Int16} (h : a.channels ∣ input.length) :
    a.process input = (a.restage (a.staged ++ input)).drain [] := by
  rw [process, Nat.div_mul_cancel h, List.take_length]
  rfl

/-- Processing touches nothing but the resampler and what is staged. -/
theorem process_same (a : RateAdapter R) (input : List Int16) :
    (a.process input).1 =
      { a with
        resampler := (a.process input).1.resampler, staged := (a.process input).1.staged } :=
  drain_same _ _

theorem Serves.process_ok (h : a.Serves i o n) (hR : R.Unfailing) (input : List Int16) :
    (a.process input).2.2 = .ok () ∧ n ∣ (a.process input).2.1.length := by
  obtain rfl := h.channels
  exact drain_ok hR h.stands (Nat.dvd_zero _)

theorem Serves.after_process (h : a.Serves i o n) (input : List Int16) :
    (a.process input).1.Serves i o n := by
  have hsame := a.process_same input
  obtain rfl := h.channels
  obtain ⟨hstands, hshort⟩ := drain_stands []
    (a := a.restage (a.staged ++ input.take (input.length / a.channels * a.channels))) h.stands
  refine ⟨?_, ?_, by rw [hsame], ?_, hstands, fun hR => hshort (h.process_ok hR input).1⟩
  · rw [hsame]
    exact h.inputRate
  · rw [hsame]
    exact h.outputRate
  · rw [hsame]
    exact h.chunk

/-- No samples change nothing. -/
theorem Serves.process_nil (h : a.Serves i o n) (hR : R.Unfailing) :
    a.process [] = (a, [], .ok ()) := by
  rw [process_of_dvd (Nat.dvd_zero _), List.append_nil]
  exact drain_of_lt (h.short hR) []

/-- Where the first of two portions of whole frames is not refused, they give what they give in one. -/
theorem process_append {xs ys : List Int16} (hok : (a.process xs).2.2 = .ok ())
    (hx : a.channels ∣ xs.length) (hy : a.channels ∣ ys.length) :
    a.process (xs ++ ys) =
      (((a.process xs).1.process ys).1, (a.process xs).2.1 ++ ((a.process xs).1.process ys).2.1,
        ((a.process xs).1.process ys).2.2) := by
  have hxy : a.channels ∣ (xs ++ ys).length := by
    rw [List.length_append]
    exact Nat.dvd_add hx hy
  have hchannels : (a.process xs).1.channels = a.channels := by rw [process_same]
  have hgo := drain_append (a := a.restage (a.staged ++ xs)) (process_of_dvd hx ▸ hok) ys
  rw [staged_restage, List.append_assoc, ← process_of_dvd hx, drain_out _ (a.process xs).2.1] at hgo
  rw [process_of_dvd hxy, process_of_dvd (hchannels ▸ hy)]
  exact hgo

end RateAdapter

end Duplex
