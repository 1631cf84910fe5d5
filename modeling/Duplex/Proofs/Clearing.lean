import Duplex.Proofs.Depot
import Duplex.Proofs.Spectral

/-!
# Cleared rate adapters

A resampler that a reset renews, and whose output fits into the room that it told of, is a converter
that writes what it reports (`RateAdapter.converter_sound`), and an adapter answers calls as the depot
of its resampler does, also those that are refused (`RateAdapter.Holds`). An adapter that is reset, or
flushed without a refusal, is the one that was made, and so is any depot, but for storage that is not
read (`RateAdapter.cleared_as_new`).
-/

namespace Duplex

open Signal

namespace RateAdapter

variable {R : Resampling}

/-! ### Resamplers as converters -/

/-- What a resampler that took columns leaves. -/
def report (taken : R.State × Except String (List (List Float32))) : Outcome R.State Error where
  state := taken.1
  written := taken.2.toOption.getD []
  frames := (taken.2.mapError .resample).map fun made => (made.headD []).length

/-- The resampler of a new adapter as a converter, which has the room that it tells of now. -/
def converter (a : RateAdapter R) : Converter where
  State := R.State
  Input := Float32
  Failure := Error
  form := Pcm.widen
  channels := a.channels
  needed := R.needed
  room := R.room a.resampler
  fresh := a.resampler
  reset := R.reset
  feed s staged := report (R.feed s (staged.map (·.take (R.needed s))))
  finish s staged := report (R.finish s staged)
  channels_pos := a.channels_pos
  needed_pos := R.needed_pos

variable {a : RateAdapter R} {i o n : Nat}

/-- The states of an adapter's resampler. -/
abbrev Standing (i o : Nat) (a : RateAdapter R) : R.State → Prop :=
  R.Stands i o a.chunk a.channels

/-- Columns that were made are written, and as many frames reported as they have. -/
theorem report_safe {taken : R.State × Except String (List (List Float32))}
    (hstands : Standing i o a taken.1)
    (hroom : ∀ made, taken.2 = .ok made → ∃ k ≤ R.room a.resampler, Columns a.channels k made) :
    a.converter.Safe (Standing i o a) (report taken) := by
  refine ⟨hstands, ?_⟩
  intro m hm
  obtain ⟨s, result⟩ := taken
  cases result with
  | error cause => cases hm
  | ok made =>
    obtain ⟨k, hk, hcolumns⟩ := hroom made rfl
    obtain ⟨first, rest, rfl⟩ :=
      List.exists_cons_of_length_pos (a.channels_pos.trans_eq hcolumns.channels.symm)
    obtain rfl : first.length = m := Except.ok.inj hm
    obtain rfl := hcolumns.height first List.mem_cons_self
    exact ⟨hk, hcolumns.channels, fun column hcolumn => (hcolumns.height column hcolumn).ge⟩

/-- A block of columns that are high enough. -/
theorem columns_take {staged : List (List Float32)} (h : a.converter.Level staged) {k : Nat}
    (hk : k ≤ (staged.headD []).length) : Columns a.channels k (staged.map (·.take k)) := by
  obtain ⟨hchannels, height, hheight⟩ := h
  obtain ⟨first, rest, rfl⟩ :=
    List.exists_cons_of_length_pos (a.channels_pos.trans_eq hchannels.symm)
  have hfirst := hheight first List.mem_cons_self
  refine ⟨(List.length_map ..).trans hchannels, ?_⟩
  intro column hcolumn
  obtain ⟨old, hold, rfl⟩ := List.mem_map.mp hcolumn
  rw [List.length_take, hheight old hold, ← hfirst]
  exact Nat.min_eq_left hk

/-- A new adapter between two rates, and a resampler that keeps its word. -/
structure Reliable (i o : Nat) (a : RateAdapter R) : Prop where
  renewed : R.Renewed
  roomy : R.Roomy
  built : (R.build i o a.chunk a.channels).run = .ok (.ok a.resampler)
  staged : a.staged = []
  carry : a.carry = []

theorem Reliable.feed (h : Reliable i o a) {s : R.State} {staged : List (List Float32)}
    (hs : Standing i o a s) (hlevel : a.converter.Level staged)
    (hblock : R.needed s ≤ (staged.headD []).length) :
    a.converter.Safe (Standing i o a) (a.converter.feed s staged) ∧
      ∀ made, (R.feed s (staged.map (·.take (R.needed s)))).2 = .ok made →
        ∃ k ≤ R.room a.resampler, Columns a.channels k made := by
  have hcolumns := columns_take hlevel hblock
  have hroom (made : List (List Float32))
      (hmade : (R.feed s (staged.map (·.take (R.needed s)))).2 = .ok made) :=
    h.roomy.feed h.built hs hcolumns hmade
  exact ⟨report_safe (.feed hs hcolumns) hroom, hroom⟩

theorem Reliable.finish (h : Reliable i o a) {s : R.State} {staged : List (List Float32)}
    (hs : Standing i o a s) (hlevel : a.converter.Level staged) :
    a.converter.Safe (Standing i o a) (a.converter.finish s staged) ∧
      ∀ made, (R.finish s staged).2 = .ok made →
        ∃ k ≤ R.room a.resampler, Columns a.channels k made := by
  obtain ⟨hchannels, k, hk⟩ := hlevel
  have hcolumns : Columns a.channels k staged := ⟨hchannels, hk⟩
  have hroom (made : List (List Float32)) (hmade : (R.finish s staged).2 = .ok made) :=
    h.roomy.finish h.built hs hcolumns hmade
  exact ⟨report_safe (.finish hs hcolumns) hroom, hroom⟩

theorem converter_sound (h : Reliable i o a) : a.converter.Sound (Standing i o a) where
  fresh := .build h.built
  reset _ hs := Except.ok.inj (Except.ok.inj ((h.renewed hs).symm.trans h.built))
  feed _ _ hs hlevel hblock := (h.feed hs hlevel hblock).1
  finish _ _ hs hlevel := (h.finish hs hlevel).1

/-! ### The depot of a resampler -/

/-- The adapter that has what a depot has and so many samples staged. -/
def holding (d : Depot a.converter) (staged : List Int16) : RateAdapter R :=
  { a with resampler := d.state, staged, carry := d.carry }

/-- A depot of the resampler stages the columns of samples. -/
structure Stages (i o : Nat) (d : Depot a.converter) (samples : List Int16) : Prop where
  staged : d.staged = a.columnsOf samples
  whole : a.channels ∣ samples.length
  kept : d.Twins (Standing i o a) d

variable {d : Depot a.converter} {samples : List Int16}

/-- What is made of columns of one height is made in full. -/
theorem made_report (h : d.Twins (Standing i o a) d) {s : R.State} {made : List (List Float32)}
    (hsafe : a.converter.Safe (Standing i o a) (report (s, .ok made))) {k : Nat}
    (hcolumns : Columns a.channels k made) :
    (d.absorb (report (s, .ok made))).made (made.headD []).length = render made := by
  obtain ⟨first, rest, rfl⟩ :=
    List.exists_cons_of_length_pos (a.channels_pos.trans_eq hcolumns.channels.symm)
  have hfirst := hcolumns.height first List.mem_cons_self
  rw [List.headD_cons, Depot.made_absorb h.stored.1 (hsafe.writes first.length rfl)]
  refine congrArg render ((List.map_congr_left ?_).trans (List.map_id' _))
  intro column hcolumn
  exact List.take_of_length_le ((hcolumns.height column hcolumn).trans hfirst.symm).le

theorem Stages.length_headD (h : Stages i o d samples) :
    (d.staged.headD []).length = samples.length / a.channels := by
  rw [h.staged]
  exact Resampler.length_headD_columnsOf (r := machine R a.channels_pos Nat.one_pos) samples

/-- There is a block on the first channel when there is one of the interleaved samples. -/
theorem Stages.block_le_iff (h : Stages i o d samples) :
    R.needed d.state ≤ (d.staged.headD []).length ↔ (holding d samples).blockSize ≤ samples.length := by
  rw [h.length_headD, Nat.le_div_iff_mul_le a.channels_pos]
  rfl

/-- The columns of a block, and those of what is left. -/
theorem Stages.block (h : Stages i o d samples) (hle : (holding d samples).blockSize ≤ samples.length) :
    d.staged.map (·.take (R.needed d.state)) =
        a.columnsOf (samples.take (holding d samples).blockSize) ∧
      d.staged.map (·.drop (R.needed d.state)) =
        a.columnsOf (samples.drop (holding d samples).blockSize) := by
  rw [h.staged]
  exact Resampler.map_take_columnsOf (r := machine R a.channels_pos (R.needed_pos d.state)) hle

/-- The adapter drains as the depot does. -/
theorem drain_holding (hrel : Reliable i o a) (h : Stages i o d samples) (out : List Int16) :
    ∃ left, Stages i o (d.drain out).1 left ∧
      (holding d samples).drain out = (holding (d.drain out).1 left, (d.drain out).2) := by
  induction hn : samples.length using Nat.strongRecOn generalizing d samples out with
  | ind n ih =>
    by_cases hle : (holding d samples).blockSize ≤ samples.length
    · have hblock := h.block_le_iff.mpr hle
      obtain ⟨htake, hdrop⟩ := h.block hle
      obtain ⟨hsafe, hroom⟩ := hrel.feed h.kept.good h.kept.level hblock
      obtain ⟨s, result, hfeed⟩ : ∃ s result, R.feed d.state
          (a.columnsOf (samples.take (holding d samples).blockSize)) = (s, result) := ⟨_, _, rfl⟩
      have htaken : R.feed d.state (d.staged.map (·.take (R.needed d.state))) = (s, result) :=
        (congrArg (R.feed d.state) htake).trans hfeed
      have hfed : a.converter.feed d.state d.staged = report (s, result) := congrArg report htaken
      rw [hfed] at hsafe
      cases result with
      | error cause =>
        have hfails : (a.converter.feed d.state d.staged).frames = .error (.resample cause) := by
          rw [hfed]
          rfl
        rw [Depot.drain_of_error hblock hfails, drain_refused hle hfeed, hfed]
        exact ⟨samples, ⟨h.staged, h.whole, (h.kept.absorb hsafe).1⟩, rfl⟩
      | ok made =>
        have hframes : (a.converter.feed d.state d.staged).frames = .ok (made.headD []).length := by
          rw [hfed]
          rfl
        obtain ⟨k, -, hcolumns⟩ := hroom made (congrArg Prod.snd htaken)
        have hpos := (holding d samples).blockSize_pos
        have hsize : a.channels ∣ (holding d samples).blockSize := Nat.dvd_mul_left _ _
        have hrest : Stages i o (d.unstage.absorb (report (s, .ok made)))
            (samples.drop (holding d samples).blockSize) := by
          refine ⟨hdrop, ?_, (h.kept.unstage.absorb hsafe).1⟩
          rw [List.length_drop]
          exact Nat.dvd_sub h.whole hsize
        rw [Depot.drain_of_ok hblock hframes, drain_fed hle hfeed, hfed,
          made_report h.kept hsafe hcolumns]
        exact ih _ (by rw [List.length_drop]; omega) hrest _ rfl
    · have hlt := Nat.lt_of_not_le hle
      have hnone : (d.staged.headD []).length < a.converter.needed d.state :=
        Nat.lt_of_not_le (mt h.block_le_iff.mp hle)
      rw [Depot.drain_of_lt hnone, drain_of_lt hlt]
      exact ⟨samples, h, rfl⟩

/-! ### Calls -/

/-- Staging puts whole frames behind what is there. -/
theorem Stages.stage (h : Stages i o d samples) (input : List Int16) :
    Stages i o (d.stage input)
      (samples ++ input.take (input.length / a.channels * a.channels)) := by
  refine ⟨?_, ?_, h.kept.stage input⟩
  · rw [take_eq_flatten_blocks a.channels_pos, Depot.stage, h.staged]
    exact Feeder.stage_frames (r := machine R a.channels_pos Nat.one_pos) h.whole
      fun frame hframe => length_of_mem_blocks a.channels_pos hframe
  · rw [List.length_append, List.length_take, Nat.min_eq_left (Nat.div_mul_le_self _ _)]
    exact Nat.dvd_add h.whole (Nat.dvd_mul_left _ _)

theorem process_holding (hrel : Reliable i o a) (h : Stages i o d samples) (input out : List Int16) :
    ∃ left, Stages i o (d.process input out).1 left ∧
      (holding d samples).call (input, out) =
        (holding (d.process input out).1 left, (d.process input out).2) := by
  obtain ⟨left, hleft, hdrain⟩ := drain_holding hrel (h.stage input) out
  refine ⟨left, hleft, ?_⟩
  obtain ⟨b, made, result, hprocess⟩ : ∃ b made result,
      (holding d samples).process input = (b, made, result) := ⟨_, _, _, rfl⟩
  have hwhole : (holding (d.stage input)
      (samples ++ input.take (input.length / a.channels * a.channels))).drain out =
        (b, out ++ made, result) := by
    rw [drain_out]
    exact congrArg (fun r : RateAdapter R × List Int16 × Except Error Unit =>
      (r.1, out ++ r.2.1, r.2.2)) hprocess
  rw [call, hprocess]
  rw [hwhole] at hdrain
  obtain ⟨rfl, hanswer⟩ := Prod.mk.inj hdrain
  refine Prod.ext rfl ?_
  have hcount : (d.process input out).2 =
      ((out ++ made), result.map fun () => (out ++ made).length - out.length) :=
    congrArg (fun r : List Int16 × Except Error Unit => (r.1, r.2.map fun _ => r.1.length - out.length))
      hanswer.symm
  rw [hcount, List.length_append, Nat.add_sub_cancel_left]

theorem processBytes_holding (hrel : Reliable i o a) (h : Stages i o d samples)
    (input out : List UInt8) :
    ∃ left, Stages i o (d.processBytes input out).1 left ∧
      (holding d samples).callBytes (input, out) =
        (holding (d.processBytes input out).1 left, (d.processBytes input out).2) := by
  obtain ⟨joined, hjoined⟩ : ∃ joined, d.carry ++ input = joined := ⟨_, rfl⟩
  obtain ⟨whole, hwhole⟩ : ∃ whole, joined.length - joined.length % (2 * a.channels) = whole :=
    ⟨_, rfl⟩
  obtain ⟨emptied, hemptied⟩ : ∃ emptied : Depot a.converter,
      { d with carry := joined.drop whole, samplesIn := [], samplesOut := [] } = emptied := ⟨_, rfl⟩
  have hempty : Stages i o emptied samples := by
    subst hemptied
    exact ⟨h.staged, h.whole, h.kept.state, h.kept.staged, rfl, h.kept.good, h.kept.level,
      h.kept.stored⟩
  obtain ⟨b, made, result, hprocess⟩ : ∃ b made result,
      (holding emptied samples).process (Pcm.decode (joined.take whole)) = (b, made, result) :=
    ⟨_, _, _, rfl⟩
  obtain ⟨d', samplesOut, result', hdepot⟩ : ∃ d' samplesOut result',
      emptied.process (Pcm.decode (joined.take whole)) [] = (d', samplesOut, result') :=
    ⟨_, _, _, rfl⟩
  obtain ⟨left, hleft, hcall⟩ := process_holding hrel hempty (Pcm.decode (joined.take whole)) []
  rw [call, hprocess, hdepot] at hcall
  rw [hdepot] at hleft
  obtain ⟨rfl, hanswer⟩ := Prod.mk.inj hcall
  obtain ⟨rfl, rfl⟩ := Prod.mk.inj hanswer
  have hbytes : (holding d samples).processBytes input =
      (holding d' left, result.map fun () => Pcm.encode made) := by
    rw [RateAdapter.processBytes]
    dsimp only [holding]
    rw [hjoined, Nat.div_mul_self_eq_mod_sub_self, hwhole]
    exact congrArg (fun r : RateAdapter R × List Int16 × Except Error Unit =>
      (r.1, r.2.2.map fun () => Pcm.encode r.2.1)) (hemptied ▸ hprocess)
  rw [callBytes, hbytes, Depot.processBytes_eq hjoined hwhole (hemptied ▸ hdepot)]
  refine ⟨left, ⟨hleft.staged, hleft.whole, hleft.kept.state, hleft.kept.staged, hleft.kept.carry,
    hleft.kept.good, hleft.kept.level, hleft.kept.stored⟩, ?_⟩
  cases result with
  | error e => exact Prod.ext rfl (Prod.ext (List.append_nil out) rfl)
  | ok => exact Prod.ext rfl (Prod.ext rfl (congrArg Except.ok (Pcm.length_encode made)))

/-- A reset of either leaves what is new. -/
theorem reset_holding (hrel : Reliable i o a) (h : Stages i o d samples) :
    Stages i o d.reset [] ∧ (holding d samples).reset = a ∧ holding d.reset [] = a := by
  have hstate : R.reset d.state = a.resampler := (converter_sound hrel).reset _ h.kept.good
  have hnew : ({ a with resampler := a.resampler, staged := [], carry := [] } : RateAdapter R) = a := by
    rw [← hrel.staged, ← hrel.carry]
  have hdepot : holding d.reset [] = a := by
    rw [holding, Depot.reset]
    dsimp only [converter]
    rw [hstate, hnew]
  have hcolumns : d.reset.staged = a.columnsOf [] := by
    refine Eq.trans ?_ (Resampler.columnsOf_nil (r := machine R a.channels_pos Nat.one_pos)).symm
    exact (List.map_const' ..).trans (congrArg (List.replicate · []) h.kept.level.channels)
  exact ⟨⟨hcolumns, Nat.dvd_zero _, h.kept.reset (converter_sound hrel)⟩, hdepot, hdepot⟩

/-- Nothing is staged of either, or something of both. -/
theorem Stages.isEmpty (h : Stages i o d samples) :
    (d.staged.headD []).isEmpty = samples.isEmpty := by
  obtain ⟨frames, hframes⟩ := h.whole
  have hhead := h.length_headD
  rw [hframes, Nat.mul_div_cancel_left _ a.channels_pos] at hhead
  rw [Bool.eq_iff_iff, List.isEmpty_iff_length_eq_zero, List.isEmpty_iff_length_eq_zero, hhead,
    hframes, Nat.mul_eq_zero]
  exact ⟨Or.inr, fun hnone => hnone.resolve_left a.channels_pos.ne'⟩

/-- A call of an adapter, with the output that it is to append to. -/
def perform (a : RateAdapter R) : Depot.Call → RateAdapter R × Depot.Answer Error
  | .process input out =>
    let (a, out, appended) := a.call (input, out)
    (a, .samples out appended)
  | .processBytes input out =>
    let (a, out, appended) := a.callBytes (input, out)
    (a, .bytes out appended)
  | .flush out =>
    let (a, made) := a.flush
    (a, .samples (out ++ made.toOption.getD []) (made.map (·.length)))
  | .reset => (a.reset, .done)

theorem flush_refused {b : RateAdapter R} (h : ¬ b.staged.isEmpty) {s : R.State} {cause : String}
    (hfinish : R.finish b.resampler (b.columnsOf b.staged) = (s, .error cause)) :
    b.flush = ({ b with resampler := s }, .error (.resample cause)) := by
  rw [flush, if_neg h, hfinish]

theorem flush_finished {b : RateAdapter R} (h : ¬ b.staged.isEmpty) {s : R.State}
    {made : List (List Float32)}
    (hfinish : R.finish b.resampler (b.columnsOf b.staged) = (s, .ok made)) :
    b.flush = ({ b with resampler := s }.reset, .ok (render made)) := by
  rw [flush, if_neg h, hfinish]

/-- A flush goes alike, and if it succeeds leaves the new adapter. -/
theorem flush_holding (hrel : Reliable i o a) (h : Stages i o d samples) (out : List Int16) :
    ∃ left, Stages i o (d.flush out).1 left ∧
      (holding d samples).perform (.flush out) =
        (holding (d.flush out).1 left, .samples (d.flush out).2.1 (d.flush out).2.2) ∧
      ∀ n, (d.flush out).2.2 = .ok n → holding (d.flush out).1 left = a := by
  have hempty := h.isEmpty
  by_cases hnone : samples.isEmpty
  · obtain ⟨hclear, hreset, hnew⟩ := reset_holding hrel h
    have hflush : (holding d samples).flush = ((holding d samples).reset, .ok []) := by
      rw [RateAdapter.flush]
      exact if_pos hnone
    rw [Depot.flush, if_pos (hempty.trans hnone), perform, hflush]
    refine ⟨[], hclear, Prod.ext (hreset.trans hnew.symm) ?_, fun _ _ => hnew⟩
    exact congrArg (Depot.Answer.samples · (.ok 0)) (List.append_nil out)
  · obtain ⟨hsafe, hroom⟩ := hrel.finish h.kept.good h.kept.level
    obtain ⟨s, result, hfinish⟩ : ∃ s result, R.finish d.state (a.columnsOf samples) = (s, result) :=
      ⟨_, _, rfl⟩
    have htaken : R.finish d.state d.staged = (s, result) :=
      (congrArg (R.finish d.state) h.staged).trans hfinish
    have hfinished : a.converter.finish d.state d.staged = report (s, result) :=
      congrArg report htaken
    rw [hfinished] at hsafe
    have hfed : Stages i o (d.absorb (report (s, result))) samples :=
      ⟨h.staged, h.whole, (h.kept.absorb hsafe).1⟩
    rw [Depot.flush, if_neg (by rw [hempty]; exact hnone), perform, hfinished]
    cases result with
    | error cause =>
      rw [flush_refused (b := holding d samples) hnone hfinish]
      refine ⟨samples, hfed, Prod.ext rfl ?_, ?_⟩
      · exact congrArg (Depot.Answer.samples · _) (List.append_nil out)
      · intro n hn
        cases hn
    | ok made =>
      obtain ⟨k, -, hcolumns⟩ := hroom made (congrArg Prod.snd htaken)
      obtain ⟨hclear, hreset, hnew⟩ := reset_holding hrel hfed
      have hmade := made_report h.kept hsafe hcolumns
      rw [flush_finished (b := holding d samples) hnone hfinish]
      refine ⟨[], hclear, Prod.ext (hreset.trans hnew.symm) ?_, fun _ _ => hnew⟩
      exact congrArg (fun made => Depot.Answer.samples (out ++ made) (.ok made.length)) hmade.symm

/-- A call goes alike. -/
theorem perform_holding (hrel : Reliable i o a) (h : Stages i o d samples) (call : Depot.Call) :
    ∃ left, Stages i o (d.perform call).1 left ∧
      (holding d samples).perform call = (holding (d.perform call).1 left, (d.perform call).2) := by
  cases call with
  | process input out =>
    obtain ⟨left, hleft, hcall⟩ := process_holding hrel h input out
    exact ⟨left, hleft, congrArg (fun r : RateAdapter R × List Int16 × Except Error Nat =>
      (r.1, Depot.Answer.samples r.2.1 r.2.2)) hcall⟩
  | processBytes input out =>
    obtain ⟨left, hleft, hcall⟩ := processBytes_holding hrel h input out
    exact ⟨left, hleft, congrArg (fun r : RateAdapter R × List UInt8 × Except Error Nat =>
      (r.1, Depot.Answer.bytes r.2.1 r.2.2)) hcall⟩
  | flush out =>
    obtain ⟨left, hleft, hcall, -⟩ := flush_holding hrel h out
    exact ⟨left, hleft, hcall⟩
  | reset =>
    obtain ⟨hclear, hreset, hnew⟩ := reset_holding hrel h
    exact ⟨[], hclear, Prod.ext (hreset.trans hnew.symm) rfl⟩

/-- An adapter holds what the depot of its resampler does, but for the storage. -/
def Holds (i o : Nat) (b : RateAdapter R) (d : Depot a.converter) : Prop :=
  ∃ samples, Stages i o d samples ∧ b = holding d samples

/-- A new adapter holds nothing, and neither does the depot. -/
theorem holds_create (hrel : Reliable i o a) : Holds i o a (Depot.create a.converter) := by
  refine ⟨[], ⟨?_, Nat.dvd_zero _, .create (converter_sound hrel)⟩, ?_⟩
  · exact (Resampler.columnsOf_nil (r := machine R a.channels_pos Nat.one_pos)).symm
  · show a = { a with resampler := a.resampler, staged := [], carry := [] }
    rw [← hrel.staged, ← hrel.carry]

/-- Calls in a row go alike. -/
theorem Holds.run (hrel : Reliable i o a) {b : RateAdapter R} (h : Holds i o b d)
    (calls : List Depot.Call) :
    Holds i o (runAll perform b calls).1 (runAll Depot.perform d calls).1 ∧
      (runAll perform b calls).2 = (runAll Depot.perform d calls).2 := by
  have hstep (b : RateAdapter R) (d : Depot a.converter) (call : Depot.Call) (h : Holds i o b d) :
      Holds i o (b.perform call).1 (d.perform call).1 ∧ (b.perform call).2 = (d.perform call).2 := by
    obtain ⟨samples, hstages, rfl⟩ := h
    obtain ⟨left, hleft, hcall⟩ := perform_holding hrel hstages call
    rw [hcall]
    exact ⟨⟨left, hleft, rfl⟩, rfl⟩
  exact runAll_related hstep h calls

/-! ### Cleared adapters -/

/-- A reset, or a flush that succeeds. -/
def Clears (b : RateAdapter R) (call : Depot.Call) : Prop :=
  call = .reset ∨ ∃ out out' appended, call = .flush out ∧
    (b.perform call).2 = .samples out' (.ok appended)

/-- An adapter is new again when it was cleared. -/
theorem Holds.clears (hrel : Reliable i o a) {b : RateAdapter R} (h : Holds i o b d)
    {call : Depot.Call} (hcall : b.Clears call) : (b.perform call).1 = a := by
  obtain ⟨samples, hstages, rfl⟩ := h
  rcases hcall with rfl | ⟨out, out', appended, rfl, hanswer⟩
  · obtain ⟨-, hreset, -⟩ := reset_holding hrel hstages
    exact hreset
  · obtain ⟨left, -, hflush, hnew⟩ := flush_holding hrel hstages out
    rw [hflush] at hanswer ⊢
    exact hnew appended (Depot.Answer.samples.inj hanswer).2

/-- A new adapter has nothing to flush. -/
theorem flush_new (hrel : Reliable i o a) (out : List Int16) :
    a.perform (.flush out) = (a, .samples out (.ok 0)) := by
  obtain ⟨samples, hstages, ha⟩ := holds_create hrel
  obtain ⟨left, -, hflush, hnew⟩ := flush_holding hrel hstages out
  have hnothing := Depot.flush_create a.converter out
  rw [Depot.perform] at hnothing
  obtain ⟨hout, happended⟩ := Depot.Answer.samples.inj hnothing
  rw [← ha, hout, happended, hnew 0 happended] at hflush
  exact hflush

/-- A resampler that finishes with any columns makes every flush clear. -/
theorem flush_clears (hR : ∀ (s : R.State) (columns : List (List Float32)),
    ∃ made, (R.finish s columns).2 = .ok made) (b : RateAdapter R) (out : List Int16) :
    b.Clears (.flush out) := by
  refine .inr ⟨out, ?_⟩
  rw [perform]
  by_cases hnone : b.staged.isEmpty
  · rw [flush, if_pos hnone]
    exact ⟨_, _, rfl, rfl⟩
  · obtain ⟨made, hmade⟩ := hR b.resampler (b.columnsOf b.staged)
    rw [flush_finished hnone (Prod.ext rfl hmade)]
    exact ⟨_, _, rfl, rfl⟩

/-- Take any converter whose reset makes it fresh and that writes what it reports. Whatever was called
of its depot before, after a reset or a flush that succeeds the depot answers all further calls as a new
one does, and a second flush appends nothing. The resampler of a new adapter is such a converter, if a
reset renews it and its output fits into the room that it tells of: the adapter answers all calls as
the depot does, and is the one that was made after a reset or a flush that succeeds. -/
theorem cleared_as_new :
    (∀ (c : Converter) (good : c.State → Prop), c.Sound good →
      ∀ (history : List Depot.Call) (last : Depot.Call),
        (runAll Depot.perform (Depot.create c) history).1.Clears last →
        let cleared := ((runAll Depot.perform (Depot.create c) history).1.perform last).1
        (∀ later, (runAll Depot.perform cleared later).2 =
          (runAll Depot.perform (Depot.create c) later).2) ∧
        ∀ out, (cleared.perform (.flush out)).2 = .samples out (.ok 0)) ∧
    ∀ (R : Resampling), R.Renewed → R.Roomy →
      ∀ (inputRate outputRate channels : Nat) (a : RateAdapter R),
        (create inputRate outputRate channels).run = .ok (.ok a) →
        (a.converter.Sound (Standing inputRate outputRate a) ∧
          ∀ calls, (runAll perform a calls).2 =
            (runAll Depot.perform (Depot.create a.converter) calls).2) ∧
        ∀ (history : List Depot.Call) (last : Depot.Call),
          (runAll perform a history).1.Clears last →
          let cleared := ((runAll perform a history).1.perform last).1
          cleared = a ∧ ∀ out, cleared.perform (.flush out) = (a, .samples out (.ok 0)) := by
  refine ⟨fun c good hgood history last hlast => Depot.cleared_answers hgood history hlast, ?_⟩
  intro R hN hroom inputRate outputRate channels a hcreate
  have hmade := made_of_create hcreate
  have hrel : Reliable inputRate outputRate a :=
    ⟨hN, hroom, hmade.chunk ▸ hmade.channels ▸ hmade.built, hmade.staged, hmade.carry⟩
  refine ⟨⟨converter_sound hrel, fun calls => ((holds_create hrel).run hrel calls).2⟩, ?_⟩
  intro history last hlast cleared
  have hcleared : cleared = a := ((holds_create hrel).run hrel history).1.clears hrel hlast
  rw [hcleared]
  exact ⟨rfl, flush_new hrel⟩

/-- Stereo from 8 kHz to 16 kHz: a depot that staged two frames of a new block and carries a byte, and
the adapter, are flushed. -/
theorem cleared_as_new_doubling :
    ∃ (a : RateAdapter Resample.spectral) (history : List Depot.Call) (last : Depot.Call),
      (create 8000 16000 2).run = .ok (.ok a) ∧
      history = [.process (List.replicate 160 7) [1], .reset, .processBytes [4, 0, 5, 0, 6] [2],
        .process [7, 8, 9] []] ∧
      last = .flush [3] ∧
      a.converter.Sound (Standing 8000 16000 a) ∧
      (runAll Depot.perform (Depot.create a.converter) history).1.Clears last ∧
      (runAll perform a history).1.Clears last ∧
      (∀ calls, (runAll perform a calls).2 =
        (runAll Depot.perform (Depot.create a.converter) calls).2) ∧
      ((runAll perform a history).1.perform last).1 = a ∧
      (∀ out, a.perform (.flush out) = (a, .samples out (.ok 0))) ∧
      let cleared := ((runAll Depot.perform (Depot.create a.converter) history).1.perform last).1
      (∀ later, (runAll Depot.perform cleared later).2 =
        (runAll Depot.perform (Depot.create a.converter) later).2) ∧
      ∀ out, (cleared.perform (.flush out)).2 = .samples out (.ok 0) := by
  let history : List Depot.Call :=
    [.process (List.replicate 160 7) [1], .reset, .processBytes [4, 0, 5, 0, 6] [2],
      .process [7, 8, 9] []]
  obtain ⟨hall, hcreated⟩ := cleared_as_new
  obtain ⟨a, ha⟩ : ∃ a : RateAdapter Resample.spectral, (create 8000 16000 2).run = .ok (.ok a) :=
    ⟨_, rfl⟩
  obtain ⟨⟨hsound, hanswers⟩, hsame⟩ :=
    hcreated _ Resample.spectral_renewed Resample.spectral_roomy _ _ _ a ha
  have hclears : (runAll perform a history).1.Clears (.flush [3]) :=
    flush_clears (fun _ _ => ⟨_, rfl⟩) _ [3]
  have hclears' : (runAll Depot.perform (Depot.create a.converter) history).1.Clears (.flush [3]) := by
    obtain hreset | ⟨out, out', appended, hcall, hanswer⟩ := hclears
    · cases hreset
    have hlast := hanswers (history ++ [.flush [3]])
    rw [runAll_append, runAll_append, hanswers history] at hlast
    exact .inr ⟨out, out', appended, hcall,
      (List.cons.inj (List.append_cancel_left hlast)).1.symm.trans hanswer⟩
  obtain ⟨hcleared, hnothing⟩ := hsame history (.flush [3]) hclears
  rw [hcleared] at hnothing
  exact ⟨a, history, .flush [3], ha, rfl, rfl, hsound, hclears', hclears, hanswers, hcleared, hnothing,
    hall _ _ hsound history _ hclears'⟩

end RateAdapter

end Duplex
