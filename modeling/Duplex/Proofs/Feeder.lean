import Duplex.Proofs.Resampler
import Duplex.Proofs.Spectral

/-!
# Feeders: what a rate adapter makes of its input, whatever the resampler

A `Feeder` stages a stream for a resampler that comes in portions: bytes short of a frame are
carried, frames short of a block are staged on their channels. What a feeder holds can be told from
the stream so far alone (`Resampler.after`), and each portion takes it from the stream without the
portion to the stream with it (`process_after`, `processBytes_after`). So the resampler is fed the
consecutive blocks of the stream, however that is cut (`feeds_consecutive_blocks`). A rate adapter is
such a feeder of its resampler, where that takes blocks of one size and refuses none (`Shows`).
-/

namespace Duplex

open Signal
open RateAdapter (render)

/-! ### Feeders -/

/-- Staging for a resampler. -/
structure Feeder (r : Resampler) where
  state : r.State
  /-- The frames short of a block, a column for each channel. -/
  staged : List (List r.Input)
  /-- The bytes short of a frame. -/
  carry : List UInt8

namespace Feeder

variable {r : Resampler}

/-- A feeder that holds nothing, and its resampler in some state. -/
def fresh (s : r.State) : Feeder r := ⟨s, List.replicate r.channels [], []⟩

/-- Drop what is held, and the history of the resampler. -/
def reset (f : Feeder r) : Feeder r := ⟨r.reset f.state, f.staged.map fun _ => [], []⟩

/-- Stage the samples of whole frames, each on its channel; an incomplete last frame is ignored. -/
def stage (f : Feeder r) (input : List Int16) : Feeder r :=
  { f with
    staged := (blocks r.channels input).foldl
      (fun staged frame => List.zipWith (fun column v => column ++ [r.form v]) staged frame)
      f.staged }

/-- Drop a block of every channel. -/
def unstage (f : Feeder r) : Feeder r := { f with staged := f.staged.map (·.drop r.block) }

/-- Feed blocks as long as the first channel has one, and append what they make to `out`. -/
def drain (f : Feeder r) (out : List Int16) : Feeder r × List Int16 :=
  if _h : r.block ≤ (f.staged.headD []).length then
    let fed := r.feed f.state (f.staged.map (·.take r.block))
    drain { f.unstage with state := fed.1 } (out ++ render fed.2)
  else (f, out)
termination_by (f.staged.headD []).length
decreasing_by
  have hpos := r.block_pos
  show ((f.staged.map (·.drop r.block)).headD []).length < _
  cases hstaged : f.staged with
  | nil =>
    rw [hstaged, List.headD_nil, List.length_nil] at _h
    omega
  | cons first rest =>
    rw [hstaged, List.headD_cons] at _h
    rw [List.map_cons, List.headD_cons, List.headD_cons, List.length_drop]
    omega

/-- Resample interleaved samples onto the end of `out`, and count the samples appended. -/
def process (f : Feeder r) (input out : List Int16) : Feeder r × List Int16 × Nat :=
  let (f, made) := (f.stage input).drain out
  (f, made, made.length - out.length)

/-- Resample bytes onto the end of `out`, and count the bytes appended; those of an incomplete last
frame wait for the next call. -/
def processBytes (f : Feeder r) (input out : List UInt8) : Feeder r × List UInt8 × Nat :=
  let carry := f.carry ++ input
  let whole := carry.length - carry.length % (2 * r.channels)
  let (f, made, n) := { f with carry := carry.drop whole }.process (Pcm.decode (carry.take whole)) []
  (f, out ++ Pcm.encode made, 2 * n)

end Feeder

/-! ### What a feeder makes of a stream -/

namespace Resampler

variable (r : Resampler)

/-- A feeder that was fresh before the stream and has carried some bytes since. -/
def after (s : r.State) (samples : List Int16) (carry : List UInt8) : Feeder r :=
  ⟨r.stateAfter s samples, r.columnsOf (residue r.blockSize samples), carry⟩

/-- The feeder after a stream of bytes. -/
def afterBytes (s : r.State) (bytes : List UInt8) : Feeder r :=
  r.after s (r.samplesOf bytes) (residue (2 * r.channels) bytes)

variable {r}

/-- A feeder goes on as one that begins with what is staged. -/
theorem after_append (s : r.State) (xs ys : List Int16) (carry : List UInt8) :
    r.after s (xs ++ ys) carry =
      r.after (r.stateAfter s xs) (residue r.blockSize xs ++ ys) carry := by
  rw [after, after, stateAfter_append, residue_append_left r.blockSize_pos]

end Resampler

namespace Feeder

variable {r : Resampler} {f : Feeder r} {samples : List Int16}

theorem fresh_eq_after (s : r.State) : (fresh s : Feeder r) = r.after s [] [] := by
  have hempty : ([] : List Int16).length < r.blockSize := r.blockSize_pos
  rw [fresh, Resampler.after, residue_of_length_lt hempty, Resampler.columnsOf_nil,
    (Resampler.fed_of_lt s hempty).1]

/-- Frames are staged behind the columns that are there. -/
theorem stage_frames {xs : List Int16} (hxs : r.channels ∣ xs.length) {frames : List (List Int16)}
    (hframes : ∀ frame ∈ frames, frame.length = r.channels) :
    frames.foldl (fun staged frame => List.zipWith (fun column v => column ++ [r.form v]) staged frame)
        (r.columnsOf xs) = r.columnsOf (xs ++ frames.flatten) := by
  induction frames generalizing xs with
  | nil => rw [List.foldl_nil, List.flatten_nil, List.append_nil]
  | cons frame frames ih =>
    have hframe := hframes frame List.mem_cons_self
    have hcolumns : r.columnsOf frame = frame.map fun v => [r.form v] := by
      rw [Resampler.columnsOf, columns_of_length_eq r.channels_pos hframe, List.map_map]
      rfl
    have hpush : List.zipWith (fun column v => column ++ [r.form v]) (r.columnsOf xs) frame =
        r.columnsOf (xs ++ frame) := by
      rw [Resampler.columnsOf_append hxs, hcolumns, List.zipWith_map_right]
    have hmore : r.channels ∣ (xs ++ frame).length := by
      rw [List.length_append, hframe]
      exact Nat.dvd_add hxs (Nat.dvd_refl _)
    rw [List.foldl_cons, hpush, ih hmore fun frame' h => hframes frame' (List.mem_cons_of_mem frame h),
      List.flatten_cons, List.append_assoc]

/-- The whole frames of the input are staged behind what is there. -/
theorem stage_eq {xs : List Int16} (hf : f.staged = r.columnsOf xs) (hxs : r.channels ∣ xs.length)
    (input : List Int16) :
    f.stage input =
      { f with
        staged := r.columnsOf (xs ++ input.take (input.length / r.channels * r.channels)) } := by
  rw [stage, hf, stage_frames hxs fun frame hframe => length_of_mem_blocks r.channels_pos hframe,
    take_eq_flatten_blocks r.channels_pos]

/-- There is a block on the first channel when there is one of the interleaved samples. -/
theorem block_le_iff (hf : f.staged = r.columnsOf samples) :
    r.block ≤ (f.staged.headD []).length ↔ r.blockSize ≤ samples.length := by
  rw [hf, Resampler.length_headD_columnsOf, Nat.le_div_iff_mul_le r.channels_pos]
  rfl

/-- Draining feeds the blocks of what is staged, and leaves what is short of a block. -/
theorem drain_eq (hf : f.staged = r.columnsOf samples) (out : List Int16) :
    f.drain out =
      ({ f with
          state := r.stateAfter f.state samples
          staged := r.columnsOf (residue r.blockSize samples) },
        out ++ r.heard f.state samples) := by
  induction samples using blocks_induction r.blockSize_pos generalizing f out with
  | short samples h =>
    have hnone : ¬ r.block ≤ (f.staged.headD []).length := by
      rw [block_le_iff hf]
      omega
    obtain ⟨hstate, hheard⟩ := Resampler.fed_of_lt f.state h
    rw [drain, dif_neg hnone, residue_of_length_lt h, hstate, hheard, ← hf, List.append_nil]
  | long samples h ih =>
    obtain ⟨htake, hdrop⟩ := Resampler.map_take_columnsOf h
    have hrest : f.unstage.staged = r.columnsOf (samples.drop r.blockSize) := by
      rw [unstage, hf, hdrop]
    obtain ⟨hstate, hheard⟩ := Resampler.fed_of_le (s := f.state) h rfl
    rw [drain, dif_pos ((block_le_iff hf).mpr h), hf, htake]
    refine (ih (f := ⟨(r.feed f.state (r.columnsOf (samples.take r.blockSize))).1, f.unstage.staged,
      f.carry⟩) hrest _).trans ?_
    rw [residue_of_le_length r.blockSize_pos h, hstate, hheard, List.append_assoc]

/-! #### Calls -/

/-- What is staged between calls comes in whole frames. -/
theorem dvd_length_residue {xs : List Int16} (h : r.channels ∣ xs.length) :
    r.channels ∣ (residue r.blockSize xs).length := by
  rw [length_residue]
  exact (Nat.dvd_mod_iff r.dvd_blockSize).mpr h

/-- A call stages the whole frames of the input and feeds the blocks there are. -/
theorem process_eq {xs : List Int16} (hf : f.staged = r.columnsOf xs) (hxs : r.channels ∣ xs.length)
    {input ys : List Int16} (hys : xs ++ input.take (input.length / r.channels * r.channels) = ys)
    (out : List Int16) :
    f.process input out =
      ({ f with state := r.stateAfter f.state ys, staged := r.columnsOf (residue r.blockSize ys) },
        out ++ r.heard f.state ys, (r.heard f.state ys).length) := by
  rw [process, stage_eq hf hxs, hys, drain_eq rfl]
  dsimp only
  rw [List.length_append, Nat.add_sub_cancel_left]

/-- A call takes the feeder from the stream before to the stream with the input, and appends what is
heard on the way. -/
theorem process_after (s : r.State) {xs input : List Int16} (hxs : r.channels ∣ xs.length)
    (hinput : r.channels ∣ input.length) (carry : List UInt8) (out : List Int16) :
    ∃ piece, (r.after s xs carry).process input out =
        (r.after s (xs ++ input) carry, out ++ piece, piece.length) ∧
      r.heard s (xs ++ input) = r.heard s xs ++ piece := by
  have hwhole : input.take (input.length / r.channels * r.channels) = input := by
    rw [Nat.div_mul_cancel hinput, List.take_length]
  refine ⟨_, ?_, Resampler.heard_append s xs input⟩
  rw [Resampler.after_append]
  exact process_eq rfl (dvd_length_residue hxs) (by rw [hwhole]) out

/-- So it is with bytes, where those short of a frame are carried. -/
theorem processBytes_after (s : r.State) (xs input out : List UInt8) :
    ∃ piece, (r.afterBytes s xs).processBytes input out =
        (r.afterBytes s (xs ++ input), out ++ piece, piece.length) ∧
      Pcm.encode (r.heard s (r.samplesOf (xs ++ input))) =
        Pcm.encode (r.heard s (r.samplesOf xs)) ++ piece := by
  have hframe : 0 < 2 * r.channels := Nat.mul_pos Nat.two_pos r.channels_pos
  obtain ⟨joined, hjoined⟩ : ∃ joined, (r.afterBytes s xs).carry ++ input = joined := ⟨_, rfl⟩
  have hsamples : r.samplesOf (xs ++ input) = r.samplesOf xs ++ r.samplesOf joined := by
    rw [← hjoined, Resampler.samplesOf_append]
    rfl
  have hcarry : residue (2 * r.channels) (xs ++ input) = residue (2 * r.channels) joined := by
    rw [← hjoined, residue_append_left hframe]
    rfl
  obtain ⟨piece, hcall, hheard⟩ := process_after s (Resampler.dvd_length_samplesOf xs)
    (Resampler.dvd_length_samplesOf joined) (residue (2 * r.channels) joined) []
  refine ⟨Pcm.encode piece, ?_, ?_⟩
  · rw [processBytes, hjoined, ← Nat.div_mul_self_eq_mod_sub_self, Pcm.length_encode,
      Resampler.afterBytes, Resampler.afterBytes, hcarry, hsamples]
    exact congrArg (fun called => (called.1, out ++ Pcm.encode called.2.1, 2 * called.2.2)) hcall
  · rw [hsamples, hheard, Pcm.encode_append]

/-! #### Runs of calls -/

/-- Process a call's input onto the output that it comes with. -/
def call (f : Feeder r) (call : List Int16 × List Int16) : Feeder r × List Int16 × Nat :=
  f.process call.1 call.2

/-- Process a call's bytes onto the output that it comes with. -/
def callBytes (f : Feeder r) (call : List UInt8 × List UInt8) : Feeder r × List UInt8 × Nat :=
  f.processBytes call.1 call.2

/-- When each call takes a feeder from a stream to the stream with its input and appends what is
heard on the way, calls in a row take it to the stream with all their inputs, and what they append
is, one piece after another, what is heard on that way. -/
theorem runAll_stream {α : Type} {n : Nat}
    (call : Feeder r → List α × List α → Feeder r × List α × Nat) (stand : List α → Feeder r)
    (sound : List α → List α)
    (hstep : ∀ xs input out, n ∣ xs.length → n ∣ input.length →
      ∃ piece, call (stand xs) (input, out) =
          (stand (xs ++ input), out ++ piece, piece.length) ∧
        sound (xs ++ input) = sound xs ++ piece)
    (xs : List α) (hxs : n ∣ xs.length) (calls : List (List α × List α))
    (hcalls : ∀ call ∈ calls, n ∣ call.1.length) :
    ∃ pieces, pieces.length = calls.length ∧
      runAll call (stand xs) calls =
        (stand (xs ++ calls.flatMap (·.1)),
          List.zipWith (fun call piece => (call.2 ++ piece, piece.length)) calls pieces) ∧
      sound (xs ++ calls.flatMap (·.1)) = sound xs ++ pieces.flatten := by
  induction calls generalizing xs with
  | nil => exact ⟨[], rfl, by simp [runAll], by simp⟩
  | cons first calls ih =>
    obtain ⟨input, out⟩ := first
    have hinput : n ∣ input.length := hcalls (input, out) List.mem_cons_self
    obtain ⟨piece, hcall, hpiece⟩ := hstep xs input out hxs hinput
    have hmore : n ∣ (xs ++ input).length := by
      rw [List.length_append]
      exact Nat.dvd_add hxs hinput
    obtain ⟨pieces, hlength, hrun, hsound⟩ :=
      ih (xs ++ input) hmore fun call hmem => hcalls call (List.mem_cons_of_mem (input, out) hmem)
    refine ⟨piece :: pieces, by rw [List.length_cons, hlength, List.length_cons], ?_, ?_⟩
    · rw [runAll_cons, hcall, hrun, List.flatMap_cons, List.zipWith_cons_cons, List.append_assoc]
    · rw [List.flatMap_cons, List.flatten_cons, ← List.append_assoc, ← List.append_assoc, hsound,
        hpiece]

/-- A feeder that has fed the blocks of a stream: it stages less than a block, equally much on each
channel, and carries less than a frame. -/
structure Fed (f : Feeder r) (s : r.State) (samples : List Int16) : Prop where
  state : f.state = (runAll r.feed s (r.blocksOf samples)).1
  channels : f.staged.length = r.channels
  level : ∃ k < r.block, ∀ column ∈ f.staged, column.length = k
  carry : f.carry.length < 2 * r.channels

theorem after_fed (s : r.State) (samples : List Int16) {carry : List UInt8}
    (hcarry : carry.length < 2 * r.channels) : (r.after s samples carry).Fed s samples := by
  refine ⟨rfl, Resampler.length_columnsOf _, ?_, hcarry⟩
  refine ⟨(residue r.blockSize samples).length / r.channels, ?_,
    fun column hcolumn => Resampler.length_of_mem_columnsOf hcolumn⟩
  exact Nat.div_lt_of_lt_mul
    ((length_residue_lt r.blockSize_pos samples).trans_eq (Nat.mul_comm _ _))

/-- Bytes in portions of any length. -/
theorem callBytes_stream (s : r.State) (calls : List (List UInt8 × List UInt8)) :
    ∃ pieces, pieces.length = calls.length ∧
      runAll callBytes (fresh s) calls =
        (r.afterBytes s (calls.flatMap (·.1)),
          List.zipWith (fun call piece => (call.2 ++ piece, piece.length)) calls pieces) ∧
      pieces.flatten = Pcm.encode (r.heard s (r.samplesOf (calls.flatMap (·.1)))) := by
  have hnone : r.samplesOf [] = [] := by
    rw [Resampler.samplesOf, List.take_nil, Pcm.decode_nil]
  have hfresh : (fresh s : Feeder r) = r.afterBytes s [] := by
    rw [fresh_eq_after, Resampler.afterBytes, hnone, residue, List.drop_nil]
  obtain ⟨pieces, hlength, hrun, hheard⟩ := runAll_stream callBytes (r.afterBytes s)
    (fun bytes => Pcm.encode (r.heard s (r.samplesOf bytes)))
    (fun xs input out _ _ => processBytes_after s xs input out) [] (Nat.one_dvd _) calls
    fun _ _ => Nat.one_dvd _
  rw [hnone, Resampler.heard_nil] at hheard
  exact ⟨pieces, hlength, hfresh ▸ hrun, hheard.symm⟩

/-- Whole frames in portions. -/
theorem call_stream (s : r.State) {calls : List (List Int16 × List Int16)}
    (hcalls : ∀ call ∈ calls, r.channels ∣ call.1.length) :
    ∃ pieces, pieces.length = calls.length ∧
      runAll call (fresh s) calls =
        (r.after s (calls.flatMap (·.1)) [],
          List.zipWith (fun call piece => (call.2 ++ piece, piece.length)) calls pieces) ∧
      pieces.flatten = r.heard s (calls.flatMap (·.1)) := by
  obtain ⟨pieces, hlength, hrun, hheard⟩ := runAll_stream call (r.after s · []) (r.heard s)
    (fun xs input out hxs hinput => process_after s hxs hinput [] out) []
    (Nat.dvd_zero r.channels) calls hcalls
  rw [Resampler.heard_nil] at hheard
  exact ⟨pieces, hlength, fresh_eq_after s ▸ hrun, hheard.symm⟩

/-- Calls that each come with an input and the output it is appended to, to a feeder that is fresh
at first: the resampler is handed the consecutive blocks of a stream of samples, one after another,
and each call appends its piece of what is heard of them, and counts it. -/
structure Feeds {α : Type} (s : r.State)
    (call : ∀ {r : Resampler}, Feeder r → List α × List α → Feeder r × List α × Nat)
    (calls : List (List α × List α)) (samples : List Int16) (encode : List Int16 → List α) :
    Prop where
  fed : (runAll call (fresh s) calls).1.Fed s samples
  handed : (runAll call (fresh (s, []) : Feeder r.recorded) calls).1.state.2 = r.blocksOf samples
  answers : ∃ pieces, pieces.length = calls.length ∧
    (runAll call (fresh s) calls).2 =
      List.zipWith (fun call piece => (call.2 ++ piece, piece.length)) calls pieces ∧
    pieces.flatten = encode (r.heard s samples)

/-- The record of a resampler has the blocks of the stream. -/
theorem after_recorded (s : r.State) (samples : List Int16) (carry : List UInt8) :
    (r.recorded.after (s, []) samples carry).state.2 = r.blocksOf samples := by
  show (runAll (recording r.feed) (s, []) (r.blocksOf samples)).1.2 = _
  rw [runAll_recording, List.nil_append]

/-- Bytes feed the samples of their whole frames. -/
theorem feeds_bytes (s : r.State) (calls : List (List UInt8 × List UInt8)) :
    Feeds s callBytes calls (r.samplesOf (calls.flatMap (·.1))) Pcm.encode := by
  obtain ⟨pieces, hlength, hrun, hheard⟩ := callBytes_stream s calls
  obtain ⟨_, -, hrecorded, -⟩ := callBytes_stream (r := r.recorded) (s, []) calls
  refine ⟨?_, ?_, pieces, hlength, by rw [hrun], hheard⟩
  · rw [hrun]
    exact after_fed s _ (length_residue_lt (Nat.mul_pos Nat.two_pos r.channels_pos) _)
  · rw [hrecorded]
    exact after_recorded s _ _

theorem feeds_samples (s : r.State) {calls : List (List Int16 × List Int16)}
    (hcalls : ∀ call ∈ calls, r.channels ∣ call.1.length) :
    Feeds s call calls (calls.flatMap (·.1)) id := by
  obtain ⟨pieces, hlength, hrun, hheard⟩ := call_stream s hcalls
  obtain ⟨_, -, hrecorded, -⟩ := call_stream (r := r.recorded) (s, []) hcalls
  refine ⟨?_, ?_, pieces, hlength, by rw [hrun], hheard⟩
  · rw [hrun]
    exact after_fed s _ (Nat.mul_pos Nat.two_pos r.channels_pos)
  · rw [hrecorded]
    exact after_recorded s _ _

/-- A reset drops all that is held. -/
theorem reset_eq_fresh (h : f.staged.length = r.channels) : f.reset = fresh (r.reset f.state) := by
  rw [reset, fresh, List.map_const', h]

end Feeder

/-! ### Rate adapters -/

namespace RateAdapter

variable {R : Resampling} {c k : Nat} {hc : 0 < c} {hk : 0 < k}

/-- A resampler for so many channels as a machine that takes blocks of so many frames. Of a block that
it refuses nothing comes. -/
def machine (R : Resampling) {c k : Nat} (hc : 0 < c) (hk : 0 < k) : Resampler where
  State := R.State
  Input := Float32
  form := Pcm.widen
  channels := c
  block := k
  feed s columns := ((R.feed s columns).1, (R.feed s columns).2.toOption.getD [])
  reset := R.reset
  channels_pos := hc
  block_pos := hk

/-- An unfailing resampler of fixed blocks is drained as the machine. -/
theorem drain_machine (hR : R.Unfailing) (hF : R.Fixed) {a : RateAdapter R} {i o k : Nat}
    (hk : 0 < k) (hs : R.Stands i o k a.channels a.resampler) (out : List Int16) :
    a.drain out =
      ({ a with
          resampler := (machine R a.channels_pos hk).stateAfter a.resampler a.staged
          staged := residue (machine R a.channels_pos hk).blockSize a.staged },
        out ++ (machine R a.channels_pos hk).heard a.resampler a.staged, .ok ()) := by
  induction a using drain_induction generalizing out with
  | short a h =>
    have hlt : a.staged.length < (machine R a.channels_pos hk).blockSize := by
      rwa [blockSize, hF hs] at h
    obtain ⟨hstate, hheard⟩ :=
      Resampler.fed_of_lt (r := machine R a.channels_pos hk) a.resampler hlt
    rw [drain_of_lt h, residue_of_length_lt hlt, hstate, hheard, List.append_nil]
  | refused a resampler cause h hfeed =>
    obtain ⟨made, n, hmade, -⟩ := hR hs (columns_block h)
    rw [hfeed] at hmade
    cases hmade
  | fed a resampler made h hfeed ih =>
    have hnext := Resampling.Stands.feed hs (columns_block h)
    have hblock : a.blockSize = (machine R a.channels_pos hk).blockSize := by
      rw [blockSize, hF hs]
      rfl
    have hle : (machine R a.channels_pos hk).blockSize ≤ a.staged.length := hblock ▸ h
    have hcall : (machine R a.channels_pos hk).feed a.resampler
        ((machine R a.channels_pos hk).columnsOf
          (a.staged.take (machine R a.channels_pos hk).blockSize)) = (resampler, made) := by
      show ((R.feed _ _).1, (R.feed _ _).2.toOption.getD []) = _
      rw [← hblock]
      exact congrArg (fun fed => (fed.1, fed.2.toOption.getD [])) hfeed
    obtain ⟨hstate, hheard⟩ := Resampler.fed_of_le hle hcall
    rw [hfeed] at hnext
    rw [drain_fed h hfeed, ih hnext, hstate, hheard,
      residue_of_le_length (Resampler.blockSize_pos _) hle, hblock, List.append_assoc]

variable {a : RateAdapter R} {f : Feeder (machine R hc hk)} {i o : Nat}

/-- An adapter between two rates holds what a feeder of its resampler does; its staged frames are not on
their channels yet. -/
structure Shows (i o : Nat) (a : RateAdapter R) (f : Feeder (machine R hc hk)) : Prop where
  serves : a.Serves i o c
  chunk : a.chunk = k
  state : f.state = a.resampler
  staged : f.staged = (machine R hc hk).columnsOf a.staged
  whole : c ∣ a.staged.length
  carry : f.carry = a.carry

/-- A call goes alike, and is not refused. -/
theorem Shows.process (h : a.Shows i o f) (hR : R.Unfailing) (hF : R.Fixed)
    (input out : List Int16) :
    (a.process input).1.Shows i o (f.process input out).1 ∧
      (a.process input).2.2 = .ok () ∧
      (f.process input out).2 = (out ++ (a.process input).2.1, (a.process input).2.1.length) := by
  have hnext := h.serves.after_process input
  obtain ⟨hserves, rfl, hstate, hstaged, hwhole, hcarry⟩ := h
  obtain rfl := hserves.channels
  have hs : R.Stands i o a.chunk a.channels a.resampler := hserves.chunk ▸ hserves.stands
  obtain ⟨ys, hys⟩ : ∃ ys, a.staged ++ input.take (input.length / a.channels * a.channels) = ys :=
    ⟨_, rfl⟩
  have hmore : a.channels ∣ ys.length := by
    rw [← hys, List.length_append, List.length_take, Nat.min_eq_left (Nat.div_mul_le_self _ _)]
    exact Nat.dvd_add hwhole (Nat.dvd_mul_left _ _)
  have hprocess : a.process input = (a.restage ys).drain [] := by
    rw [process, hys]
    rfl
  have hdrain := drain_machine hR hF (a := a.restage ys) hk hs []
  rw [hprocess, hdrain] at hnext ⊢
  rw [Feeder.process_eq hstaged hwhole hys, hstate]
  exact ⟨⟨hnext, rfl, rfl, rfl, Feeder.dvd_length_residue (r := machine R hc hk) hmore, hcarry⟩,
    rfl, rfl⟩

theorem Shows.processBytes (h : a.Shows i o f) (hR : R.Unfailing) (hF : R.Fixed)
    (input out : List UInt8) :
    (a.processBytes input).1.Shows i o (f.processBytes input out).1 ∧
      ∃ made, (a.processBytes input).2 = .ok made ∧
        (f.processBytes input out).2 = (out ++ made, made.length) := by
  obtain ⟨hserves, rfl, hstate, hstaged, hwhole, hcarry⟩ := h
  obtain rfl := hserves.channels
  have hchannels : (machine R hc hk).channels = a.channels := rfl
  rw [Feeder.processBytes, RateAdapter.processBytes, hcarry, hchannels,
    ← Nat.div_mul_self_eq_mod_sub_self]
  dsimp only
  generalize a.carry ++ input = joined
  generalize joined.length / (2 * a.channels) * (2 * a.channels) = n
  have hshows : Shows i o { a with carry := joined.drop n }
      ({ f with carry := joined.drop n } : Feeder (machine R hc hk)) :=
    ⟨⟨hserves.inputRate, hserves.outputRate, rfl, hserves.chunk, hserves.stands, hserves.short⟩, rfl,
      hstate, hstaged, hwhole, rfl⟩
  obtain ⟨hafter, hok, hmade⟩ := hshows.process hR hF (Pcm.decode (joined.take n)) []
  refine ⟨hafter, _, by rw [hok]; rfl, ?_⟩
  refine (congrArg (fun made => (out ++ Pcm.encode made.1, 2 * made.2)) hmade).trans ?_
  rw [List.nil_append, Pcm.length_encode]

/-- A new adapter is a fresh feeder. -/
theorem Made.shows (h : a.Made i o c) (hk : 0 < a.chunk) :
    a.Shows i o (.fresh a.resampler : Feeder (machine R hc hk)) := by
  have hserves := h.serves
  obtain ⟨-, -, rfl, -, -, hstaged, hcarry⟩ := h
  refine ⟨hserves, rfl, rfl, ?_, hstaged ▸ Nat.dvd_zero _, hcarry.symm⟩
  rw [hstaged]
  exact Resampler.columnsOf_nil.symm

/-- Process a call's input onto the output that it comes with. -/
def call (a : RateAdapter R) (call : List Int16 × List Int16) :
    RateAdapter R × List Int16 × Except Error Nat :=
  let (a, made, result) := a.process call.1
  (a, call.2 ++ made, result.map fun () => made.length)

/-- Process a call's bytes onto the output that it comes with, unless a block is refused. -/
def callBytes (a : RateAdapter R) (call : List UInt8 × List UInt8) :
    RateAdapter R × List UInt8 × Except Error Nat :=
  let (a, made) := a.processBytes call.1
  (a, call.2 ++ made.toOption.getD [], made.map (·.length))

/-- An adapter answers calls as a feeder does, without a refusal. -/
structure Follows {α : Type} (i o : Nat) (a : RateAdapter R) (f : Feeder (machine R hc hk))
    (call : RateAdapter R → List α × List α → RateAdapter R × List α × Except Error Nat)
    (feed : Feeder (machine R hc hk) → List α × List α → Feeder (machine R hc hk) × List α × Nat)
    (calls : List (List α × List α)) : Prop where
  shows : (runAll call a calls).1.Shows i o (runAll feed f calls).1
  answers : (runAll call a calls).2 = (runAll feed f calls).2.map fun r => (r.1, .ok r.2)

theorem Shows.follows {α : Type}
    {call : RateAdapter R → List α × List α → RateAdapter R × List α × Except Error Nat}
    {feed : Feeder (machine R hc hk) → List α × List α → Feeder (machine R hc hk) × List α × Nat}
    (hstep : ∀ (a : RateAdapter R) (f : Feeder (machine R hc hk)) (input : List α × List α),
      a.Shows i o f → (call a input).1.Shows i o (feed f input).1 ∧
        (call a input).2 = ((feed f input).2.1, .ok (feed f input).2.2))
    (h : a.Shows i o f) (calls : List (List α × List α)) : a.Follows i o f call feed calls := by
  induction calls generalizing a f with
  | nil => exact ⟨h, rfl⟩
  | cons input calls ih =>
    obtain ⟨hnext, hanswer⟩ := hstep a f input h
    obtain ⟨hshows, hanswers⟩ := ih hnext
    exact ⟨hshows, by rw [runAll_cons, runAll_cons, hanswer, hanswers, List.map_cons]⟩

theorem Shows.call_step (hR : R.Unfailing) (hF : R.Fixed) (h : a.Shows i o f)
    (input : List Int16 × List Int16) :
    (a.call input).1.Shows i o (f.call input).1 ∧
      (a.call input).2 = ((f.call input).2.1, .ok (f.call input).2.2) := by
  obtain ⟨hnext, hok, hanswer⟩ := h.process hR hF input.1 input.2
  refine ⟨hnext, ?_⟩
  rw [Feeder.call, hanswer]
  show (_, (a.process input.1).2.2.map _) = _
  rw [hok]
  rfl

theorem Shows.callBytes_step (hR : R.Unfailing) (hF : R.Fixed) (h : a.Shows i o f)
    (input : List UInt8 × List UInt8) :
    (a.callBytes input).1.Shows i o (f.callBytes input).1 ∧
      (a.callBytes input).2 = ((f.callBytes input).2.1, .ok (f.callBytes input).2.2) := by
  obtain ⟨hnext, made, hmade, hanswer⟩ := h.processBytes hR hF input.1 input.2
  refine ⟨hnext, ?_⟩
  rw [Feeder.callBytes, hanswer]
  show (input.2 ++ (a.processBytes input.1).2.toOption.getD [], (a.processBytes input.1).2.map _) = _
  rw [hmade]
  rfl

/-- Whatever the resampler, and in whatever portions a stream comes to a feeder that holds nothing:
the resampler is handed the consecutive blocks of the columns of its whole frames, less than a block
is staged, equally much on each channel, less than a frame is carried, and the calls append, one
piece after another, the rounded and interleaved output for those blocks, and count what they
append. So it is with bytes in portions of any length, and with samples in portions of whole frames.
After a reset the feeder holds nothing. A new adapter is such a feeder of its resampler, if that
refuses no block and all of them are of one size, and is new after a reset that renews the resampler. -/
theorem feeds_consecutive_blocks :
    (∀ (r : Resampler) (s : r.State),
      (∀ calls : List (List UInt8 × List UInt8),
        Feeder.Feeds s Feeder.callBytes calls (r.samplesOf (calls.flatMap (·.1))) Pcm.encode) ∧
      (∀ calls : List (List Int16 × List Int16), (∀ call ∈ calls, r.channels ∣ call.1.length) →
        Feeder.Feeds s Feeder.call calls (calls.flatMap (·.1)) id) ∧
      ∀ f : Feeder r, f.staged.length = r.channels → f.reset = .fresh (r.reset f.state)) ∧
    ∀ (R : Resampling), R.Unfailing → R.Fixed →
      ∀ (inputRate outputRate channels : Nat) (a : RateAdapter R),
        (create inputRate outputRate channels).run = .ok (.ok a) →
        ∃ (hc : 0 < channels) (hk : 0 < a.chunk),
          (∀ calls, a.Follows inputRate outputRate (.fresh a.resampler : Feeder (machine R hc hk))
              callBytes Feeder.callBytes calls ∧
            (R.Renewed → (runAll callBytes a calls).1.reset = a)) ∧
          ∀ calls, a.Follows inputRate outputRate (.fresh a.resampler : Feeder (machine R hc hk))
              call Feeder.call calls ∧
            (R.Renewed → (runAll call a calls).1.reset = a) := by
  refine ⟨fun r s => ⟨Feeder.feeds_bytes s, fun calls => Feeder.feeds_samples s,
    fun f => Feeder.reset_eq_fresh⟩, ?_⟩
  intro R hR hF inputRate outputRate channels a hcreate
  have hmade := made_of_create hcreate
  have hk : 0 < a.chunk := by
    have hchunk := hmade.chunk
    omega
  have hc : 0 < channels := hmade.serves.channels_pos
  have hshows : a.Shows inputRate outputRate (.fresh a.resampler : Feeder (machine R hc hk)) :=
    hmade.shows hk
  have hnew {b : RateAdapter R} {f : Feeder (machine R hc hk)}
      (hb : b.Shows inputRate outputRate f) (hN : R.Renewed) : b.reset = a :=
    Except.ok.inj (Except.ok.inj ((hb.serves.renewed hN).symm.trans hcreate))
  refine ⟨hc, hk, fun calls => ?_, fun calls => ?_⟩
  · have hfollows := hshows.follows (fun a f input h => h.callBytes_step hR hF input) calls
    exact ⟨hfollows, hnew hfollows.shows⟩
  · have hfollows := hshows.follows (fun a f input h => h.call_step hR hF input) calls
    exact ⟨hfollows, hnew hfollows.shows⟩

/-- A stereo resampler that hands blocks of two frames back, and counts them. -/
abbrev loopback : Resampler where
  State := Nat
  Input := Int16
  form := id
  channels := 2
  block := 2
  feed n block := (n + 1, block.map (·.map Pcm.widen))
  reset _ := 0
  channels_pos := by decide
  block_pos := by decide

/-- Thirteen bytes, cut within a frame and within a sample, and the samples in them: a block is
handed on, a frame is staged and a byte is carried. -/
theorem feeds_consecutive_blocks_loopback :
    ∃ (calls : List (List UInt8 × List UInt8)) (more : List (List Int16 × List Int16))
      (pieces : List (List UInt8)),
      calls = [([1, 0, 2], [9]), ([0, 3, 0, 4, 0, 5, 0, 6, 0, 7], [])] ∧
      more = [([1, 2], [9]), ([3, 4, 5, 6], [])] ∧
      (runAll Feeder.callBytes (.fresh 0 : Feeder loopback) calls).1.Fed 0 [1, 2, 3, 4, 5, 6] ∧
      (runAll Feeder.callBytes (.fresh (0, []) : Feeder loopback.recorded) calls).1.state.2 =
        [[[1, 3], [2, 4]]] ∧
      pieces.length = 2 ∧
      (runAll Feeder.callBytes (.fresh 0 : Feeder loopback) calls).2 =
        List.zipWith (fun call piece => (call.2 ++ piece, piece.length)) calls pieces ∧
      pieces.flatten = Pcm.encode (render [[Pcm.widen 1, Pcm.widen 3], [Pcm.widen 2, Pcm.widen 4]]) ∧
      (∀ call ∈ more, loopback.channels ∣ call.1.length) ∧
      Feeder.Feeds (r := loopback) 0 Feeder.call more [1, 2, 3, 4, 5, 6] id ∧
      (Feeder.fresh 3 : Feeder loopback).reset = .fresh 0 ∧
      ∃ (a : RateAdapter Resample.spectral) (hc : 0 < 2) (hk : 0 < a.chunk),
        (create 8000 16000 2).run = .ok (.ok a) ∧
        a.Follows 8000 16000 (.fresh a.resampler : Feeder (machine Resample.spectral hc hk))
          callBytes Feeder.callBytes calls ∧
        (runAll callBytes a calls).1.reset = a := by
  let calls : List (List UInt8 × List UInt8) :=
    [([1, 0, 2], [9]), ([0, 3, 0, 4, 0, 5, 0, 6, 0, 7], [])]
  let more : List (List Int16 × List Int16) := [([1, 2], [9]), ([3, 4, 5, 6], [])]
  obtain ⟨hall, hcreated⟩ := feeds_consecutive_blocks
  obtain ⟨hbytes, hsamples, hreset⟩ := hall loopback (0 : Nat)
  have hdecoded : loopback.samplesOf (calls.flatMap (·.1)) = [1, 2, 3, 4, 5, 6] := by decide +kernel
  have hblocks : loopback.blocksOf [1, 2, 3, 4, 5, 6] = [[[1, 3], [2, 4]]] := by decide +kernel
  have hmore : ∀ call ∈ more, loopback.channels ∣ call.1.length := by decide
  have hfed := hbytes calls
  rw [hdecoded] at hfed
  obtain ⟨hstate, hhanded, pieces, hlength, hanswers, hpieces⟩ := hfed
  rw [Resampler.heard, hblocks] at hpieces
  obtain ⟨a, ha⟩ : ∃ a : RateAdapter Resample.spectral, (create 8000 16000 2).run = .ok (.ok a) :=
    ⟨_, rfl⟩
  obtain ⟨hc, hk, hfollows, -⟩ := hcreated _ Resample.spectral_unfailing Resample.spectral_fixed
    _ _ _ a ha
  obtain ⟨hfollows, hnew⟩ := hfollows calls
  exact ⟨calls, more, pieces, rfl, rfl, hstate, hhanded.trans hblocks, hlength, hanswers, hpieces, hmore,
    hsamples more hmore, hreset _ rfl, a, hc, hk, ha, hfollows, hnew Resample.spectral_renewed⟩

end RateAdapter

end Duplex
