import Duplex.Fault
import Duplex.StreamFormat

/-!
# Resamplings: what rate adapters ask of resamplers

A rate adapter computes no sample of the new rate itself. It hands blocks of its input to a
resampler, which is a state machine from outside: each call takes its state and answers with its next
state and an outcome. `Resampling` holds the calls of one kind of resamplers, as `Engines` holds those
of engines. Of what they do it has no more than that calls come to an end: a resampler asks for at
least a frame, so that staged input runs out, and building one gives an answer at the rates of streams.
All else that is assumed of resamplers is a law, named by the theorems that need it: `Unfailing`,
`Fixed`, `Renewed`, `Roomy`, `Proportional`, `RefusesZeroRates` and `FewerChannels` speak of the states
that a resampler can stand in (`Stands`) and of how it is built.
-/

namespace Duplex

/-- The calls of one kind of resamplers. -/
structure Resampling where
  State : Type
  /-- A resampler between two rates, for chunks of so many frames and for so many channels, or the
  reason why there is none. -/
  build (inputRate outputRate chunk channels : Nat) : Attempt String State
  /-- How many frames the next block has. -/
  needed : State → Nat
  /-- The most frames of output that a block makes. -/
  room : State → Nat
  /-- How many output frames the filter lags behind. -/
  outputDelay : State → Nat
  /-- Take a block, a column for each channel, and answer with the columns of output that it
  completes, or the reason why it cannot be taken. -/
  feed : State → List (List Float32) → State × Except String (List (List Float32))
  /-- Take columns that are short of a block as a block that is filled up with silence. -/
  finish : State → List (List Float32) → State × Except String (List (List Float32))
  reset : State → State
  /-- A resampler asks for at least a frame. -/
  needed_pos : ∀ s, 0 < needed s
  /-- From the rate of a stream, and for chunks of 10 ms at least, there is a resampler, or the reason
  why there is none. -/
  build_answers : ∀ {inputRate outputRate chunk channels : Nat}, minSampleRate ≤ inputRate →
    inputRate / 100 ≤ chunk → channels ≤ 2 →
      ∃ made, (build inputRate outputRate chunk channels).run = .ok made

/-- Columns of one height, one for each channel. -/
structure Columns (channels height : Nat) (columns : List (List Float32)) : Prop where
  channels : columns.length = channels
  height : ∀ column ∈ columns, column.length = height

namespace Resampling

variable (R : Resampling)

/-- The states that a resampler can stand in which was built for such rates, chunks and channels and is
given blocks, last blocks and resets. -/
inductive Stands (inputRate outputRate chunk channels : Nat) : R.State → Prop
  | build {s : R.State} (h : (R.build inputRate outputRate chunk channels).run = .ok (.ok s)) :
    Stands inputRate outputRate chunk channels s
  | feed {s : R.State} {block : List (List Float32)}
    (hs : Stands inputRate outputRate chunk channels s) (h : Columns channels (R.needed s) block) :
    Stands inputRate outputRate chunk channels (R.feed s block).1
  | finish {s : R.State} {k : Nat} {columns : List (List Float32)}
    (hs : Stands inputRate outputRate chunk channels s) (h : Columns channels k columns) :
    Stands inputRate outputRate chunk channels (R.finish s columns).1
  | reset {s : R.State} (hs : Stands inputRate outputRate chunk channels s) :
    Stands inputRate outputRate chunk channels (R.reset s)

/-- No block is refused, and the output has a column for each channel. -/
def Unfailing : Prop :=
  ∀ {i o chunk channels : Nat} {s : R.State} {block : List (List Float32)},
    R.Stands i o chunk channels s → Columns channels (R.needed s) block →
      ∃ made n, (R.feed s block).2 = .ok made ∧ Columns channels n made

/-- Every block has the size of the chunks that the resampler was built for. -/
def Fixed : Prop :=
  ∀ {i o chunk channels : Nat} {s : R.State}, R.Stands i o chunk channels s → R.needed s = chunk

/-- A reset leaves the resampler as it was built. -/
def Renewed : Prop :=
  ∀ {i o chunk channels : Nat} {s : R.State}, R.Stands i o chunk channels s →
    (R.build i o chunk channels).run = .ok (.ok (R.reset s))

/-- The output of a block fits into the room that the resampler told of when it was built. -/
structure Roomy : Prop where
  feed : ∀ {i o chunk channels : Nat} {s₀ s : R.State} {block made : List (List Float32)},
    (R.build i o chunk channels).run = .ok (.ok s₀) → R.Stands i o chunk channels s →
      Columns channels (R.needed s) block → (R.feed s block).2 = .ok made →
        ∃ n ≤ R.room s₀, Columns channels n made
  finish : ∀ {i o chunk channels k : Nat} {s₀ s : R.State} {columns made : List (List Float32)},
    (R.build i o chunk channels).run = .ok (.ok s₀) → R.Stands i o chunk channels s →
      Columns channels k columns → (R.finish s columns).2 = .ok made →
        ∃ n ≤ R.room s₀, Columns channels n made

/-- Input is gathered: out of every `gatheredIn` frames that were fed come `madeOut` frames, and `kept`
frames wait for others. -/
structure Gathers (i o channels gatheredIn madeOut : Nat) (kept : R.State → Nat) : Prop where
  gatheredIn_pos : 0 < gatheredIn
  /-- The frames are in the ratio of the rates. -/
  ratio : madeOut * i = gatheredIn * o
  /-- Between rates in whole frames per 10 ms, no more than 10 ms are gathered. -/
  gatheredIn_le : 100 ∣ i → 100 ∣ o → gatheredIn ≤ max (i / 100) 1
  build : ∀ {s : R.State},
    (R.build i o (max (i / 100) 1) channels).run = .ok (.ok s) → kept s = 0
  feed : ∀ {s : R.State} {block made : List (List Float32)},
    R.Stands i o (max (i / 100) 1) channels s → Columns channels (R.needed s) block →
      (R.feed s block).2 = .ok made →
        kept (R.feed s block).1 = (kept s + R.needed s) % gatheredIn ∧
          Columns channels ((kept s + R.needed s) / gatheredIn * madeOut) made

/-- Whatever resampler of 10 ms chunks was built gathers its input. -/
def Proportional : Prop :=
  ∀ {i o channels : Nat} {s : R.State}, 0 < channels →
    (R.build i o (max (i / 100) 1) channels).run = .ok (.ok s) →
      ∃ gatheredIn madeOut kept, R.Gathers i o channels gatheredIn madeOut kept

/-- There is no resampler just where a rate is zero. -/
def RefusesZeroRates : Prop :=
  ∀ {i o chunk channels : Nat} {made : Except String R.State}, 0 < channels →
    (R.build i o chunk channels).run = .ok made →
      ((∃ cause, made = .error cause) ↔ i = 0 ∨ o = 0)

/-- Where there is a resampler for some channels, there is one for fewer. -/
def FewerChannels : Prop :=
  ∀ {i o chunk channels fewer : Nat} {s : R.State}, 0 < fewer → fewer ≤ channels →
    (R.build i o chunk channels).run = .ok (.ok s) →
      ∃ s', (R.build i o chunk fewer).run = .ok (.ok s')

end Resampling

end Duplex
