import Duplex.Signal

/-!
# Layouts: mono and stereo streams

An interleaved stream carries one channel or two. `Layout.split` and `Layout.join` go between the
interleaved samples and one list per channel; `Layout.remap` maps a stream of one layout to the
other, where mono is doubled and stereo averaged. `splitStereo`, `mergeStereo` and `remapInto`
are the same on destinations of a given size, of which they write as much as all sizes allow and
leave the rest alone.
-/

namespace Duplex.Pcm

open Signal

variable {α : Type}

/-- How many channels a stream interleaves. -/
inductive Layout where
  | mono
  | stereo
  deriving DecidableEq, Repr

namespace Layout

/-- The number of channels. -/
def channels : Layout → Nat
  | mono => 1
  | stereo => 2

/-- The layout with the given number of channels, if there is one. -/
def ofChannels? : Nat → Option Layout
  | 1 => some mono
  | 2 => some stereo
  | _ => none

@[simp] theorem ofChannels?_channels (l : Layout) : ofChannels? l.channels = some l := by
  cases l <;> rfl

theorem channels_pos (l : Layout) : 0 < l.channels := by cases l <;> decide

theorem channels_le_two (l : Layout) : l.channels ≤ 2 := by cases l <;> decide

theorem channels_of_ofChannels? {n : Nat} {l : Layout} (h : ofChannels? n = some l) :
    l.channels = n := by
  match n, h with
  | 1, rfl => rfl
  | 2, rfl => rfl

theorem channels_injective {l m : Layout} (h : l.channels = m.channels) : l = m := by
  rw [← Option.some.injEq, ← ofChannels?_channels l, h, ofChannels?_channels]

/-- The samples of each channel; an incomplete last frame is dropped. -/
def split : Layout → List α → List (List α)
  | mono, xs => [xs]
  | stereo, xs => [(pairs xs).map (·.1), (pairs xs).map (·.2)]

/-- The interleaved samples of one or two channels, as far as all of them reach. -/
def join : List (List α) → List α
  | [only] => only
  | [left, right] => unpairs (left.zip right)
  | _ => []

/-- The mean of two samples, cut toward zero. -/
def mean (left right : Int16) : Int16 := Int16.ofInt ((left.toInt + right.toInt).tdiv 2)

/-- Map interleaved samples of one layout to another. -/
def remap : (source target : Layout) → List Int16 → List Int16
  | mono, stereo, xs => xs.flatMap fun s => [s, s]
  | stereo, mono, xs => (pairs xs).map fun p => mean p.1 p.2
  | mono, mono, xs => xs
  | stereo, stereo, xs => xs

/-- How many samples `remapInto` writes, given the sizes of source and destination. -/
def remapCount : (source target : Layout) → (length room : Nat) → Nat
  | mono, stereo, length, room => 2 * min length (room / 2)
  | stereo, mono, length, room => min (length / 2) room
  | mono, mono, length, room => min length room
  | stereo, stereo, length, room => min length room

end Layout

/-- Separate the frames of a stereo stream into two destinations and count the frames. -/
def splitStereo (src left right : List α) : Nat × List α × List α :=
  let frames := min (src.length / 2) (min left.length right.length)
  let chosen := (pairs src).take frames
  (frames, overlay left 0 (chosen.map (·.1)), overlay right 0 (chosen.map (·.2)))

/-- Interleave two channels into a destination and count the samples. -/
def mergeStereo (left right dest : List α) : Nat × List α :=
  let frames := min (min left.length right.length) (dest.length / 2)
  (2 * frames, overlay dest 0 (unpairs ((left.zip right).take frames)))

/-- Map between channel counts into a destination and count the samples written. Only one and two
channels are supported. -/
def remapInto (src : List Int16) (source target : Nat) (dest : List Int16) :
    Checked (Nat × List Int16) :=
  match Layout.ofChannels? source, Layout.ofChannels? target with
  | some s, some t =>
    let n := s.remapCount t src.length dest.length
    .ok (n, overlay dest 0 ((s.remap t src).take n))
  | _, _ => .error (.unsupportedRemap source target)

end Duplex.Pcm
