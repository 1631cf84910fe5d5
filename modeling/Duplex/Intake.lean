import Duplex.ByteRing
import Duplex.Error
import Duplex.Notice

/-!
# Intakes: incoming audio of one direction, queued at the processing format

An intake turns bytes of a stream's own format into bytes of the processing format: it decodes the
whole frames, maps their channels and, where the rates differ, resamples them. The result is queued
in a ring, of which whole frames only are dropped when it is full. Bytes of an incomplete frame wait
for the next push.
-/

namespace Duplex

open Pcm (Layout)

variable {R : Resampling}

/-- An adapter between two rates, or none where they are equal. -/
def adapterBetween (inputRate outputRate channels : Nat) :
    Attempt RateAdapter.Error (Option (RateAdapter R)) :=
  if inputRate = outputRate then pure none
  else some <$> RateAdapter.create inputRate outputRate channels

/-- What is reported of an adapter, if there is one. -/
def adapterNotices (adapter : Option (RateAdapter R)) : List Notice :=
  adapter.toList.map fun a => .adapterCreated a.inputRate a.outputRate a.channels a.chunk

structure Intake (R : Resampling) where
  format : StreamFormat
  /-- The processing rate. -/
  rate : Nat
  /-- The processing layout. -/
  layout : Layout
  adapter : Option (RateAdapter R)
  ring : ByteRing
  /-- Bytes short of a frame of the stream's own format. -/
  carry : List UInt8

namespace Intake

/-- An intake with an empty ring. -/
def create (format : StreamFormat) (rate : Nat) (layout : Layout) (ring : ByteRing) :
    Attempt RateAdapter.Error (Intake R) := do
  let adapter ← adapterBetween format.rate rate layout.channels
  return { format, rate, layout, adapter, ring, carry := [] }

/-- Drop everything that is queued or on its way. -/
def flush (i : Intake R) : Intake R :=
  { i with ring := i.ring.flush, carry := [], adapter := i.adapter.map (·.reset) }

/-- Take a stream of another format from now on, and drop what is queued. -/
def setFormat (i : Intake R) (format : StreamFormat) : Attempt RateAdapter.Error (Intake R) := do
  let adapter ← adapterBetween format.rate i.rate i.layout.channels
  return { i with format, adapter }.flush

/-- Map and resample samples of whole frames. -/
def convert (i : Intake R) (samples : List Int16) :
    Intake R × List Int16 × Except RateAdapter.Error Unit :=
  let mapped := i.format.layout.remap i.layout samples
  match i.adapter with
  | none => (i, mapped, .ok ())
  | some a =>
    let (a, out, result) := a.process mapped
    ({ i with adapter := some a }, out, result)

/-- Queue as many whole frames of bytes in the processing format as fit, and count the bytes that
do not. -/
def enqueue (i : Intake R) (bytes : List UInt8) : Intake R × Nat :=
  let frame := i.layout.channels * 2
  let room := i.ring.free / frame * frame
  let (written, ring) := i.ring.write (bytes.take room)
  ({ i with ring }, bytes.length - written)

/-- Convert and queue bytes, and count the converted bytes that do not fit. Nothing is queued if the
resampler fails. -/
def push (i : Intake R) (bytes : List UInt8) : Intake R × Except RateAdapter.Error Nat :=
  let carry := i.carry ++ bytes
  let frame := i.format.channels * 2
  let whole := carry.length / frame * frame
  let (i, samples, result) :=
    { i with carry := carry.drop whole }.convert (Pcm.decode (carry.take whole))
  match result with
  | .error e => (i, .error e)
  | .ok () =>
    let (i, dropped) := i.enqueue (Pcm.encode samples)
    (i, .ok dropped)

/-- The number of queued bytes. -/
def avail (i : Intake R) : Nat := i.ring.avail

/-- Take up to `n` queued bytes. -/
def read (i : Intake R) (n : Nat) : Intake R × List UInt8 :=
  let (count, bytes, ring) := i.ring.read (List.replicate n 0)
  ({ i with ring }, bytes.take count)

end Intake

end Duplex
