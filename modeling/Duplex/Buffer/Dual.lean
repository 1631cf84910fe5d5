import Duplex.Buffer.Channel
import Duplex.Pcm.Sample

/-!
# Dual buffers: one content as integers and as floats

A `DualBuffer` keeps an integer and a float copy of the same audio and converts on demand. At
least one copy is always fresh. `ints` and `floats` read the content in either form; a read in the
stale form is converted, and `syncInts` and `syncFloats` keep the conversion. Claiming a form for
writing makes the other one stale. `Sample` is the form that a given piece of code works in.
-/

namespace Duplex

/-- Which copies of a dual buffer hold its content. -/
inductive Freshness where
  | both
  | intsOnly
  | floatsOnly
  deriving DecidableEq, Repr

/-- The same audio as integers and as floats. -/
structure DualBuffer where
  intCopy : ChannelBuffer Int16
  floatCopy : ChannelBuffer Float32
  fresh : Freshness

namespace DualBuffer

/-- A silent buffer of any shape that has bands and channels, divides evenly and can be stored. -/
def create (frames channels bands : Nat) : Checked DualBuffer := do
  let intCopy ← ChannelBuffer.create frames channels bands
  let floatCopy ← ChannelBuffer.create frames channels bands
  return { intCopy, floatCopy, fresh := .both }

/-- The content as integers: floats are rounded. -/
def ints (b : DualBuffer) : ChannelBuffer Int16 :=
  match b.fresh with
  | .floatsOnly => b.intCopy.writeData 0 (b.floatCopy.data.map Pcm.round)
  | _ => b.intCopy

/-- The content as floats. -/
def floats (b : DualBuffer) : ChannelBuffer Float32 :=
  match b.fresh with
  | .intsOnly => b.floatCopy.writeData 0 (b.intCopy.data.map Pcm.widen)
  | _ => b.floatCopy

/-- Freshen the integer copy. -/
def syncInts (b : DualBuffer) : DualBuffer :=
  match b.fresh with
  | .floatsOnly => { b with intCopy := b.ints, fresh := .both }
  | _ => b

/-- Freshen the float copy. -/
def syncFloats (b : DualBuffer) : DualBuffer :=
  match b.fresh with
  | .intsOnly => { b with floatCopy := b.floats, fresh := .both }
  | _ => b

/-- Claim the integer copy for writing. -/
def claimInts (b : DualBuffer) : DualBuffer := { b.syncInts with fresh := .intsOnly }

/-- Claim the float copy for writing. -/
def claimFloats (b : DualBuffer) : DualBuffer := { b.syncFloats with fresh := .floatsOnly }

end DualBuffer

/-- The form, integer or float, that a piece of code reads and writes audio in. -/
class Sample (S : Type) where
  /-- The content of a buffer in this form. -/
  read : DualBuffer → ChannelBuffer S
  /-- Freshen the copy of this form. -/
  sync : DualBuffer → DualBuffer
  /-- Claim the copy of this form for writing. -/
  claim : DualBuffer → DualBuffer
  /-- Replace the copy of this form. -/
  store : DualBuffer → ChannelBuffer S → DualBuffer

instance : Sample Int16 where
  read := DualBuffer.ints
  sync := DualBuffer.syncInts
  claim := DualBuffer.claimInts
  store b intCopy := { b with intCopy }

instance : Sample Float32 where
  read := DualBuffer.floats
  sync := DualBuffer.syncFloats
  claim := DualBuffer.claimFloats
  store b floatCopy := { b with floatCopy }

namespace DualBuffer

variable {S : Type} [Sample S]

/-- Claim the copy of one form for writing and change it. -/
def modify (b : DualBuffer) (f : ChannelBuffer S → Checked (ChannelBuffer S)) :
    Checked DualBuffer :=
  let b := Sample.claim S b
  (f (Sample.read b)).map (Sample.store b)

/-- Claim the copy of one form for writing and write over it from index `start` on. -/
def write (b : DualBuffer) (start : Nat) (src : List S) : DualBuffer :=
  let b := Sample.claim S b
  Sample.store b ((Sample.read b : ChannelBuffer S).writeData start src)

end DualBuffer

end Duplex
