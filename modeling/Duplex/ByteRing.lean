import Duplex.Region
import Duplex.Signal

/-!
# Byte rings: a bounded first-in first-out queue in a fixed region

The size of the region, the ring's capacity, is a power of two of at least two bytes. One slot
always stays free, so that an empty ring differs from a full one: a region of `n` bytes queues up to
`n - 1`. `ByteRing.toList` is the queue that a ring holds. `write` appends what fits and drops the
rest; `consume` hands the queued bytes out in contiguous runs, of which there is a second one past
the end of the region, and goes on as long as its callback takes some.
-/

namespace Duplex

open Signal

/-- A region of `capacity` bytes with a read and a write cursor, both inside it. -/
structure ByteRing where
  region : Region
  capacity : Nat
  readPos : Nat
  writePos : Nat
  two_le_capacity : 2 ≤ capacity
  isPowerOfTwo_capacity : capacity.isPowerOfTwo
  readPos_lt : readPos < capacity
  writePos_lt : writePos < capacity

namespace ByteRing

/-- Why a ring could not be made. -/
inductive Error where
  /-- The size is below two or no power of two. -/
  | invalidSize (size : Nat)
  /-- There is no memory of that size. -/
  | allocation (size : Nat)
  deriving DecidableEq, Repr

def Error.message : Error → String
  | .invalidSize size => s!"ring buffer size {size} is not a power of two"
  | .allocation size => s!"failed to allocate {size} bytes for ring buffer"

/-- A new region of 32 GiB, or a larger one, cannot be had. -/
def allocationLimit : Nat := 0x800000000

/-- An empty ring over the first `size` bytes of a region. -/
def wrap (region : Region) (size : Nat) : Except Error ByteRing :=
  if h : 2 ≤ size ∧ size.isPowerOfTwo then
    .ok { region, capacity := size, readPos := 0, writePos := 0, two_le_capacity := h.1,
          isPowerOfTwo_capacity := h.2, readPos_lt := by omega, writePos_lt := by omega }
  else
    .error (.invalidSize size)

/-- An empty ring in the given region. -/
def ofRegion (slots : Array UInt8) : Except Error ByteRing := wrap ⟨slots⟩ slots.size

/-- An empty ring in a new region of `size` bytes. -/
def ofCapacity (size : Nat) : Except Error ByteRing := do
  let ring ← wrap .zeros size
  if allocationLimit ≤ size then
    throw (.allocation size)
  return ring

theorem capacity_pos (ring : ByteRing) : 0 < ring.capacity := by
  have := ring.two_le_capacity
  omega

/-- The number of queued bytes. -/
def avail (ring : ByteRing) : Nat :=
  (ring.writePos + ring.capacity - ring.readPos) % ring.capacity

/-- The number of bytes that still fit. -/
def free (ring : ByteRing) : Nat := ring.capacity - ring.avail - 1

def isEmpty (ring : ByteRing) : Bool := ring.readPos == ring.writePos

def isFull (ring : ByteRing) : Bool := ring.free == 0

/-- The queue: the bytes from the read cursor up to the write cursor, around the end. -/
def toList (ring : ByteRing) : List UInt8 :=
  (List.range ring.avail).map fun i => ring.region.get ((ring.readPos + i) % ring.capacity)

/-- Drop all queued bytes. -/
def flush (ring : ByteRing) : ByteRing :=
  { ring with readPos := ring.writePos, readPos_lt := ring.writePos_lt }

/-- Store bytes from slot `pos` on, going round after `capacity` slots. -/
def store (capacity : Nat) (region : Region) (pos : Nat) : List UInt8 → Region
  | [] => region
  | b :: rest => store capacity (region.set (pos % capacity) b) (pos + 1) rest

/-- Queue as many of the bytes as fit and count them. -/
def write (ring : ByteRing) (src : List UInt8) : Nat × ByteRing :=
  let n := min src.length ring.free
  (n, { ring with
        region := store ring.capacity ring.region ring.writePos (src.take n)
        writePos := (ring.writePos + n) % ring.capacity
        writePos_lt := Nat.mod_lt _ ring.capacity_pos })

/-- Move the read cursor on by `n` bytes. -/
def skip (ring : ByteRing) (n : Nat) : ByteRing :=
  { ring with
    readPos := (ring.readPos + n) % ring.capacity
    readPos_lt := Nat.mod_lt _ ring.capacity_pos }

/-! ### Draining -/

/-- What a callback answers to a run of queued bytes and the part of the destination beside it:
the new contents of that part, how many bytes of the run it took, and what it remembers. -/
structure Taken (σ : Type) where
  window : List UInt8
  count : Nat
  state : σ

/-- What is left of ring, destination and callback after a drain that took `count` bytes. -/
structure Drained (σ : Type) where
  ring : ByteRing
  dest : List UInt8
  count : Nat
  state : σ

/-- Hand out runs until `remaining` bytes are taken or a callback takes none. A run ends at the
end of the region, and no callback takes more than its run. -/
def consumeFrom {σ : Type} (take : σ → List UInt8 → List UInt8 → Taken σ) (ring : ByteRing)
    (dest : List UInt8) (copied remaining : Nat) (state : σ) : Drained σ :=
  if hr : remaining = 0 then
    { ring, dest, count := copied, state }
  else
    let run := min remaining (ring.capacity - ring.readPos)
    let src := ring.region.slice ring.readPos run
    let taken := take state src ((dest.drop copied).take run)
    let dest := overlay dest copied (taken.window.take run)
    let consumed := min taken.count run
    if hc : consumed = 0 then
      { ring, dest, count := copied, state := taken.state }
    else
      have : remaining - consumed < remaining :=
        Nat.sub_lt (Nat.pos_of_ne_zero hr) (Nat.pos_of_ne_zero hc)
      consumeFrom take (ring.skip consumed) dest (copied + consumed) (remaining - consumed)
        taken.state
termination_by remaining
decreasing_by assumption

/-- Drain up to `len` bytes, and no more than are queued or `dest` holds, through a callback. -/
def consume {σ : Type} (ring : ByteRing) (dest : List UInt8) (len : Nat)
    (take : σ → List UInt8 → List UInt8 → Taken σ) (state : σ) : Drained σ :=
  consumeFrom take ring dest 0 (min (min len ring.avail) dest.length) state

/-- Move as many bytes into `dest` as it holds or are queued. -/
def read (ring : ByteRing) (dest : List UInt8) : Nat × List UInt8 × ByteRing :=
  let drained := ring.consume dest dest.length
    (fun _ src _ => { window := src, count := src.length, state := () }) ()
  (drained.count, drained.dest, drained.ring)

end ByteRing

end Duplex
