import Duplex.Signal

/-!
# PCM bytes: samples as little-endian byte pairs

`encode` writes each sample as its low byte and then its high byte; `decode` reads the pairs back
and ignores an odd last byte. `decodeInto` is `decode` bounded by the room of a destination.
-/

namespace Duplex.Pcm

open Signal

/-- The two bytes of a sample, the low one first. -/
def sampleBytes (v : Int16) : List UInt8 :=
  let n := v.toUInt16.toNat
  [UInt8.ofNat (n % 256), UInt8.ofNat (n / 256)]

/-- The sample with the given low and high byte. -/
def sampleOfBytes (low high : UInt8) : Int16 :=
  (UInt16.ofNat (low.toNat + 256 * high.toNat)).toInt16

/-- The bytes of the samples in order. -/
def encode (samples : List Int16) : List UInt8 := samples.flatMap sampleBytes

/-- The samples of the whole byte pairs; an odd last byte is ignored. -/
def decode (bytes : List UInt8) : List Int16 :=
  (pairs bytes).map fun p => sampleOfBytes p.1 p.2

/-- Decode into the start of `dest`, as far as it reaches, and count the samples decoded. -/
def decodeInto (bytes : List UInt8) (dest : List Int16) : Nat × List Int16 :=
  (min (bytes.length / 2) dest.length, overlay dest 0 (decode bytes))

@[simp] theorem encode_nil : encode [] = [] := rfl

@[simp] theorem encode_cons (v : Int16) (vs : List Int16) :
    encode (v :: vs) = sampleBytes v ++ encode vs := rfl

@[simp] theorem encode_append (xs ys : List Int16) : encode (xs ++ ys) = encode xs ++ encode ys := by
  simp [encode]

@[simp] theorem length_encode (xs : List Int16) : (encode xs).length = 2 * xs.length := by
  induction xs with
  | nil => rfl
  | cons v vs ih => simp [sampleBytes, ih]; omega

@[simp] theorem decode_nil : decode [] = [] := rfl

@[simp] theorem decode_cons_cons (low high : UInt8) (rest : List UInt8) :
    decode (low :: high :: rest) = sampleOfBytes low high :: decode rest := by
  simp [decode]

end Duplex.Pcm
