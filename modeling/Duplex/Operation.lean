import Duplex.Context

/-!
# Operations: runs of calls on a context

An `Operation` is one call on a context together with what it is given, and an `Answer` what the
caller gets back. `Context.run` makes calls in order and keeps the transcript of both. From a
transcript one reads off the bytes of either direction that were taken in and the bytes that were
handed out.
-/

namespace Duplex

/-- A call on a context. -/
inductive Operation where
  | init (channels nearRate farRate delay : Nat)
  | fini
  | retain
  | release
  | reset
  | setFarendReady (ready : Bool)
  | setNearendReady (ready : Bool)
  | setStageEnabled (stage : Stage) (enabled : Bool)
  | setFarendInfo (rate channels : Nat)
  | setNearendInfo (rate channels : Nat)
  | setDelay (delay : Nat)
  | setEchoSettings (settings : EchoSettings)
  | flush
  | pushFarend (bytes : List UInt8)
  | pushNearend (bytes : List UInt8)
  | process (farend : Option (List Int16)) (nearend out : List Int16)
  | tryProcess (dest : List UInt8)
  deriving DecidableEq

/-- What a call answers. -/
inductive Answer where
  /-- Nothing: the call cannot be refused. -/
  | done
  | status (result : Except Error InitStatus)
  | outcome (result : Except Error Unit)
  /-- How many references are held. -/
  | references (count : Nat)
  /-- How many bytes were taken. -/
  | taken (result : Except Error Nat)
  /-- The samples of the destination, and how many of them were written. -/
  | samples (out : List Int16) (result : Except Error Nat)
  /-- The bytes of the destination, and how many of them were written. -/
  | bytes (dest : List UInt8) (result : Except Error Nat)

/-- The calls that were made, each with its answer. -/
abbrev Transcript := List (Operation × Answer)

namespace Context

variable {S : Type} {F : Engine.Family} [Sample S] (engines : Engines S F)

/-- Make one call. -/
def apply (c : Context S F) : Operation → Checked (Context S F × Answer)
  | .init channels nearRate farRate delay =>
    (c.init engines channels nearRate farRate delay).map fun (c, r) => (c, .status r)
  | .fini => .ok (c.fini, .done)
  | .retain => let (c, n) := c.retain; .ok (c, .references n)
  | .release => let (c, n) := c.release; .ok (c, .references n)
  | .reset => let (c, r) := c.reset engines; .ok (c, .outcome r)
  | .setFarendReady ready => .ok (c.setFarendReady ready, .done)
  | .setNearendReady ready => .ok (c.setNearendReady ready, .done)
  | .setStageEnabled stage enabled => .ok (c.setStageEnabled stage enabled, .done)
  | .setFarendInfo rate channels =>
    (c.setFarendInfo engines rate channels).map fun (c, r) => (c, .outcome r)
  | .setNearendInfo rate channels =>
    (c.setNearendInfo engines rate channels).map fun (c, r) => (c, .outcome r)
  | .setDelay delay => let (c, r) := c.setDelay delay; .ok (c, .outcome r)
  | .setEchoSettings settings => .ok (c.setEchoSettings engines settings, .done)
  | .flush => .ok (c.flush, .done)
  | .pushFarend bytes => let (c, r) := c.pushFarend bytes; .ok (c, .taken r)
  | .pushNearend bytes => let (c, r) := c.pushNearend bytes; .ok (c, .taken r)
  | .process farend nearend out =>
    (c.process engines farend nearend out).map fun (c, out, r) => (c, .samples out r)
  | .tryProcess dest => (c.tryProcess engines dest).map fun (c, dest, r) => (c, .bytes dest r)

/-- Make calls in order; a fault ends the run without a result. -/
def run (c : Context S F) : List Operation → Checked (Context S F × Transcript)
  | [] => .ok (c, [])
  | op :: ops => do
    let (c, answer) ← c.apply engines op
    let (c, rest) ← c.run ops
    return (c, (op, answer) :: rest)

end Context

namespace Transcript

/-- The bytes of one direction that were taken in. -/
def taken (d : Direction) (t : Transcript) : List UInt8 :=
  t.flatMap fun
    | (.pushFarend bytes, .taken (.ok n)) => if d = .farend then bytes.take n else []
    | (.pushNearend bytes, .taken (.ok n)) => if d = .nearend then bytes.take n else []
    | _ => []

/-- The bytes that were handed out. -/
def heard (t : Transcript) : List UInt8 :=
  t.flatMap fun
    | (.tryProcess _, .bytes dest (.ok n)) => dest.take n
    | _ => []

end Transcript

end Duplex
