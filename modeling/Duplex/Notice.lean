import Duplex.Engine.Basic

/-!
# Notices: what a session reports about itself

A `Notice` is a fact worth telling the operator. `Notice.level`, `Notice.message` and
`Notice.fields` give its severity, its wording and its details; `Notice.line` puts them into one
line.
-/

namespace Duplex

/-- How serious a notice is. -/
inductive Severity where
  | debug
  | info
  | warn
  deriving DecidableEq, Repr

def Severity.label : Severity → String
  | .debug => "DEBUG"
  | .info => "INFO"
  | .warn => "WARN"

/-- The far side or the near side of the conversation. -/
inductive Direction where
  | farend
  | nearend
  deriving DecidableEq, Repr

def Direction.label : Direction → String
  | .farend => "farend"
  | .nearend => "nearend"

inductive Notice where
  | initialized (channels nearRate farRate processingRate frames bands : Nat)
  | reset (healthy : PerStage Bool)
  | finalized
  | readiness (direction : Direction) (ready : Bool)
  | stageRequested (stage : Stage) (enabled : Bool)
  | formatChanged (direction : Direction) (rate channels : Nat)
  | audioDropped (direction : Direction) (bytes : Nat)
  | farendUnderrun (missing : Nat)
  | adapterCreated (inputRate outputRate channels chunk : Nat)
  | setupFailed (stage : Stage) (error : Engine.Error)
  | settingsRejected (error : Engine.Error)
  | addMicFailed (channel : Nat) (error : Engine.Error)
  | saturation (channel : Nat)
  | stageFailed (stage : Stage) (channel : Nat) (error : Engine.Error)
  deriving DecidableEq, Repr

namespace Notice

def level : Notice → Severity
  | readiness .. | farendUnderrun _ | adapterCreated .. | saturation _ => .debug
  | initialized .. | reset _ | finalized | stageRequested .. | formatChanged .. => .info
  | audioDropped .. | setupFailed .. | settingsRejected _ | addMicFailed .. | stageFailed .. =>
    .warn

def message : Notice → String
  | initialized .. => "pipeline initialized"
  | reset _ => "pipeline reset"
  | finalized => "pipeline finalized"
  | readiness d _ => d.label ++ " readiness changed"
  | stageRequested .. => "stage enable requested"
  | formatChanged d _ _ => d.label ++ " format changed"
  | audioDropped d _ => d.label ++ " ring full, audio dropped"
  | farendUnderrun _ => "farend underrun, padding with silence"
  | adapterCreated .. => "rate adapter created"
  | setupFailed .. => "engine setup failed, stage disabled"
  | settingsRejected _ => "echo canceller rejected configuration, stage disabled"
  | addMicFailed .. => "gain control add_mic failed"
  | saturation _ => "gain control reported saturation"
  | stageFailed .gain .. => "gain control failed, passing frame through"
  | stageFailed .noise .. => "noise suppression failed, passing frame through"
  | stageFailed .echo .. => "echo cancellation failed, passing nearend through"

private def number (name : String) (n : Nat) : String × String := (name, toString n)

private def truth (name : String) (b : Bool) : String × String := (name, toString b)

/-- The details by name, in their order. -/
def fields : Notice → List (String × String)
  | initialized channels nearRate farRate processingRate frames bands =>
    [number "channels" channels, number "nearend_rate_hz" nearRate,
      number "farend_rate_hz" farRate, number "processing_rate_hz" processingRate,
      number "num_frames" frames, number "num_bands" bands]
  | reset healthy =>
    [truth "aec" healthy.echo, truth "ns" healthy.noise, truth "agc" healthy.gain]
  | finalized => []
  | readiness _ ready => [truth "ready" ready]
  | stageRequested stage enabled => [("stage", stage.label), truth "enabled" enabled]
  | formatChanged _ rate channels => [number "sample_rate_hz" rate, number "channels" channels]
  | audioDropped _ bytes => [number "dropped" bytes]
  | farendUnderrun missing => [number "missing" missing]
  | adapterCreated inputRate outputRate channels chunk =>
    [number "input_rate" inputRate, number "output_rate" outputRate, number "channels" channels,
      number "chunk" chunk]
  | setupFailed stage error => [("stage", stage.label), ("error", error.message)]
  | settingsRejected error => [("error", error.message)]
  | addMicFailed channel error | stageFailed _ channel error =>
    [number "channel" channel, ("error", error.message)]
  | saturation channel => [number "channel" channel]

/-- The notice as a line of text. -/
def line (n : Notice) : String :=
  " ".intercalate
    ((n.level.label ++ " " ++ n.message ++ ":") ::
      n.fields.map fun (name, value) => name ++ "=" ++ value)

end Notice

end Duplex
