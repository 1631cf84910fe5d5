import Duplex.Engine.Basic
import Duplex.Resample.Bank

/-!
# Bypass engines

Engines that never fail and copy their input bands to their output.
-/

namespace Duplex.Engine.Bypass

/-- Bypass engines have no state. Rates are changed on the spectrum, unless otherwise. -/
def family (resampling : Resampling := Resample.spectral) : Family :=
  ⟨Unit, Unit, Unit, Unit, resampling⟩

private def accept {ρ : Type} (r : ρ) : Reply Unit ρ := ⟨(), .ok r⟩

/-- Bypass engines for sessions that process at up to `maxRate`. -/
def engines (S : Type) (maxRate : Nat) {resampling : Resampling} :
    Engines S (family resampling) where
  maxRate
  makeEcho _ _ := ((), .ok ())
  makeNoise _ _ := ((), .ok ())
  makeGain _ _ := ((), .ok ())
  echo :=
    { setUp := fun _ _ => accept (), configure := fun _ _ => accept ()
      bufferFarend := fun _ _ => accept ()
      process := fun _ nearend _ _ => ⟨(), nearend.data, .ok ()⟩ }
  noise :=
    { setUp := fun _ _ => accept (), configure := fun _ _ => accept ()
      analyze := fun _ _ => accept ()
      process := fun _ nearend _ => ⟨(), nearend.data, .ok ()⟩ }
  gain :=
    { setUp := fun _ _ _ _ _ => accept (), configure := fun _ _ => accept ()
      addMic := fun _ _ => accept ()
      process := fun _ nearend _ micLevel _ => ⟨(), nearend.data, .ok ⟨micLevel, false⟩⟩ }

end Duplex.Engine.Bypass
