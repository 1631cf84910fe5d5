import Duplex.Proofs.Moving
import Duplex.Proofs.Resampling

/-!
# Wiring: how the parts of a session fit together

The nearend ring has the configured size and nearend audio is converted to the processing format,
whatever calls were made (`run_wired`). Where resamplers keep the laws of fixed blocks that gather their
input, the number of frames that went back settles how many came out (`convertOutput_fed`).
-/

namespace Duplex

open Signal Engine

variable {S : Type} {F : Family}

namespace Session

section Wired

variable {size : Nat} {s t : Session F}

/-- The nearend ring has the given size, and nearend audio is converted to the processing format. -/
structure Wired (size : Nat) (s : Session F) : Prop where
  used : s.nearend.Used s.layout
  rate : s.nearend.rate = s.rate
  capacity : s.nearend.ring.capacity = size

/-- Nothing else matters. -/
theorem Wired.of_same (hs : s.Wired size)
    (h : t = { s with
      delay := t.delay, healthy := t.healthy, micLevel := t.micLevel, farend := t.farend
      outputAdapter := t.outputAdapter, lanes := t.lanes, pending := t.pending, stats := t.stats }) :
    t.Wired size := by
  rw [h]
  exact ⟨hs.used, hs.rate, hs.capacity⟩

theorem Wired.pushNearend (hs : s.Wired size) (bytes : List UInt8) (stats : Stats) :
    { s with nearend := (s.nearend.push bytes).1, stats }.Wired size := by
  refine ⟨hs.used.push bytes, ?_, ?_⟩
  · show (s.nearend.push bytes).1.rate = s.rate
    rw [Intake.push_same, Intake.emit_same]
    exact hs.rate
  · rw [← hs.capacity]
    exact s.nearend.capacity_push bytes

/-- So it stays after any reads. -/
theorem Wired.reads (hs : s.Wired size) (ns : List Nat) :
    { s with nearend := ns.foldl (fun i n => (i.read n).1) s.nearend }.Wired size := by
  induction ns generalizing s with
  | nil => exact hs
  | cons n ns ih =>
    exact ih (s := { s with nearend := (s.nearend.read n).1 })
      ⟨hs.used.read n, hs.rate, (s.nearend.capacity_read n).trans hs.capacity⟩

theorem Wired.flush (hs : s.Wired size) : s.flush.Wired size := ⟨hs.used.flush, hs.rate, hs.capacity⟩

/-- Another nearend format does not change that. -/
theorem Wired.setNearendInfo (hs : s.Wired size) {format : StreamFormat}
    {nearend : Intake F.resampling} (hnearend : (s.nearend.setFormat format).run = .ok (.ok nearend)) :
    { s with nearend }.Wired size := by
  have hused := hs.used.setFormat hnearend
  obtain ⟨adapter, -, rfl⟩ := Intake.setFormat_eq_ok.mp hnearend
  exact ⟨hused, hs.rate, hs.capacity⟩

theorem create_wired {settings : Settings} {limit channels nearRate farRate delay : Nat}
    (h : (create settings limit channels nearRate farRate delay).run = .ok (.ok s)) :
    s.Wired settings.ringSize := by
  have hopened := (create_opened h).1.nearend
  refine ⟨hopened.used, hopened.rate, ?_⟩
  obtain ⟨near, far, ring, farend, nearend, outputAdapter, -, -, -, -, hring, -, hnearend, -, -, hsame⟩ :=
    create_cases h
  obtain ⟨adapter, -, hparts⟩ := Intake.create_cases hnearend
  rw [hsame, hparts]
  exact ByteRing.capacity_of_ofCapacity hring

variable [Sample S] {engines : Engines S F} {settings : FrameSettings} {missing : Nat}
  {bytes : List UInt8} {outs : List (List UInt8)}

/-- A step takes nearend audio off. -/
theorem FrameStep.wired (hs : s.Wired size) (h : s.FrameStep engines settings bytes t) :
    t.Wired size := by
  obtain ⟨-, hnear, -⟩ := h.rest
  have hkin := h.kin
  refine ⟨?_, ?_, ?_⟩
  · rw [hnear, hkin.layout]
    exact hs.used.read _
  · rw [hnear, hkin.rate]
    exact hs.rate
  · rw [hnear, Intake.capacity_read]
    exact hs.capacity

theorem Drains.wired (hs : s.Wired size) (h : Drains engines settings missing s outs t) :
    t.Wired size := by
  induction h with
  | done stop => exact hs
  | frame wanted step rest ih => exact ih (step.wired hs)

/-- Whatever a call does to the audio, the parts of the session still fit together. -/
theorem Moved.wired {op : Operation} {answer : Answer} (hs : s.Wired size)
    (h : s.Moved engines op answer t) : t.Wired size := by
  cases h with
  | quiet same => exact hs.of_same (by rw [same.same])
  | pushFarend bytes => exact hs.of_same rfl
  | pushNearend bytes => exact hs.pushNearend bytes _
  | tryProcess shape drains count => exact (drains.wired hs).of_same rfl
  | held failing kin reads =>
    obtain ⟨ns, hreads⟩ := reads
    have hwired := hs.reads ns
    rw [← hreads] at hwired
    exact ⟨kin.layout ▸ hwired.used, hwired.rate.trans kin.rate.symm, hwired.capacity⟩
  | flush => exact hs.flush
  | setFarendInfo taken changed same =>
    exact Wired.of_same (s := { s with farend := _ }) (hs.of_same rfl) (by rw [same.same])
  | setNearendInfo taken changed way same =>
    exact (hs.setNearendInfo changed).of_same (by rw [same.same])

end Wired

/-- As many frames go back as are due for those that came in. -/
theorem convertOutput_fed {s : Session F} {p : Pace} {kept : F.resampling.State → Nat}
    {i o n m : Nat} (hR : F.resampling.Unfailing) (hF : F.resampling.Fixed)
    (h : AdapterFed p kept i o s.layout.channels s.outputAdapter n) {samples : List Int16}
    (hlen : samples.length = m * s.layout.channels) :
    AdapterFed p kept i o s.layout.channels (s.convertOutput samples).1.outputAdapter (n + m) ∧
      p.yield n * (s.layout.channels * 2) + (s.convertOutput samples).2.1.length =
        p.yield (n + m) * (s.layout.channels * 2) := by
  have hdouble (k : Nat) : k * (s.layout.channels * 2) = 2 * (k * s.layout.channels) := by
    rw [← Nat.mul_assoc, Nat.mul_comm]
  rcases ha : s.outputAdapter with _ | a
  · rw [ha] at h
    obtain ⟨rfl, rfl⟩ : i = o ∧ p = .direct := by cases h; exact ⟨‹_›, ‹_›⟩
    simp only [convertOutput, ha, Pcm.length_encode, hlen, Pace.yield_direct]
    exact ⟨.direct rfl rfl, by rw [Nat.add_mul, hdouble m]⟩
  · obtain ⟨hnext, hout⟩ := (ha ▸ h).process hR hF hlen
    simp only [convertOutput, ha, Pcm.length_encode]
    exact ⟨hnext, by rw [hdouble, hdouble, ← Nat.mul_add, hout]⟩

end Session

namespace Context

variable [Sample S] [Sample.Lawful S] (engines : Engines S F)

/-- The parts of a session fit together. -/
theorem run_wired {c₀ c : Context S F} {s : Session F} {ops : List Operation} {t : Transcript}
    (h₀ : c₀.session = none) (hrun : c₀.run engines ops = .ok (c, t)) (hs : c.session = some s)
    (hrate : Session.Processable s.rate) : s.Wired c₀.settings.ringSize := by
  refine run_session engines ?_ ?_ h₀ hrun hs hrate
  · intro settings channels nearRate farRate delay s u hsize hmade _ hquiet
    exact hsize ▸ (Session.create_wired hmade).of_same (by rw [hquiet.same])
  · intro s op answer u _ _ _ hwired hmoved
    exact hmoved.wired hwired

end Context

end Duplex
