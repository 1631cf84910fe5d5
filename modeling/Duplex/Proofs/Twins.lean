import Duplex.Proofs.Session

/-!
# Twins: lanes that cannot be told apart

A `Likeness` relates engines that answer every call alike and stay related. Lanes whose engines are
related are twins: from the same buffers, and with the same mic level if gain control is on, they
make the same of a frame and stay twins (`process_twin`), whatever their channels, the numbers of
their engines, the counters and the journal are. Bringing up the engines of lanes without engines
makes them twins again, if all engines are made alike (`resetLane_twin`).
-/

namespace Duplex

open Engine

variable {S : Type} {F : Family}

namespace Engine

variable {σ ρ : Type} (R : σ → σ → Prop)

/-- Equal outcomes of engines that are related afterwards. -/
structure Reply.Alike (x y : Reply σ ρ) : Prop where
  engine : R x.engine y.engine
  result : x.result = y.result

/-- Equal samples and outcomes of engines that are related afterwards. -/
structure FrameReply.Alike (x y : FrameReply σ S ρ) : Prop where
  engine : R x.engine y.engine
  out : x.out = y.out
  result : x.result = y.result

/-- Slots that are both empty or have related engines, whatever their numbers. -/
def Slots : Option (Numbered σ) → Option (Numbered σ) → Prop :=
  Option.Rel fun e f => R e.engine f.engine

end Engine

/-- For each stage, engines that no call tells apart. -/
structure Engines.Likeness (engines : Engines S F) where
  echo : F.Echo → F.Echo → Prop
  noise : F.Noise → F.Noise → Prop
  gain : F.Gain → F.Gain → Prop
  echo_setUp {e f : F.Echo} (h : echo e f) (rate : Nat) :
    Reply.Alike echo (engines.echo.setUp e rate) (engines.echo.setUp f rate)
  echo_configure {e f : F.Echo} (h : echo e f) (settings : EchoSettings) :
    Reply.Alike echo (engines.echo.configure e settings) (engines.echo.configure f settings)
  echo_bufferFarend {e f : F.Echo} (h : echo e f) (band : List S) :
    Reply.Alike echo (engines.echo.bufferFarend e band) (engines.echo.bufferFarend f band)
  echo_process {e f : F.Echo} (h : echo e f) (nearend out : Bands S) (delay : Nat) :
    FrameReply.Alike echo (engines.echo.process e nearend out delay)
      (engines.echo.process f nearend out delay)
  noise_setUp {e f : F.Noise} (h : noise e f) (rate : Nat) :
    Reply.Alike noise (engines.noise.setUp e rate) (engines.noise.setUp f rate)
  noise_configure {e f : F.Noise} (h : noise e f) (level : NoiseLevel) :
    Reply.Alike noise (engines.noise.configure e level) (engines.noise.configure f level)
  noise_analyze {e f : F.Noise} (h : noise e f) (band : List S) :
    Reply.Alike noise (engines.noise.analyze e band) (engines.noise.analyze f band)
  noise_process {e f : F.Noise} (h : noise e f) (nearend out : Bands S) :
    FrameReply.Alike noise (engines.noise.process e nearend out)
      (engines.noise.process f nearend out)
  gain_setUp {e f : F.Gain} (h : gain e f) (minLevel maxLevel : Int32) (mode : GainMode)
    (rate : Nat) :
    Reply.Alike gain (engines.gain.setUp e minLevel maxLevel mode rate)
      (engines.gain.setUp f minLevel maxLevel mode rate)
  gain_configure {e f : F.Gain} (h : gain e f) (settings : GainSettings) :
    Reply.Alike gain (engines.gain.configure e settings) (engines.gain.configure f settings)
  gain_addMic {e f : F.Gain} (h : gain e f) (nearend : Bands Int16) :
    Reply.Alike gain (engines.gain.addMic e nearend) (engines.gain.addMic f nearend)
  gain_process {e f : F.Gain} (h : gain e f) (nearend out : Bands Int16) (micLevel : Int32)
    (hasEcho : Bool) :
    FrameReply.Alike gain (engines.gain.process e nearend out micLevel hasEcho)
      (engines.gain.process f nearend out micLevel hasEcho)

/-- An engine is like itself. -/
def Engines.Likeness.refl (engines : Engines S F) : engines.Likeness where
  echo := Eq
  noise := Eq
  gain := Eq
  echo_setUp h _ := h ▸ ⟨rfl, rfl⟩
  echo_configure h _ := h ▸ ⟨rfl, rfl⟩
  echo_bufferFarend h _ := h ▸ ⟨rfl, rfl⟩
  echo_process h _ _ _ := h ▸ ⟨rfl, rfl, rfl⟩
  noise_setUp h _ := h ▸ ⟨rfl, rfl⟩
  noise_configure h _ := h ▸ ⟨rfl, rfl⟩
  noise_analyze h _ := h ▸ ⟨rfl, rfl⟩
  noise_process h _ _ := h ▸ ⟨rfl, rfl, rfl⟩
  gain_setUp h _ _ _ _ := h ▸ ⟨rfl, rfl⟩
  gain_configure h _ := h ▸ ⟨rfl, rfl⟩
  gain_addMic h _ := h ▸ ⟨rfl, rfl⟩
  gain_process h _ _ _ _ := h ▸ ⟨rfl, rfl, rfl⟩

variable {engines : Engines S F}

/-- All engines are made alike, whatever their numbers and the state of the factory; gain
controllers count only where gain control does. -/
structure Engines.Likeness.Made (like : engines.Likeness) (gained : Bool) : Prop where
  echo (f g : F.Factory) (m n : Nat) :
    Option.Rel like.echo (engines.makeEcho f m).2.toOption (engines.makeEcho g n).2.toOption
  noise (f g : F.Factory) (m n : Nat) :
    Option.Rel like.noise (engines.makeNoise f m).2.toOption (engines.makeNoise g n).2.toOption
  gain (hon : gained = true) (f g : F.Factory) (m n : Nat) :
    Option.Rel like.gain (engines.makeGain f m).2.toOption (engines.makeGain g n).2.toOption

namespace Lane

/-- Lanes with related engines; gain controllers count only while gain control is on. -/
structure Twin (like : engines.Likeness) (gained : Bool) (l m : Lane F) : Prop where
  echo : Slots like.echo l.echo m.echo
  noise : Slots like.noise l.noise m.noise
  gain : gained = true → Slots like.gain l.gain m.gain

/-- Frames are of no account. -/
theorem Twin.keep {like : engines.Likeness} {gained : Bool} {l m : Lane F}
    (h : l.Twin like gained m) (bufs bufs' : Option Buffers) :
    Twin like gained { l with buffers := bufs } { m with buffers := bufs' } :=
  ⟨h.echo, h.noise, h.gain⟩

/-- Passages on twins, with the same buffers and, while gain control is on, the same mic level. -/
structure Passage.Twin (like : engines.Likeness) (gained : Bool) (p q : Passage S F) : Prop where
  lane : p.lane.Twin like gained q.lane
  buffers : q.buffers = p.buffers
  micLevel : gained = true → q.micLevel = p.micLevel

/-! ### What a gain controller leaves -/

namespace Passage

/-- The answer of a gain controller to the frame of a passage. -/
def gainReply (engines : Engines S F) (p : Passage S F) (e : Numbered F.Gain) :
    FrameReply F.Gain Int16 GainOutcome :=
  let bands := (p.buffers.nearend.sync Int16).view Int16
  engines.gain.process (engines.gain.addMic e.engine bands).engine bands
    (p.buffers.output.view Int16) p.micLevel false

/-- The mic level after an answer of a gain controller: that of its outcome, or the one before. -/
def levelAfter (level : Int32) : Except Engine.Error GainOutcome → Int32
  | .ok outcome => outcome.micLevel
  | .error _ => level

/-- The buffers after an answer of a gain controller. -/
def buffersAfter (bufs : Buffers) (reply : FrameReply F.Gain Int16 GainOutcome) : Buffers :=
  let bufs := { bufs with
    nearend := bufs.nearend.sync Int16, output := bufs.output.put reply.out }
  match reply.result with
  | .ok _ =>
    let output := bufs.output.sync Int16
    { bufs with nearend := bufs.nearend.put (output.view Int16).data, output }
  | .error _ => bufs

/-- A gain controller changes its own slot, the mic level and the buffers, and these by its answer
only. -/
theorem runGain_leaves (engines : Engines S F) (p : Passage S F) (e : Numbered F.Gain) :
    (p.runGain engines e).lane =
        { p.lane with gain := some { e with engine := (p.gainReply engines e).engine } } ∧
      (p.runGain engines e).micLevel = levelAfter p.micLevel (p.gainReply engines e).result ∧
      (p.runGain engines e).buffers = buffersAfter p.buffers (p.gainReply engines e) := by
  unfold runGain
  extract_lets nearend bands learnt p₁ p₂ reply output lane bufs p₃ accepted
  have hlearnt : p₂.lane = p.lane ∧ p₂.buffers = p.buffers ∧ p₂.micLevel = p.micLevel := by
    simp only [p₂]
    split
    · exact ⟨rfl, rfl, rfl⟩
    · exact ⟨rfl, rfl, rfl⟩
  obtain ⟨hlane, hbuffers, hlevel⟩ := hlearnt
  have hreply : p.gainReply engines e = reply := by
    simp only [reply, hbuffers, hlevel]
    rfl
  have hlane₃ : p₃.lane = { p.lane with gain := some { e with engine := reply.engine } } := by
    show ({ p₂.lane with gain := _ } : Lane F) = _
    rw [hlane]
  have hbuffers₃ : p₃.buffers = { p.buffers with
      nearend := p.buffers.nearend.sync Int16, output := p.buffers.output.put reply.out } := by
    show ({ p₂.buffers with nearend, output := p₂.buffers.output.put reply.out } : Buffers) = _
    rw [hbuffers]
  have hlevel₃ : p₃.micLevel = p.micLevel := hlevel
  rw [hreply, buffersAfter, ← hbuffers₃, ← hlane₃]
  cases hr : reply.result with
  | error error => exact ⟨rfl, hlevel₃, rfl⟩
  | ok outcome =>
    dsimp only
    split
    · exact ⟨rfl, rfl, rfl⟩
    · exact ⟨rfl, rfl, rfl⟩

/-! ### Frames of twins -/

variable {like : engines.Likeness} {gained : Bool} {p q : Passage S F}

theorem gainReply_alike (h : p.Twin like gained q) (hon : gained = true) {e f : Numbered F.Gain}
    (he : like.gain e.engine f.engine) :
    FrameReply.Alike like.gain (p.gainReply engines e) (q.gainReply engines f) := by
  unfold gainReply
  rw [h.buffers, h.micLevel hon]
  exact like.gain_process (like.gain_addMic he _).engine _ _ _ _

theorem runGain_twin (h : p.Twin like gained q) (hon : gained = true) {e f : Numbered F.Gain}
    (he : like.gain e.engine f.engine) :
    (p.runGain engines e).Twin like gained (q.runGain engines f) := by
  have hreply := gainReply_alike h hon he
  obtain ⟨hlane, hlevel, hbuffers⟩ := runGain_leaves engines p e
  obtain ⟨hlane', hlevel', hbuffers'⟩ := runGain_leaves engines q f
  refine ⟨?_, ?_, ?_⟩
  · rw [hlane, hlane']
    exact ⟨h.lane.echo, h.lane.noise, fun _ => .some hreply.engine⟩
  · rw [hbuffers, hbuffers', h.buffers, buffersAfter, buffersAfter, hreply.out, hreply.result]
  · intro _
    rw [hlevel, hlevel', h.micLevel hon, hreply.result]

variable [Sample S]

theorem runNoise_twin (h : p.Twin like gained q) {e f : Numbered F.Noise}
    (he : like.noise e.engine f.engine) :
    (p.runNoise engines e).Twin like gained (q.runNoise engines f) := by
  obtain ⟨hlane, hbuffers, hlevel⟩ := h
  have hlearnt := like.noise_analyze he ((p.buffers.nearend.sync S).lowest S)
  unfold runNoise
  rw [hbuffers]
  dsimp only
  generalize engines.noise.analyze e.engine ((p.buffers.nearend.sync S).lowest S) = x at hlearnt ⊢
  generalize engines.noise.analyze f.engine ((p.buffers.nearend.sync S).lowest S) = y at hlearnt ⊢
  obtain ⟨engine, result⟩ := x
  obtain ⟨engine', result'⟩ := y
  obtain ⟨hengine, rfl⟩ := hlearnt
  cases result with
  | error error => exact ⟨⟨hlane.echo, .some hengine, hlane.gain⟩, rfl, hlevel⟩
  | ok _ =>
    have hreply := like.noise_process hengine ((p.buffers.nearend.sync S).view S)
      (p.buffers.output.view S)
    dsimp only [log_buffers]
    generalize engines.noise.process engine _ _ = x at hreply ⊢
    generalize engines.noise.process engine' _ _ = y at hreply ⊢
    obtain ⟨engine, out, result⟩ := x
    obtain ⟨engine', out', result'⟩ := y
    obtain ⟨hengine, rfl, rfl⟩ := hreply
    cases result with
    | error error => exact ⟨⟨hlane.echo, .some hengine, hlane.gain⟩, rfl, hlevel⟩
    | ok _ => exact ⟨⟨hlane.echo, .some hengine, hlane.gain⟩, rfl, hlevel⟩

theorem runEcho_twin (delay : Nat) (h : p.Twin like gained q) {e f : Numbered F.Echo}
    (he : like.echo e.engine f.engine) :
    (p.runEcho engines delay e).1.Twin like gained (q.runEcho engines delay f).1 ∧
      (q.runEcho engines delay f).2 = (p.runEcho engines delay e).2 := by
  obtain ⟨hlane, hbuffers, hlevel⟩ := h
  have hqueued := like.echo_bufferFarend he ((p.buffers.farend.sync S).lowest S)
  unfold runEcho
  rw [hbuffers]
  dsimp only
  generalize engines.echo.bufferFarend e.engine _ = x at hqueued ⊢
  generalize engines.echo.bufferFarend f.engine _ = y at hqueued ⊢
  obtain ⟨engine, result⟩ := x
  obtain ⟨engine', result'⟩ := y
  obtain ⟨hengine, rfl⟩ := hqueued
  cases result with
  | error error => exact ⟨⟨⟨.some hengine, hlane.noise, hlane.gain⟩, rfl, hlevel⟩, rfl⟩
  | ok _ =>
    have hreply := like.echo_process hengine ((p.buffers.nearend.sync S).view S)
      (p.buffers.output.view S) delay
    dsimp only [log_buffers]
    generalize engines.echo.process engine _ _ _ = x at hreply ⊢
    generalize engines.echo.process engine' _ _ _ = y at hreply ⊢
    obtain ⟨engine, out, result⟩ := x
    obtain ⟨engine', out', result'⟩ := y
    obtain ⟨hengine, rfl, rfl⟩ := hreply
    cases result with
    | error error => exact ⟨⟨⟨.some hengine, hlane.noise, hlane.gain⟩, rfl, hlevel⟩, rfl⟩
    | ok _ => exact ⟨⟨⟨.some hengine, hlane.noise, hlane.gain⟩, rfl, hlevel⟩, rfl⟩

/-- The stages keep twins, and echo cancellation succeeds on both or on neither. -/
theorem runStages_twin {settings : FrameSettings} (hgain : settings.gain = true → gained = true)
    (h : p.Twin like gained q) :
    (p.runStages engines settings).1.Twin like gained (q.runStages engines settings).1 ∧
      (q.runStages engines settings).2 = (p.runStages engines settings).2 := by
  unfold runStages
  extract_lets p₁ p₂ q₁ q₂
  have h₁ : p₁.Twin like gained q₁ := by
    simp only [p₁, q₁]
    cases hon : settings.gain with
    | false => exact h
    | true =>
      have hslots := h.lane.gain (hgain hon)
      generalize p.lane.gain = x at hslots ⊢
      generalize q.lane.gain = y at hslots ⊢
      cases hslots with
      | none => exact h
      | some he => exact runGain_twin h (hgain hon) he
  have h₂ : p₂.Twin like gained q₂ := by
    simp only [p₂, q₂]
    cases settings.noise with
    | false => exact h₁
    | true =>
      have hslots := h₁.lane.noise
      generalize p₁.lane.noise = x at hslots ⊢
      generalize q₁.lane.noise = y at hslots ⊢
      cases hslots with
      | none => exact h₁
      | some he => exact runNoise_twin h₁ he
  cases settings.echo with
  | false => exact ⟨h₂, rfl⟩
  | true =>
    have hslots := h₂.lane.echo
    generalize p₂.lane.echo = x at hslots ⊢
    generalize q₂.lane.echo = y at hslots ⊢
    cases hslots with
    | none => exact ⟨h₂, rfl⟩
    | some he => exact runEcho_twin settings.delay h₂ he

end Passage

variable [Sample S] {like : engines.Likeness} {gained : Bool}

/-- Twins make the same of a frame and stay twins. -/
theorem process_twin {settings : FrameSettings} (hgain : settings.gain = true → gained = true)
    {p q : Passage S F} (h : p.Twin like gained q) {farend nearend : List Int16}
    {r : Passage S F × List Int16} (hrun : process engines settings farend nearend p = .ok r) :
    ∃ r', process engines settings farend nearend q = .ok r' ∧ r.1.Twin like gained r'.1 ∧
      r'.2 = r.2 := by
  rw [process_eq] at hrun ⊢
  obtain ⟨p₁, hload, hhear⟩ := bind_eq_ok.mp hrun
  obtain ⟨near, hnear, hload⟩ := bind_eq_ok.mp hload
  obtain ⟨far, hfar, rfl⟩ := map_eq_ok.mp hload
  let q₁ : Passage S F := { q with buffers := { q.buffers with nearend := near, farend := far } }
  have hload' : q.load settings farend nearend = .ok q₁ := by
    rw [Passage.load, h.buffers, hnear, ok_bind, hfar]
    simp only [q₁, h.buffers]
    rfl
  have hloaded : Passage.Twin like gained
      { p with buffers := { p.buffers with nearend := near, farend := far } } q₁ := by
    refine ⟨h.lane, ?_, h.micLevel⟩
    simp only [q₁, h.buffers]
  obtain ⟨hstages, hcancelled⟩ := Passage.runStages_twin hgain hloaded
  rw [hload', ok_bind]
  generalize Passage.runStages engines settings _ = staged at hhear hstages hcancelled
  generalize q₁.runStages engines settings = staged' at hstages hcancelled ⊢
  obtain ⟨p₂, cancelled⟩ := staged
  obtain ⟨q₂, cancelled'⟩ := staged'
  obtain rfl : cancelled' = cancelled := hcancelled
  have hbuffers : q₂.buffers = p₂.buffers := hstages.buffers
  cases cancelled' with
  | true =>
    obtain ⟨⟨output, count, samples⟩, hread, rfl⟩ := map_eq_ok.mp hhear
    rw [Passage.hear, hbuffers, hread]
    exact ⟨_, rfl, ⟨hstages.lane, rfl, hstages.micLevel⟩, rfl⟩
  | false =>
    obtain ⟨⟨output, count, samples⟩, hread, rfl⟩ := map_eq_ok.mp hhear
    rw [Passage.hear, hbuffers, hread]
    exact ⟨_, rfl, ⟨hstages.lane, rfl, hstages.micLevel⟩, rfl⟩

end Lane

/-! ### Bringing up -/

namespace Workshop

variable {σ : Type} {R : σ → σ → Prop} {stage : Stage}
  {calls : List (Request S × (σ → Reply σ Unit))}

/-- Related engines take the same calls, or refuse the same one. -/
theorem setUp_alike (w w' : Workshop S F) {e f : Numbered σ} (h : R e.engine f.engine)
    (hcalls : ∀ call ∈ calls, ∀ e f, R e f → Reply.Alike R (call.2 e) (call.2 f)) :
    Slots R (w.setUp stage e calls).2.toOption (w'.setUp stage f calls).2.toOption := by
  induction calls generalizing w w' e f with
  | nil => exact .some h
  | cons call calls ih =>
    obtain ⟨request, call⟩ := call
    have hreply := hcalls _ List.mem_cons_self e.engine f.engine h
    rw [setUp, setUp]
    dsimp only at hreply ⊢
    generalize call e.engine = x at hreply ⊢
    generalize call f.engine = y at hreply ⊢
    obtain ⟨engine, result⟩ := x
    obtain ⟨engine', result'⟩ := y
    obtain ⟨hengine, rfl⟩ := hreply
    cases result with
    | error error => exact .none
    | ok _ => exact ih _ _ hengine fun call hcall => hcalls call (List.mem_cons_of_mem _ hcall)

/-- So do engines that are made for empty slots. -/
theorem refit_alike {make : F.Factory → Nat → F.Factory × Except Engine.Error σ}
    (hmake : ∀ f g m n, Option.Rel R (make f m).2.toOption (make g n).2.toOption)
    (w w' : Workshop S F) {slot slot' : Option (Numbered σ)} (h : Slots R slot slot')
    (hcalls : ∀ call ∈ calls, ∀ e f, R e f → Reply.Alike R (call.2 e) (call.2 f)) :
    Slots R (w.refit stage make slot calls).2.toOption
      (w'.refit stage make slot' calls).2.toOption := by
  cases h with
  | some he => exact setUp_alike w w' he hcalls
  | none =>
    have hmade := hmake w.factory w'.factory (w.made.get stage) (w'.made.get stage)
    rw [refit, refit, obtain, obtain]
    dsimp only
    generalize make w.factory (w.made.get stage) = x at hmade ⊢
    generalize make w'.factory (w'.made.get stage) = y at hmade ⊢
    obtain ⟨factory, made⟩ := x
    obtain ⟨factory', made'⟩ := y
    cases made with
    | error e =>
      cases made' with
      | error e' => exact .none
      | ok f => cases hmade
    | ok e =>
      cases made' with
      | error e' => cases hmade
      | ok f =>
        cases hmade with
        | some he => exact setUp_alike _ _ he hcalls

end Workshop

/-- Twins whose echo cancellers get new settings stay twins. -/
theorem Lane.reconfigureEcho_twin {like : engines.Likeness} {gained : Bool}
    (settings : EchoSettings) (w w' : Workshop S F) {l m : Lane F} (h : l.Twin like gained m) :
    (l.reconfigureEcho engines settings w).2.1.Twin like gained
      (m.reconfigureEcho engines settings w').2.1 := by
  have hecho := h.echo
  rw [reconfigureEcho, reconfigureEcho]
  generalize hx : l.echo = x at hecho ⊢
  generalize hy : m.echo = y at hecho ⊢
  cases hecho with
  | none => exact h
  | some he =>
    refine ⟨Workshop.setUp_alike _ _ he ?_, h.noise, h.gain⟩
    simp only [List.forall_mem_cons]
    exact ⟨fun _ _ he => like.echo_configure he _, nofun⟩

namespace Session

/-- Twins whose engines are brought up are twins again. -/
theorem resetLane_twin {like : engines.Likeness} {gained : Bool} (hmade : like.Made gained)
    {rate : Nat} {settings : Settings} (w w' : Workshop S F) (healthy healthy' : PerStage Bool)
    {l m : Lane F} (h : l.Twin like gained m) :
    (resetLane engines rate settings w healthy l).2.2.Twin like gained
      (resetLane engines rate settings w' healthy' m).2.2 := by
  refine ⟨Workshop.refit_alike hmade.echo _ _ h.echo ?_,
    Workshop.refit_alike hmade.noise _ _ h.noise ?_, ?_⟩
  · simp only [List.forall_mem_cons]
    exact ⟨fun _ _ he => like.echo_setUp he _, fun _ _ he => like.echo_configure he _, nofun⟩
  · simp only [List.forall_mem_cons]
    exact ⟨fun _ _ he => like.noise_setUp he _, fun _ _ he => like.noise_configure he _, nofun⟩
  · intro hon
    refine Workshop.refit_alike (hmade.gain hon) _ _ (h.gain hon) ?_
    simp only [List.forall_mem_cons]
    exact ⟨fun _ _ he => like.gain_setUp he _ _ _ _, fun _ _ he => like.gain_configure he _, nofun⟩

end Session

end Duplex
