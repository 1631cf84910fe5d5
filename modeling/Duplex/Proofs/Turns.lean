import Duplex.Proofs.Crew

/-!
# Turns: the calls of a frame

Whatever the engines answer, a stage that is on and has an engine makes its two calls on it, the
second one only if the first succeeded where the stage depends on it (`GainTurn`, `NoiseTurn`,
`EchoTurn`), and a stage that is off makes none. A lane takes its stages in order (`LaneTurn`), a
frame the lanes in order (`FrameTurn`). Processing makes the calls of its frames, one frame after
another, and no others (`process_turns`, `tryProcess_turns`).
-/

namespace Duplex

open Engine

variable {S : Type} {F : Family}

namespace Event

/-- Whether an event is a call on an engine. -/
def isCall : Event S → Bool
  | called .. => true
  | _ => false

/-- An event by which no engine comes or goes. -/
def Tame (e : Event S) : Prop := e.isCall = true ∨ e.about = none

end Event

namespace Journal

/-- The calls on engines in a journal. -/
def calls (journal : Journal S) : Journal S := journal.filter Event.isCall

theorem calls_append (j k : Journal S) : calls (j ++ k) = calls j ++ calls k :=
  List.filter_append ..

/-- The second journal has the given calls more than the first, and no engine came or went. -/
structure Adds (added : Journal S) (j k : Journal S) : Prop where
  calls : k.calls = j.calls ++ added
  tame : (∀ e ∈ j, e.Tame) → ∀ e ∈ k, e.Tame

namespace Adds

variable {added added' j k m : Journal S}

theorem refl (j : Journal S) : Adds [] j j := ⟨(List.append_nil _).symm, fun h => h⟩

theorem trans (h : Adds added j k) (h' : Adds added' k m) : Adds (added ++ added') j m :=
  ⟨by rw [h'.calls, h.calls, List.append_assoc], fun htame => h'.tame (h.tame htame)⟩

/-- One call more. -/
theorem call (j : Journal S) (number : Nat) (request : Request S) (ok : Bool) :
    Adds [.called number request ok] j (j ++ [.called number request ok]) where
  calls := calls_append ..
  tame h e he := (List.mem_append.mp he).elim (h e) fun he => .inl (by simp_all [Event.isCall])

/-- A notice is no call. -/
theorem notice (j : Journal S) (n : Notice) : Adds [] j (j ++ [.noticed n]) where
  calls := calls_append ..
  tame h e he := (List.mem_append.mp he).elim (h e) fun he => .inr (by simp_all [Event.about])

end Adds

end Journal

/-! ### Turns -/

/-- The calls on a gain controller for a frame: the frame is processed even if the engine would not
learn from it. -/
inductive GainTurn : Option Nat → Journal S → Prop where
  | off : GainTurn none []
  | taken {number : Nat} {bands : Bands Int16} {level : Int32} (learnt passed : Bool) :
    GainTurn (some number)
      [.called number (.gainAddMic bands) learnt,
       .called number (.gainProcess bands level false) passed]

/-- The calls on a noise suppressor for a frame. -/
inductive NoiseTurn : Option Nat → Journal S → Prop where
  | off : NoiseTurn none []
  | refused {number : Nat} {band : List S} :
    NoiseTurn (some number) [.called number (.noiseAnalyze band) false]
  | taken {number : Nat} {band : List S} {bands : Bands S} (passed : Bool) :
    NoiseTurn (some number)
      [.called number (.noiseAnalyze band) true, .called number (.noiseProcess bands) passed]

/-- The calls on an echo canceller for a frame. -/
inductive EchoTurn : Option Nat → Journal S → Prop where
  | off : EchoTurn none []
  | refused {number : Nat} {band : List S} :
    EchoTurn (some number) [.called number (.echoFarend band) false]
  | taken {number : Nat} {band : List S} {bands : Bands S} {delay : Nat} (passed : Bool) :
    EchoTurn (some number)
      [.called number (.echoFarend band) true, .called number (.echoProcess bands delay) passed]

/-- The slot of a stage that may be off. -/
def duty (on : Bool) (slot : Option Nat) : Option Nat := if on then slot else none

theorem duty_eq_some {on : Bool} {slot : Option Nat} {number : Nat} :
    duty on slot = some number ↔ on = true ∧ slot = some number := by
  cases on <;> simp [duty]

theorem duty_of_off {σ : Type} {on : Bool} {slot : Option (Numbered σ)}
    (h : ∀ e, on = true → slot = some e → False) : duty on (slot.map (·.number)) = none := by
  cases on with
  | false => rfl
  | true =>
    cases slot with
    | none => rfl
    | some e => exact (h e rfl rfl).elim

/-- The calls of a lane for a frame: gain control, noise suppression, echo cancellation. -/
inductive LaneTurn (settings : FrameSettings) (numbers : PerStage (Option Nat)) : Journal S → Prop where
  | mk {gain noise echo : Journal S} (hgain : GainTurn (duty settings.gain numbers.gain) gain)
    (hnoise : NoiseTurn (duty settings.noise numbers.noise) noise)
    (hecho : EchoTurn (duty settings.echo numbers.echo) echo) :
    LaneTurn settings numbers (gain ++ noise ++ echo)

/-- The calls of a frame: one lane after another, each given by its channel and its engines. -/
inductive FrameTurn (settings : FrameSettings) :
    List (Nat × PerStage (Option Nat)) → Journal S → Prop where
  | nil : FrameTurn settings [] []
  | cons {crew : Nat × PerStage (Option Nat)} {crews : List (Nat × PerStage (Option Nat))}
    {turn rest : Journal S} (h : LaneTurn settings crew.2 turn)
    (others : FrameTurn settings crews rest) : FrameTurn settings (crew :: crews) (turn ++ rest)

/-! Every call of a turn belongs to a frame and is made on the engine of its stage. -/

section Mem

variable {slot : Option Nat} {turn : Journal S}

/-- A call for a frame on the engine in a slot. -/
def Event.OnSlot (e : Event S) (stage : Stage) (slot : Option Nat) : Prop :=
  ∃ number request ok, e = .called number request ok ∧ request.purpose = .frame ∧
    request.stage = stage ∧ slot = some number

theorem Event.onSlot_called {number : Nat} {request : Request S} {ok : Bool} {stage : Stage} :
    (Event.called number request ok).OnSlot stage slot ↔
      request.purpose = .frame ∧ request.stage = stage ∧ slot = some number := by
  constructor
  · rintro ⟨_, _, _, ⟨⟩, h⟩
    exact h
  · exact fun h => ⟨_, _, _, rfl, h⟩

theorem GainTurn.onSlot (h : GainTurn slot turn) : ∀ e ∈ turn, e.OnSlot .gain slot := by
  cases h with
  | off => simp
  | taken => simp [Event.onSlot_called, Request.purpose, Request.stage]

theorem NoiseTurn.onSlot (h : NoiseTurn slot turn) : ∀ e ∈ turn, e.OnSlot .noise slot := by
  cases h with
  | off => simp
  | _ => simp [Event.onSlot_called, Request.purpose, Request.stage]

theorem EchoTurn.onSlot (h : EchoTurn slot turn) : ∀ e ∈ turn, e.OnSlot .echo slot := by
  cases h with
  | off => simp
  | _ => simp [Event.onSlot_called, Request.purpose, Request.stage]

end Mem

/-- Whether a stage is on. -/
def FrameSettings.runs (settings : FrameSettings) : Stage → Bool
  | .echo => settings.echo
  | .noise => settings.noise
  | .gain => settings.gain

/-- A call of a lane for a frame is made on the engine that the lane has for a stage that is on. -/
theorem LaneTurn.onSlot {settings : FrameSettings} {numbers : PerStage (Option Nat)}
    {turn : Journal S} (h : LaneTurn settings numbers turn) :
    ∀ e ∈ turn, ∃ stage, e.OnSlot stage (duty (settings.runs stage) (numbers.get stage)) := by
  obtain ⟨hgain, hnoise, hecho⟩ := h
  intro e he
  obtain (he | he) | he := (List.mem_append.mp he).imp_left List.mem_append.mp
  · exact ⟨.gain, hgain.onSlot e he⟩
  · exact ⟨.noise, hnoise.onSlot e he⟩
  · exact ⟨.echo, hecho.onSlot e he⟩

/-- A call of a frame is made on an engine of a lane for a stage that is on. -/
theorem FrameTurn.onSlot {settings : FrameSettings} {crews : List (Nat × PerStage (Option Nat))}
    {turn : Journal S} (h : FrameTurn settings crews turn) :
    ∀ e ∈ turn, ∃ crew ∈ crews, ∃ stage,
      e.OnSlot stage (duty (settings.runs stage) (crew.2.get stage)) := by
  induction h with
  | nil => simp
  | cons h _ ih =>
    intro e he
    obtain he | he := List.mem_append.mp he
    · exact ⟨_, List.mem_cons_self, h.onSlot e he⟩
    · obtain ⟨crew, hcrew, hslot⟩ := ih e he
      exact ⟨crew, List.mem_cons_of_mem _ hcrew, hslot⟩

/-! ### Stages -/

namespace Lane.Passage

/-- A passage that makes the calls of a turn, on the engines that the lane has and keeps. -/
structure Takes (turn : Journal S → Prop) (p p' : Passage S F) : Prop where
  crew : p'.lane.crew = p.lane.crew
  calls : ∃ calls, Journal.Adds calls p.journal p'.journal ∧ turn calls

variable (engines : Engines S F) (p : Passage S F)

theorem runGain_takes {e : Numbered F.Gain} (he : p.lane.gain = some e) :
    p.Takes (GainTurn (some e.number)) (p.runGain engines e) := by
  unfold runGain
  extract_lets nearend bands learnt p₁ p₂ reply output lane bufs p₃ accepted
  have hlearnt : Journal.Adds [.called e.number (.gainAddMic bands) (succeeded learnt.result)]
      p.journal p₂.journal ∧ p₂.lane = p.lane := by
    simp only [p₂]
    split
    · exact ⟨.call .., rfl⟩
    · exact ⟨(Journal.Adds.call ..).trans (.notice ..), rfl⟩
  have hpassed : Journal.Adds
      [.called e.number (.gainProcess bands p₂.micLevel false) (succeeded reply.result)]
      p₂.journal p₃.journal := .call ..
  have hcrew : p₃.lane.crew = p.lane.crew := by
    simp only [p₃, lane, log, crew, numbers, hlearnt.2, he, Option.map_some]
  have hcalls := hlearnt.1.trans hpassed
  cases hr : reply.result with
  | error error =>
    exact ⟨hcrew, _, hcalls.trans (.notice ..), .taken _ _⟩
  | ok outcome =>
    dsimp only
    split
    · exact ⟨hcrew, _, hcalls.trans (.notice ..), .taken _ _⟩
    · exact ⟨hcrew, _, hcalls, .taken _ _⟩

variable [Sample S]

theorem runNoise_takes {e : Numbered F.Noise} (he : p.lane.noise = some e) :
    p.Takes (NoiseTurn (some e.number)) (p.runNoise engines e) := by
  unfold runNoise
  extract_lets nearend bufs p₁ learnt lane p₂ bands reply output lane₂ bufs₂ p₃
  have hlearnt : Journal.Adds [.called e.number (.noiseAnalyze (nearend.lowest S))
      (succeeded learnt.result)] p.journal p₂.journal := .call ..
  have hcrew₂ : p₂.lane.crew = p.lane.crew := by
    simp only [p₂, p₁, lane, log, crew, numbers, he, Option.map_some]
  have hcrew₃ : p₃.lane.crew = p.lane.crew := by
    simp only [p₃, p₂, p₁, lane, lane₂, log, crew, numbers, he, Option.map_some]
  cases hl : learnt.result with
  | error error =>
    rw [hl] at hlearnt
    exact ⟨hcrew₂, _, hlearnt.trans (.notice ..), .refused⟩
  | ok _ =>
    rw [hl] at hlearnt
    have hpassed : Journal.Adds [.called e.number (.noiseProcess bands) (succeeded reply.result)]
        p₂.journal p₃.journal := .call ..
    have hcalls := hlearnt.trans hpassed
    cases hr : reply.result with
    | error error => exact ⟨hcrew₃, _, hcalls.trans (.notice ..), .taken _⟩
    | ok _ => exact ⟨hcrew₃, _, hcalls, .taken _⟩

theorem runEcho_takes (delay : Nat) {e : Numbered F.Echo} (he : p.lane.echo = some e) :
    p.Takes (EchoTurn (some e.number)) (p.runEcho engines delay e).1 := by
  unfold runEcho
  extract_lets farend bufs p₁ queued lane p₂ nearend bands reply output lane₂ bufs₂ p₃
  have hqueued : Journal.Adds [.called e.number (.echoFarend (farend.lowest S))
      (succeeded queued.result)] p.journal p₂.journal := .call ..
  have hcrew₂ : p₂.lane.crew = p.lane.crew := by
    simp only [p₂, p₁, lane, log, crew, numbers, he, Option.map_some]
  have hcrew₃ : p₃.lane.crew = p.lane.crew := by
    simp only [p₃, p₂, p₁, lane, lane₂, log, crew, numbers, he, Option.map_some]
  cases hq : queued.result with
  | error error =>
    rw [hq] at hqueued
    exact ⟨hcrew₂, _, hqueued.trans (.notice ..), .refused⟩
  | ok _ =>
    rw [hq] at hqueued
    have hpassed : Journal.Adds
        [.called e.number (.echoProcess bands delay) (succeeded reply.result)]
        p₂.journal p₃.journal := .call ..
    have hcalls := hqueued.trans hpassed
    cases hr : reply.result with
    | error error => exact ⟨hcrew₃, _, hcalls.trans (.notice ..), .taken _⟩
    | ok _ => exact ⟨hcrew₃, _, hcalls, .taken _⟩

/-- The stages of a lane take their turns in order. -/
theorem runStages_takes (settings : FrameSettings) :
    p.Takes (LaneTurn settings p.lane.numbers) (p.runStages engines settings).1 := by
  unfold runStages
  extract_lets p₁ p₂
  have hgain : p.Takes (GainTurn (duty settings.gain p.lane.numbers.gain)) p₁ := by
    simp only [p₁]
    split
    · rename_i e hon he
      have hduty : duty settings.gain p.lane.numbers.gain = some e.number := by
        simp [duty, numbers, hon, he]
      exact hduty ▸ runGain_takes engines p he
    · rename_i hoff
      rw [numbers, duty_of_off hoff]
      exact ⟨rfl, [], .refl _, .off⟩
  have hnoise : p₁.Takes (NoiseTurn (duty settings.noise p₁.lane.numbers.noise)) p₂ := by
    simp only [p₂]
    split
    · rename_i e hon he
      have hduty : duty settings.noise p₁.lane.numbers.noise = some e.number := by
        simp [duty, numbers, hon, he]
      exact hduty ▸ runNoise_takes engines p₁ he
    · rename_i hoff
      rw [numbers, duty_of_off hoff]
      exact ⟨rfl, [], .refl _, .off⟩
  obtain ⟨hcrew₁, gain, hadds₁, hgain⟩ := hgain
  obtain ⟨hcrew₂, noise, hadds₂, hnoise⟩ := hnoise
  have hnumbers₁ : p₁.lane.numbers = p.lane.numbers := congrArg Prod.snd hcrew₁
  have hnumbers₂ : p₂.lane.numbers = p.lane.numbers :=
    (congrArg Prod.snd hcrew₂).trans hnumbers₁
  rw [hnumbers₁] at hnoise
  -- Whatever echo cancellation does comes last.
  have hlast (r : Passage S F)
      (hecho : p₂.Takes (EchoTurn (duty settings.echo p₂.lane.numbers.echo)) r) :
      p.Takes (LaneTurn settings p.lane.numbers) r := by
    obtain ⟨hcrew₃, echo, hadds₃, hecho⟩ := hecho
    rw [hnumbers₂] at hecho
    exact ⟨hcrew₃.trans (hcrew₂.trans hcrew₁), _, (hadds₁.trans hadds₂).trans hadds₃,
      .mk hgain hnoise hecho⟩
  split
  · rename_i e hon he
    have hduty : duty settings.echo p₂.lane.numbers.echo = some e.number := by
      simp [duty, numbers, hon, he]
    exact hlast _ (hduty ▸ runEcho_takes engines p₂ settings.delay he)
  · rename_i hoff
    refine hlast _ ⟨rfl, [], .refl _, ?_⟩
    rw [numbers, duty_of_off hoff]
    exact .off

end Lane.Passage

namespace Lane

variable [Sample S] (engines : Engines S F)

/-- Loading and hearing a frame makes no calls. -/
theorem process_takes {settings : FrameSettings} {farend nearend : List Int16}
    {p : Passage S F} {r : Passage S F × List Int16}
    (h : process engines settings farend nearend p = .ok r) :
    p.Takes (LaneTurn settings p.lane.numbers) r.1 := by
  obtain ⟨loaded, heard, hr⟩ := process_stages engines h
  obtain ⟨hcrew, hcalls⟩ := Passage.runStages_takes engines { p with buffers := loaded } settings
  rw [hr]
  exact ⟨hcrew, hcalls⟩

end Lane

/-! ### Frames -/

namespace Session

/-- Processing that makes the calls of frames, on the engines that the session has and keeps. -/
structure Turned (settings : FrameSettings) (s t : Session F) (journal : Journal S) : Prop where
  layout : t.layout = s.layout
  healthy : t.healthy = s.healthy
  crews : t.crews = s.crews
  tame : ∀ e ∈ journal, e.Tame
  turns : ∃ frames : List (Journal S), journal.calls = frames.flatten ∧
    ∀ frame ∈ frames, FrameTurn settings s.crews frame

namespace Turned

variable {settings : FrameSettings} {s t u : Session F} {j k : Journal S}

/-- Without a frame there are no calls. -/
theorem of_notices (s : Session F) (notices : List Notice) :
    Turned settings s s (notices.map .noticed : Journal S) where
  layout := rfl
  healthy := rfl
  crews := rfl
  tame e he := by
    obtain ⟨n, -, rfl⟩ := List.mem_map.mp he
    exact .inr rfl
  turns := ⟨[], List.filter_eq_nil_iff.mpr fun e he => by
    obtain ⟨n, -, rfl⟩ := List.mem_map.mp he
    simp [Event.isCall], by simp⟩

theorem refl (s : Session F) : Turned settings s s ([] : Journal S) := of_notices s []

theorem trans (h : Turned settings s t j) (h' : Turned settings t u k) :
    Turned settings s u (j ++ k) where
  layout := h'.layout.trans h.layout
  healthy := h'.healthy.trans h.healthy
  crews := h'.crews.trans h.crews
  tame e he := (List.mem_append.mp he).elim (h.tame e) (h'.tame e)
  turns := by
    obtain ⟨frames, hcalls, hframes⟩ := h.turns
    obtain ⟨frames', hcalls', hframes'⟩ := h'.turns
    rw [h.crews] at hframes'
    refine ⟨frames ++ frames', ?_, List.forall_mem_append.mpr ⟨hframes, hframes'⟩⟩
    rw [Journal.calls_append, hcalls, hcalls', List.flatten_append]

/-- Intakes, output and counters are of no account. -/
theorem congr (h : Turned settings s t j) (hlayout : u.layout = t.layout)
    (hhealthy : u.healthy = t.healthy) (hcrews : u.crews = t.crews) : Turned settings s u j where
  layout := hlayout.trans h.layout
  healthy := hhealthy.trans h.healthy
  crews := hcrews.trans h.crews
  tame := h.tame
  turns := h.turns

theorem convertOutput (h : Turned settings s t j) (samples : List Int16) :
    Turned settings s (t.convertOutput samples).1 j := by
  rw [Session.convertOutput]
  split
  · exact h
  · exact h.congr rfl rfl rfl

/-- Every call is for a frame, and on an engine of the session for a stage that is on. -/
theorem onSlot (h : Turned settings s t j) {e : Event S} (he : e ∈ j) (hcall : e.isCall = true) :
    ∃ crew ∈ s.crews, ∃ stage,
      e.OnSlot stage (duty (settings.runs stage) (crew.2.get stage)) := by
  obtain ⟨frames, hcalls, hframes⟩ := h.turns
  have hmem : e ∈ frames.flatten := hcalls ▸ List.mem_filter.mpr ⟨he, hcall⟩
  obtain ⟨frame, hframe, he⟩ := List.mem_flatten.mp hmem
  exact (hframes frame hframe).onSlot e he

/-- The calls keep the accounts. -/
theorem accounts {made : PerStage Nat} {journal : Journal S} (h : Turned settings s t j)
    (hacc : Accounts made journal s.roster) : Accounts made (journal ++ j) t.roster := by
  rw [roster_congr h.crews]
  refine hacc.frames fun e he => (h.tame e he).symm.imp_right fun hcall => ?_
  obtain ⟨crew, hcrew, stage, number, request, ok, rfl, hpurpose, rfl, hslot⟩ := h.onSlot he hcall
  exact ⟨number, request, ok, rfl, hpurpose, mem_roster.mpr ⟨crew, hcrew, (duty_eq_some.mp hslot).2⟩⟩

/-- The session stays staffed. -/
theorem staffed (h : Turned settings s t j) (hs : s.Staffed) : t.Staffed :=
  hs.congr h.layout h.healthy h.crews

/-- There is still a lane for each channel. -/
theorem lanes (h : Turned settings s t j) (hs : s.lanes.length = s.layout.channels) :
    t.lanes.length = t.layout.channels := by
  have hlen := congrArg List.length h.crews
  simp only [Session.crews, List.length_map] at hlen
  rw [hlen, h.layout, hs]

end Turned

/-- Taking a frame off the intakes makes no calls. -/
theorem readFrame_turned (settings : FrameSettings) (s : Session F) :
    s.Turned settings (s.readFrame (S := S)).1 (s.readFrame (S := S)).2.1 := by
  rw [readFrame_eq]
  dsimp only
  split
  · exact (Turned.of_notices s [.farendUnderrun _]).congr rfl rfl rfl
  · exact (Turned.refl s).congr rfl rfl rfl

theorem prepareLanes_lanes {settings : FrameSettings} {lanes : List (Lane F)}
    {prepared : List (Lane F × Buffers)} (h : (prepareLanes settings lanes).run = .ok (.ok prepared)) :
    prepared.map (·.1) = lanes := by
  induction lanes generalizing prepared with
  | nil =>
    obtain rfl : [] = prepared := Except.ok.inj (Except.ok.inj h)
    rfl
  | cons l lanes ih =>
    obtain ⟨buffers, -, h⟩ := attempt_bind_eq_ok.mp h
    obtain ⟨rest, hrest, h⟩ := attempt_bind_eq_ok.mp h
    obtain rfl : (l, buffers) :: rest = prepared := Except.ok.inj (Except.ok.inj h)
    rw [List.map_cons, ih hrest]

variable [Sample S] (engines : Engines S F)

variable {engines} in
/-- Each lane takes its turn. -/
theorem LanesRan.turns {settings : FrameSettings} {prepared : List (Lane F × Buffers)}
    {farend nearend outs : List (List Int16)} {c c' : Carried S} {lanes : List (Lane F)}
    (h : LanesRan engines settings prepared farend nearend c lanes outs c') :
    lanes.map Lane.crew = (prepared.map (·.1)).map Lane.crew ∧
      ∃ calls, Journal.Adds calls c.journal c'.journal ∧
        FrameTurn settings ((prepared.map (·.1)).map Lane.crew) calls := by
  induction h with
  | nil => exact ⟨rfl, [], .refl _, .nil⟩
  | cons hlane _ ih =>
    obtain ⟨hcrew, turn, hadds, hturn⟩ := Lane.process_takes engines hlane
    obtain ⟨hcrews, rest, hadds', hrest⟩ := ih
    refine ⟨?_, turn ++ rest, hadds.trans hadds', .cons hturn hrest⟩
    simp only [List.map_cons, hcrews]
    exact congrArg (· :: _) hcrew

section Lanes

variable {settings : FrameSettings} {s : Session F} (hlanes : s.lanes.length = s.layout.channels)

include hlanes

theorem runFrame_turned {farend : Option (List Int16)} {nearend : List Int16}
    {prepared : List (Lane F × Buffers)} (hprepared : prepared.map (·.1) = s.lanes)
    {r : Session F × Journal S × List Int16}
    (h : s.runFrame engines settings farend nearend prepared = .ok r) :
    s.Turned settings r.1 r.2.1 := by
  obtain ⟨lanes, outs, c, hran, rfl⟩ := runFrame_lanes hlanes hprepared h
  obtain ⟨hcrews, calls, hadds, hturn⟩ := hran.turns
  rw [hprepared] at hcrews hturn
  refine ⟨rfl, rfl, hcrews, hadds.tame (by simp), [calls], ?_, ?_⟩
  · simpa [Journal.calls] using hadds.calls
  · rintro _ (_ | ⟨_, ⟨⟩⟩)
    exact hturn

theorem runFrames_turned {frames : List (List Int16)} {farend : Option (List Int16)} {room : Nat}
    {run : Run S F} (h : runFrames engines settings frames farend room s = .ok run) :
    s.Turned settings run.session run.journal := by
  induction frames generalizing s farend room run with
  | nil =>
    obtain rfl := Except.ok.inj h
    exact .refl s
  | cons near frames ih =>
    rw [runFrames] at h
    split at h
    · obtain rfl := Except.ok.inj h
      exact .refl s
    obtain ⟨prepared, hprepared, h⟩ := bind_eq_ok.mp h
    cases prepared with
    | error e =>
      obtain rfl := Except.ok.inj h
      exact .refl s
    | ok prepared =>
      obtain ⟨⟨t, journal, heard⟩, hframe, h⟩ := bind_eq_ok.mp h
      have hturned := runFrame_turned engines hlanes (prepareLanes_lanes hprepared) hframe
      dsimp only at h
      split at h
      · obtain rfl := Except.ok.inj h
        exact hturned
      · obtain ⟨rest, hrest, h⟩ := bind_eq_ok.mp h
        obtain rfl := Except.ok.inj h
        have hcounted : s.Turned settings (t.countFrame settings) journal := hturned.congr rfl rfl rfl
        exact hcounted.trans (ih (hcounted.lanes hlanes) hrest)

/-- Processing makes the calls of its frames. -/
theorem process_turned {farend : Option (List Int16)} {nearend out : List Int16}
    {r : Session F × Journal S × List Int16 × Except Error Nat}
    (h : s.process engines settings farend nearend out = .ok r) :
    s.Turned settings r.1 r.2.1 := by
  rw [process] at h
  split at h
  · obtain rfl := Except.ok.inj h
    exact .refl s
  split at h
  · simp at h
  obtain ⟨run, hrun, h⟩ := bind_eq_ok.mp h
  obtain rfl := Except.ok.inj h
  exact runFrames_turned engines hlanes hrun

theorem produce_turned {budget missing : Nat} {made : Produced S F}
    (h : produce engines settings budget missing s = .ok made) :
    s.Turned settings made.session made.journal := by
  induction budget generalizing s missing made with
  | zero =>
    obtain rfl := Except.ok.inj h
    exact .refl s
  | succ budget ih =>
    rw [produce] at h
    split at h
    · obtain rfl := Except.ok.inj h
      exact .refl s
    have hread := readFrame_turned (S := S) settings s
    generalize s.readFrame (S := S) = read at h hread
    obtain ⟨⟨t, run, out, result⟩, hprocess, h⟩ := bind_eq_ok.mp h
    have ht := hread.trans (process_turned engines (hread.lanes hlanes) hprocess)
    cases result with
    | error e =>
      obtain rfl := Except.ok.inj h
      exact ht
    | ok written =>
      have hnext := ht.convertOutput (out.take written)
      dsimp only at h
      generalize t.convertOutput (out.take written) = conversion at h hnext
      obtain ⟨u, bytes, converted⟩ := conversion
      cases converted with
      | error e =>
        obtain rfl := Except.ok.inj h
        exact hnext
      | ok done =>
        obtain ⟨rest, hrest, h⟩ := bind_eq_ok.mp h
        obtain rfl := Except.ok.inj h
        exact hnext.trans (ih (hnext.lanes hlanes) hrest)

theorem tryProcess_turned {dest : List UInt8}
    {r : Session F × Journal S × List UInt8 × Except Error Nat}
    (h : s.tryProcess engines settings dest = .ok r) : s.Turned settings r.1 r.2.1 := by
  obtain ⟨made, hmade, h⟩ := bind_eq_ok.mp h
  have hturned := produce_turned engines hlanes hmade
  dsimp only at h
  split at h
  · obtain rfl := Except.ok.inj h
    exact hturned.congr rfl rfl rfl
  · obtain rfl := Except.ok.inj h
    exact hturned.congr rfl rfl rfl

end Lanes

end Session

end Duplex
