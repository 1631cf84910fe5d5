import Duplex.Proofs.Staffing

/-!
# The protocol of calls on engines

Over every run of calls on a context, and with engines and a factory that may fail at any time, the
calls on each engine are `Proper` and the calls of frames `Orderly`: they are made for audio that is
processed, on stages that are switched on and healthy, and in the order of the lanes and stages.
-/

namespace Duplex

open Engine

variable {S : Type} {F : Family}

namespace Context

/-- What a call on a context asks of its engines for frames, when it adds the given events to the
journal. -/
structure Orderly (c : Context S F) (op : Operation) (events : Journal S) : Prop where
  /-- A call of a frame is made while audio is processed, on a stage that is switched on and healthy;
  echo is cancelled only if there is farend and both directions are ready. -/
  guarded : ∀ number request ok, .called number request ok ∈ events → request.purpose = .frame →
    ∃ farend s, op.farend? = some farend ∧ c.session = some s ∧
      c.requested.get request.stage = true ∧ s.healthy.get request.stage = true ∧
      (request.stage = .echo → farend = true ∧ c.farendReady = true ∧ c.nearendReady = true)
  /-- If there are calls of frames, all calls are, and each frame goes through the lanes in the order
  of their channels, and in each through the stages that are on. -/
  ordered : (∀ e ∈ events, e.isFrame = false) ∨ ∃ farend s, ∃ frames : List (Journal S),
    op.farend? = some farend ∧ c.session = some s ∧
      s.crews.map (·.1) = List.range s.layout.channels ∧ events.calls = frames.flatten ∧
      ∀ frame ∈ frames, FrameTurn (c.frameSettings s farend) s.crews frame

variable {engines : Engines S F} {c c' : Context S F} {s t : Session F}

/-- What runs on a frame is switched on and healthy. -/
theorem runs_frameSettings (hs : c.session = some s) {farend : Bool} {stage : Stage}
    (h : (c.frameSettings s farend).runs stage = true) :
    c.requested.get stage = true ∧ s.healthy.get stage = true ∧
      (stage = .echo → farend = true ∧ c.farendReady = true ∧ c.nearendReady = true) := by
  have henabled (stage : Stage) (h : c.stageEnabled stage = true) :
      c.requested.get stage = true ∧ s.healthy.get stage = true := by
    simpa [stageEnabled, hs] using h
  cases stage with
  | echo =>
    have h : (farend && ((c.farendReady && c.nearendReady) && c.stageEnabled .echo)) = true := h
    simp only [Bool.and_eq_true] at h
    obtain ⟨hfarend, ⟨hfar, hnear⟩, hecho⟩ := h
    exact ⟨(henabled .echo hecho).1, (henabled .echo hecho).2, fun _ => ⟨hfarend, hfar, hnear⟩⟩
  | noise => exact ⟨(henabled .noise h).1, (henabled .noise h).2, by simp⟩
  | gain => exact ⟨(henabled .gain h).1, (henabled .gain h).2, by simp⟩

theorem Tended.orderly (h : c.Tended c') (op : Operation) :
    ∃ events, c'.workshop.journal = c.workshop.journal ++ events ∧ c.Orderly op events := by
  obtain ⟨events, hjournal, hframe⟩ := h.journal
  refine ⟨events, hjournal, fun number request ok hmem hpurpose => ?_, .inl hframe⟩
  have hfalse := hframe _ hmem
  simp [Event.isFrame, hpurpose] at hfalse

theorem orderly_of_turned (hstaffed : c.Staffed) (hs : c.session = some s) {op : Operation}
    {farend : Bool} (hop : op.farend? = some farend) {events : Journal S}
    (h : s.Turned (c.frameSettings s farend) t events) : c.Orderly op events where
  guarded number request ok hmem hpurpose := by
    obtain ⟨crew, -, stage, _, _, _, ⟨⟩, -, rfl, hslot⟩ := h.onSlot hmem rfl
    exact ⟨farend, s, hop, hs, runs_frameSettings hs (duty_eq_some.mp hslot).1⟩
  ordered := by
    obtain ⟨frames, hcalls, hframes⟩ := h.turns
    have hchannels : s.crews.map (·.1) = List.range s.layout.channels := by
      rw [Session.crews, List.map_map]
      exact (hstaffed.session s hs).channels
    exact .inr ⟨farend, s, frames, hop, hs, hchannels, hcalls, hframes⟩

variable [Sample S]

/-- In every reachable state, each engine that was made was set up first and then configured, took
calls of frames only after both had succeeded, and none after a set-up or a configuration that failed;
and every call on the context asks for frames in order. -/
theorem calls_follow_protocol (h : c.Reachable engines) :
    (∀ id : EngineId, .made id.stage id.number true ∈ c.workshop.journal →
      Proper (c.workshop.journal.callsOn id)) ∧
    (∀ id : EngineId, .made id.stage id.number true ∉ c.workshop.journal →
      c.workshop.journal.callsOn id = []) ∧
    ∀ op c' answer, c.apply engines op = .ok (c', answer) →
      ∃ events, c'.workshop.journal = c.workshop.journal ++ events ∧ c.Orderly op events := by
  have hstaffed := h.staffed engines
  refine ⟨fun id hid => hstaffed.accounts.proper hid,
    fun id hid => hstaffed.accounts.callsOn_eq_nil hid, fun op c' answer happly => ?_⟩
  obtain htended | ⟨farend, s, t, events, hop, hs, rfl, hturned⟩ :=
    apply_cases engines hstaffed happly
  · exact htended.orderly op
  · exact ⟨events, rfl, orderly_of_turned hstaffed hs hop hturned⟩

set_option maxRecDepth 12000 in
/-- A noise suppressor that will not learn from the frame: a silent frame is processed, and the
suppressor takes one call after its set-up and its configuration. -/
theorem calls_follow_protocol_scripted :
    ∃ (c : Context Int16 (Scripted.family Int16)),
      c.Reachable (Scripted.engines Int16 ⟨{}, { beforeError := some 7 }, {}⟩ 48000) ∧
        .made .noise 0 true ∈ c.workshop.journal ∧
        Proper (c.workshop.journal.callsOn ⟨.noise, 0⟩) ∧
        (c.workshop.journal.callsOn ⟨.noise, 0⟩).map (·.2) = [true, true, false] := by
  obtain ⟨c, t, hrun, hmade, hcalls⟩ : ∃ (c : Context Int16 (Scripted.family Int16)) (t : Transcript),
      (new {} ()).run (Scripted.engines Int16 ⟨{}, { beforeError := some 7 }, {}⟩ 48000)
          [.init 1 8000 8000 0, .process none (List.replicate 80 0) (List.replicate 80 0)] =
          .ok (c, t) ∧
        c.workshop.journal[4]? = some (.made .noise 0 true) ∧
        (c.workshop.journal.callsOn ⟨.noise, 0⟩).map (·.2) = [true, true, false] :=
    ⟨_, _, rfl, rfl, rfl⟩
  have hmade : .made .noise 0 true ∈ c.workshop.journal := List.mem_of_getElem? hmade
  have hreach : c.Reachable (Scripted.engines Int16 ⟨{}, { beforeError := some 7 }, {}⟩ 48000) :=
    ⟨{}, (), _, t, hrun⟩
  exact ⟨c, hreach, hmade, (calls_follow_protocol hreach).1 ⟨.noise, 0⟩ hmade, hcalls⟩

end Context

end Duplex
