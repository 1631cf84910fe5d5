import Duplex.Proofs.Silence
import Duplex.Proofs.Switching

/-!
# Seamless patterns: when switching echo cancellation is not heard

Whether echo cancellation succeeds on a frame decides which of two filters merges it. A pattern of
successes is `Seamless` if a lane is heard, whatever it is given, as a single frame that is filled and
read again and again. With one band every pattern is; with more bands those patterns are in which all
frames go the same way (`seamless_iff`). At the first change of any other pattern the filter that
takes over has not merged the frames before, and a pulse at the end of the last of them is lost.
-/

namespace Duplex

open Signal Engine

variable {n b : Nat}

namespace Histories

variable {f : SplittingFilter}

/-- Three filters that were just made. -/
def fresh (f : SplittingFilter) : Histories := ⟨f, f, f⟩

@[simp] theorem merger_fresh (f : SplittingFilter) (marked : Bool) : (fresh f).merger marked = f := by
  cases marked <;> rfl

@[simp] theorem remember_fresh (f : SplittingFilter) (marked : Bool) :
    (fresh f).remember marked f f = fresh f := by
  cases marked <;> rfl

theorem of_fresh (f : SplittingFilter) : (fresh f).Of f f := ⟨rfl, rfl, rfl⟩

/-- For fresh filters it does not matter which one merges, as long as it is the same one. -/
theorem play_fresh (marked : Bool) (frames : List (List Int16)) :
    (fresh f).play (frames.map (marked, ·)) = (fresh f).play (frames.map (false, ·)) := by
  cases marked with
  | true => exact play_swap frames (fresh f)
  | false => rfl

section Silence

variable (hrests : f.Rests n)

include hrests

/-- A silent frame is heard as silence and leaves fresh filters fresh. -/
theorem step_silence (marked : Bool) :
    (fresh f).step marked (List.replicate n 0) = .ok (fresh f, List.replicate n 0) := by
  have hwiden : (List.replicate n (0 : Int16)).map Pcm.widen = List.replicate n 0 := by
    rw [List.map_replicate, show Pcm.widen 0 = 0 by decide +kernel]
  have hround : (List.replicate n (0 : Float32)).map Pcm.round = List.replicate n 0 := by
    rw [List.map_replicate, show Pcm.round 0 = 0 by decide +kernel]
  have hsplit : (fresh f).splitting.splitOne ((List.replicate n 0).map Pcm.widen) =
      .ok (f, List.replicate n 0) := hwiden.symm ▸ hrests.split
  have hmerge : ((fresh f).merger marked).mergeOne (List.replicate n 0) =
      .ok (f, List.replicate n 0) := (merger_fresh f marked).symm ▸ hrests.merge
  rw [step_eq hsplit hmerge, remember_fresh, hround]

theorem play_silence {marked : Bool} {k : Nat} {frames : List (Bool × List Int16)}
    {outs : List (List Int16)}
    (h : (fresh f).play (List.replicate k (marked, List.replicate n 0) ++ frames) = .ok outs) :
    ∃ rest, (fresh f).play frames = .ok rest ∧
      outs = List.replicate k (List.replicate n 0) ++ rest := by
  induction k generalizing outs with
  | zero => exact ⟨outs, h, rfl⟩
  | succ k ih =>
    obtain ⟨h', out, rest, hstep, hrest, rfl⟩ := play_cons_eq_ok.mp h
    rw [step_silence hrests, Except.ok.injEq, Prod.mk.injEq] at hstep
    obtain ⟨rfl, rfl⟩ := hstep
    obtain ⟨tail, htail, rfl⟩ := ih hrest
    exact ⟨tail, htail, rfl⟩

end Silence

/-- A frame that rings, and the silence after it: if the merging filter changes in between, the
second frame is heard as something else than if it does not. -/
theorem play_rings {pulse : List Int16} (hpulse : pulse.length = n)
    (hrings : f.Rings (pulse.map Pcm.widen)) :
    ∃ first kept lost : List Int16, kept ≠ lost ∧
      ∀ (marked next : Bool) (frames : List (Bool × List Int16)) (outs : List (List Int16)),
        (fresh f).play ((marked, pulse) :: (next, List.replicate n 0) :: frames) = .ok outs →
          ∃ rest, outs = first :: (if next = marked then kept else lost) :: rest := by
  obtain ⟨f₁, f₂, g₁, g₂, g, bands₁, bands₂, first, kept, lost, hsplit₁, hsplit₂, hmerge, hkeep, hlose,
    hne⟩ := hrings
  have hsilence : (List.replicate n (0 : Int16)).map Pcm.widen =
      List.replicate (pulse.map Pcm.widen).length 0 := by
    rw [List.map_replicate, List.length_map, hpulse, show Pcm.widen 0 = 0 by decide +kernel]
  refine ⟨first.map Pcm.round, kept.map Pcm.round, lost.map Pcm.round, hne, ?_⟩
  intro marked next frames outs houts
  obtain ⟨h', out, tail, hstep, hrest, rfl⟩ := play_cons_eq_ok.mp houts
  obtain ⟨h'', out', rest, hstep', -, rfl⟩ := play_cons_eq_ok.mp hrest
  have hfirst := step_eq (h := fresh f) hsplit₁ ((merger_fresh f marked).symm ▸ hmerge)
  obtain ⟨rfl, rfl⟩ := Prod.mk.inj (Except.ok.inj (hstep.symm.trans hfirst))
  rw [← hsilence] at hsplit₂
  refine ⟨rest, ?_⟩
  by_cases hsame : next = marked
  · have hmerger : ((fresh f).remember marked f₁ g₁).merger next = g₁ := by
      rw [merger_remember, if_pos hsame]
    have hnext := step_eq (by rw [splitting_remember]; exact hsplit₂) (hmerger.symm ▸ hkeep)
    obtain ⟨-, rfl⟩ := Prod.mk.inj (Except.ok.inj (hstep'.symm.trans hnext))
    rw [if_pos hsame]
  · have hmerger : ((fresh f).remember marked f₁ g₁).merger next = f := by
      rw [merger_remember, if_neg hsame, merger_fresh]
    have hnext := step_eq (by rw [splitting_remember]; exact hsplit₂) (hmerger.symm ▸ hlose)
    obtain ⟨-, rfl⟩ := Prod.mk.inj (Except.ok.inj (hstep'.symm.trans hnext))
    rw [if_neg hsame]

/-- Whatever a filter that rests is given behind, a frame that rings tells apart whether the merging
filter changes behind it. -/
theorem play_switch (hrests : f.Rests n) {pulse : List Int16} (hpulse : pulse.length = n)
    (hrings : f.Rings (pulse.map Pcm.widen)) {k : Nat} {marked : Bool}
    {frames frames' : List (Bool × List Int16)} {outs outs' : List (List Int16)}
    (hswitch : (fresh f).play (List.replicate k (marked, List.replicate n 0) ++
      (marked, pulse) :: (!marked, List.replicate n 0) :: frames) = .ok outs)
    (hstay : (fresh f).play (List.replicate k (false, List.replicate n 0) ++
      (false, pulse) :: (false, List.replicate n 0) :: frames') = .ok outs') : outs ≠ outs' := by
  obtain ⟨first, kept, lost, hne, hplays⟩ := play_rings hpulse hrings
  obtain ⟨tail, htail, rfl⟩ := play_silence hrests hswitch
  obtain ⟨tail', htail', rfl⟩ := play_silence hrests hstay
  obtain ⟨rest, rfl⟩ := hplays _ _ _ _ htail
  obtain ⟨rest', rfl⟩ := hplays _ _ _ _ htail'
  intro heq
  have heq := (List.append_cancel_left heq)
  rw [if_neg (by simp), if_pos rfl, List.cons.injEq, List.cons.injEq] at heq
  exact hne heq.2.1.symm

end Histories

/-! ### Lanes of one band -/

namespace SubbandFrame

/-- With one band, relaying gives what it is given. -/
theorem relay_of_whole {f : SubbandFrame} (h : f.Shaped n 1) (frames : List (List Int16)) :
    f.relay frames = .ok (frames.map (fit n 0)) := by
  induction frames generalizing f with
  | nil => rfl
  | cons samples frames ih =>
    have hsplit := h.split_eq_none
    obtain ⟨r, hr, hshape⟩ := fill_returns h (.inl rfl) samples
    have hdest : (List.replicate r.frames (0 : Int16)).length = (fit n 0 samples).length := by
      rw [List.length_replicate, hshape.frames, length_fit]
    have hholds : r.storage.Holds (fit n 0 samples) := by
      rw [fill_of_whole h hsplit] at hr
      obtain rfl := Except.ok.inj hr
      have hwritten := h.full.write_holds (S := Int16) (length_fit n 0 samples)
      rw [map_embed_int16] at hwritten
      rw [storage, hsplit]
      exact hwritten
    have hread := readInto_of_holds hshape.split_eq_none hholds hdest
    obtain ⟨q, hq, hshape', -⟩ := readInto_returns hshape (.inl rfl)
      (show (List.replicate r.frames (0 : Int16)).length = n by rw [hdest, length_fit])
    obtain rfl := Except.ok.inj (hq.symm.trans hread)
    rw [relay, hr, ok_bind, hread, ok_bind, ih hshape']
    rfl

end SubbandFrame

namespace Lane

variable {F : Family}

theorem play_of_whole {S : Type} [Sample S] [Sample.Exact S] {engines : Engines S F}
    (hcopies : engines.Copies) {p : Passage S F} (hs : p.buffers.Shaped n 1) {inputs : List Input}
    (hinputs : ∀ i ∈ inputs, i.settings.frames = n) :
    Returns (play engines inputs p) fun outs =>
      outs.map (·.2) = inputs.map fun i => fit n 0 i.nearend := by
  induction inputs generalizing p with
  | nil => exact returns_ok rfl
  | cons i inputs ih =>
    obtain ⟨r, hr, hshape, -, hheard⟩ :=
      process_passes hcopies hs (hinputs i List.mem_cons_self) i.farend i.nearend
    obtain ⟨q, hq, -⟩ := load_returns hs (.inl rfl) i.farend i.nearend
    rw [play, cancels, hq, hr]
    refine (ih hshape fun i' hi' => hinputs i' (List.mem_cons_of_mem i hi')).map fun outs houts => ?_
    rw [List.map_cons, List.map_cons, houts, hheard]

/-! ### Bypass engines -/

section Bypass

variable {settings : FrameSettings} {p q : Passage Float32 Bypass.family} {rate : Nat}

/-- A bypass echo canceller succeeds whenever it is switched on. -/
theorem runStages_bypass (rate : Nat) (hecho : p.lane.echo.isSome) (hgain : settings.gain = false)
    (hnoise : settings.noise = false) :
    (p.runStages (Bypass.engines Float32 rate) settings).2 = settings.echo ∧
      (p.runStages (Bypass.engines Float32 rate) settings).1.lane.echo.isSome := by
  obtain ⟨e, he⟩ := Option.isSome_iff_exists.mp hecho
  unfold Passage.runStages
  simp only [hgain, hnoise]
  cases settings.echo with
  | true =>
    simp only [he]
    exact ⟨rfl, rfl⟩
  | false => exact ⟨rfl, hecho⟩

theorem load_lane {farend nearend : List Int16} (h : p.load settings farend nearend = .ok q) :
    q.lane = p.lane := by
  obtain ⟨near, -, h⟩ := bind_eq_ok.mp h
  obtain ⟨far, -, rfl⟩ := map_eq_ok.mp h
  rfl

theorem hear_lane {cancelled : Bool} {r : Passage Float32 Bypass.family × List Int16}
    (h : Passage.hear settings (p, cancelled) = .ok r) : r.1.lane = p.lane := by
  cases cancelled with
  | true =>
    obtain ⟨_, -, rfl⟩ := map_eq_ok.mp h
    rfl
  | false =>
    obtain ⟨_, -, rfl⟩ := map_eq_ok.mp h
    rfl

/-- In a lane with a bypass echo canceller, any pattern of successes comes about. -/
theorem play_bypass {inputs : List Input} {outs : List (Bool × List Int16)}
    (hecho : p.lane.echo.isSome)
    (hinputs : ∀ i ∈ inputs, i.settings.gain = false ∧ i.settings.noise = false)
    (hplay : play (Bypass.engines Float32 rate) inputs p = .ok outs) :
    outs.map (·.1) = inputs.map (·.settings.echo) := by
  induction inputs generalizing p outs with
  | nil => rw [← Except.ok.inj hplay]; rfl
  | cons i inputs ih =>
    obtain ⟨hgain, hnoise⟩ := hinputs i List.mem_cons_self
    obtain ⟨cancelled, hcancels, hplay⟩ := bind_eq_ok.mp hplay
    obtain ⟨r, hr, hplay⟩ := bind_eq_ok.mp hplay
    obtain ⟨rest, hrest, rfl⟩ := map_eq_ok.mp hplay
    obtain ⟨q, hq, rfl⟩ := map_eq_ok.mp hcancels
    obtain ⟨hflag, halive⟩ := runStages_bypass rate ((load_lane hq).symm ▸ hecho) hgain hnoise
    rw [process_eq, hq, ok_bind] at hr
    have hlane := hear_lane hr
    rw [List.map_cons, List.map_cons, hflag, ih (hlane ▸ halive) (fun i' hi' =>
      hinputs i' (List.mem_cons_of_mem i hi')) hrest]

end Bypass

/-! ### Patterns -/

/-- However frames without gain control are given to a lane and whatever copying engines do to them,
if echo cancellation succeeds on the frames as the pattern says then each frame is heard as it is
when a single frame is filled with it and read. -/
def Seamless (n b : Nat) (pattern : List Bool) : Prop :=
  ∀ (F : Family) (engines : Engines Float32 F), engines.Copies →
    ∀ (p : Passage Float32 F) (f : SubbandFrame), (Buffers.create n b).run = .ok (.ok p.buffers) →
      (SubbandFrame.create n b).run = .ok (.ok f) →
        ∀ inputs : List Input, (∀ i ∈ inputs, i.settings.frames = n ∧ i.settings.gain = false) →
          Returns (play engines inputs p) fun outs => outs.map (·.1) = pattern →
            f.relay (inputs.map (·.nearend)) = .ok (outs.map (·.2))

/-- All frames go the same way. -/
def Uniform (pattern : List Bool) : Prop := ∃ cancelled, ∀ c ∈ pattern, c = cancelled

/-- A pattern that starts one way either stays so or changes somewhere. -/
theorem uniform_or_switches (cancelled : Bool) (pattern : List Bool) :
    (∀ c ∈ pattern, c = cancelled) ∨
      ∃ k rest, pattern = List.replicate k cancelled ++ (!cancelled) :: rest := by
  induction pattern with
  | nil => exact .inl (by simp)
  | cons c pattern ih =>
    by_cases hc : c = cancelled
    · subst hc
      rcases ih with hall | ⟨k, rest, rfl⟩
      · exact .inl (by simpa using hall)
      · exact .inr ⟨k + 1, rest, rfl⟩
    · obtain rfl : c = !cancelled := Bool.eq_not.mpr hc
      exact .inr ⟨0, pattern, rfl⟩

theorem switches_of_not_uniform {pattern : List Bool} (h : ¬ Uniform pattern) :
    ∃ k cancelled rest, pattern = List.replicate k cancelled ++ cancelled :: (!cancelled) :: rest := by
  cases pattern with
  | nil => exact absurd ⟨true, by simp⟩ h
  | cons cancelled pattern =>
    rcases uniform_or_switches cancelled pattern with hall | ⟨k, rest, rfl⟩
    · exact absurd ⟨cancelled, by simpa using hall⟩ h
    · refine ⟨k, cancelled, rest, ?_⟩
      rw [← List.cons_append, ← List.replicate_succ, List.replicate_succ', List.append_assoc]
      rfl

/-- Frames that were made for a lane are alike. -/
theorem eq_of_create {bufs : Buffers} {f : SubbandFrame}
    (hbufs : (Buffers.create n b).run = .ok (.ok bufs))
    (hf : (SubbandFrame.create n b).run = .ok (.ok f)) : bufs = ⟨f, f, f⟩ := by
  obtain ⟨f', hf', hbufs⟩ := attempt_bind_eq_ok.mp hbufs
  obtain rfl : f' = f := Except.ok.inj (Except.ok.inj (hf'.symm.trans hf))
  exact (Except.ok.inj (Except.ok.inj hbufs)).symm

/-- Frames that were just made remember nothing. -/
theorem recalls_fresh {f : SubbandFrame} {g : SplittingFilter} (hs : f.Shaped n b)
    (hg : f.filter = some g) : (⟨f, f, f⟩ : Buffers).Recalls n b (.fresh g) :=
  ⟨⟨hs, hs, hs⟩, g, g, hg, hg, Histories.of_fresh g⟩

/-- A lane with a bypass echo canceller. -/
def bypass (f : SubbandFrame) : Passage Float32 Bypass.family where
  lane := { new 0 with echo := some ⟨0, ()⟩ }
  buffers := ⟨f, f, f⟩
  micLevel := 0
  stats := {}
  journal := []

/-- Nearend samples, with or without echo cancellation against a silent farend. -/
def Input.plain (n b : Nat) (echo : Bool) (nearend : List Int16) : Input where
  settings :=
    { frames := n, bands := b, gain := false, noise := false, echo, farend := echo, delay := 0 }
  farend := []
  nearend

section Fresh

variable (hb : 1 ≤ b ∧ b ≤ 3) (hd : b ∣ n) (hn : n < storageLimit) {pattern : List Bool}

include hb hd hn

/-- With one band every pattern is seamless. -/
theorem seamless_of_whole (hone : b = 1) : Seamless n b pattern := by
  subst hone
  obtain ⟨f, hf, hshape, -⟩ := SubbandFrame.create_returns hb hd hn
  intro F engines hcopies p f' hbufs hf' inputs hinputs
  obtain rfl : f = f' := Except.ok.inj (Except.ok.inj (hf.symm.trans hf'))
  have hshapes : p.buffers.Shaped n 1 := eq_of_create hbufs hf ▸ ⟨hshape, hshape, hshape⟩
  refine (play_of_whole hcopies hshapes fun i hi => (hinputs i hi).1).mono fun outs houts _ => ?_
  rw [SubbandFrame.relay_of_whole hshape, houts, List.map_map]
  rfl

/-- With several bands uniform patterns are seamless. -/
theorem seamless_of_uniform (hw : Workable n b) (hseveral : b ≠ 1) (huniform : Uniform pattern) :
    Seamless n b pattern := by
  obtain ⟨f, hf, hshape, hfilter⟩ := SubbandFrame.create_returns hb hd hn
  obtain ⟨g, -, hg⟩ := hfilter hseveral
  intro F engines hcopies p f' hbufs hf' inputs hinputs
  obtain rfl : f = f' := Except.ok.inj (Except.ok.inj (hf.symm.trans hf'))
  have hrecalls : p.buffers.Recalls n b (.fresh g) :=
    eq_of_create hbufs hf ▸ recalls_fresh hshape hg
  refine (play_plays hcopies hw hd hrecalls hinputs).mono fun outs ⟨hplay, hlen⟩ hpattern => ?_
  obtain ⟨relayed, hrelay, hrelayed⟩ :=
    Histories.relay_plays hshape hw hd hg (Histories.of_fresh g) (inputs.map (·.nearend))
  obtain ⟨cancelled, hall⟩ := huniform
  have hmarks : outs.map (·.1) = (inputs.map fun i => fit n 0 i.nearend).map fun _ => cancelled := by
    rw [List.map_const', List.eq_replicate_iff]
    exact ⟨by simp [hlen], fun c hc => hall c (hpattern ▸ hc)⟩
  rw [hmarks, ← List.map_prod_right_eq_zip, Histories.play_fresh] at hplay
  rw [List.map_map] at hrelayed hplay
  rw [hrelay]
  exact hrelayed.symm.trans hplay

/-- On a shape that cannot be split no pattern is, as no frame is processed. -/
theorem not_seamless_of_fault (hw : ¬ Workable n b) : ¬ Seamless n b pattern := by
  obtain ⟨f, hf, hshape, -⟩ := SubbandFrame.create_returns hb hd hn
  have hbufs : (Buffers.create n b).run = .ok (.ok (bypass f).buffers) :=
    attempt_bind_eq_ok.mpr ⟨f, hf, rfl⟩
  intro hseamless
  obtain ⟨outs, houts, -⟩ := hseamless Bypass.family (Bypass.engines Float32 0)
    (Bypass.engines_copies Float32 0) (bypass f) f hbufs hf [.plain n b false []]
    (by simp [Input.plain])
  obtain ⟨cancelled, hcancels, -⟩ := bind_eq_ok.mp houts
  obtain ⟨q, hq, -⟩ := map_eq_ok.mp hcancels
  obtain ⟨near, hnear, -⟩ := bind_eq_ok.mp hq
  rw [SubbandFrame.fill_fault (f := (bypass f).buffers.nearend) hshape hw] at hnear
  simp at hnear

omit hb hn in
/-- If a pattern is seamless, fresh filters do with its marks what they do without. -/
theorem Seamless.play_fresh (hw : Workable n b) {f : SubbandFrame} {g : SplittingFilter}
    (hf : (SubbandFrame.create n b).run = .ok (.ok f)) (hs : f.Shaped n b) (hg : f.filter = some g)
    {frames : List (Bool × List Int16)} (hframes : ∀ frame ∈ frames, frame.2.length = n)
    (hseamless : Seamless n b (frames.map (·.1))) :
    ∃ outs, (Histories.fresh g).play frames = .ok outs ∧
      (Histories.fresh g).play (frames.map fun frame => (false, frame.2)) = .ok outs := by
  have hbufs : (Buffers.create n b).run = .ok (.ok (bypass f).buffers) :=
    attempt_bind_eq_ok.mpr ⟨f, hf, rfl⟩
  have hfit : ∀ frame ∈ frames, fit n 0 frame.2 = frame.2 := fun frame hframe =>
    fit_of_length_eq (hframes frame hframe)
  obtain ⟨inputs, hinputs⟩ : ∃ inputs, frames.map (fun x => Input.plain n b x.1 x.2) = inputs :=
    ⟨_, rfl⟩
  have hplain : ∀ i ∈ inputs, (i.settings.frames = n ∧ i.settings.gain = false) ∧
      i.settings.noise = false := by
    intro i hi
    rw [← hinputs] at hi
    obtain ⟨_, -, rfl⟩ := List.mem_map.mp hi
    exact ⟨⟨rfl, rfl⟩, rfl⟩
  have hcopies := Bypass.engines_copies Float32 0 (R := Resample.spectral)
  have hrecalls : (bypass f).buffers.Recalls n b (.fresh g) := recalls_fresh hs hg
  obtain ⟨outs, houts, hrelay⟩ := hseamless _ _ hcopies (bypass f) f hbufs hf inputs
    fun i hi => (hplain i hi).1
  have hmarks : outs.map (·.1) = frames.map (·.1) := by
    rw [play_bypass rfl (fun i hi => ⟨(hplain i hi).1.2, (hplain i hi).2⟩) houts, ← hinputs,
      List.map_map]
    rfl
  obtain ⟨outs', houts', hplay, -⟩ :=
    play_plays hcopies hw hd hrecalls fun i hi => (hplain i hi).1
  obtain rfl : outs = outs' := Except.ok.inj (houts.symm.trans houts')
  refine ⟨outs.map (·.2), ?_, ?_⟩
  · have hnear : inputs.map (fun i => fit n 0 i.nearend) = frames.map (·.2) := by
      rw [← hinputs, List.map_map]
      exact List.map_congr_left hfit
    rw [hmarks, hnear, ← List.zip_of_prod rfl rfl] at hplay
    exact hplay
  · obtain ⟨relayed, hrelayed, hplayed⟩ :=
      Histories.relay_plays hs hw hd hg (Histories.of_fresh g) (inputs.map (·.nearend))
    have hnear : (inputs.map (·.nearend)).map (fun x => (false, fit n 0 x)) =
        frames.map fun frame => (false, frame.2) := by
      rw [← hinputs, List.map_map, List.map_map]
      exact List.map_congr_left fun frame hframe => congrArg (false, ·) (hfit frame hframe)
    rw [hrelay hmarks, Except.ok.injEq] at hrelayed
    rw [← hnear, hplayed, hrelayed]

/-- With several bands a pulse in front of the first change is lost. -/
theorem not_seamless_of_switch (hw : Workable n b) (hseveral : b ≠ 1) (h : ¬ Uniform pattern) :
    ¬ Seamless n b pattern := by
  obtain ⟨f, hf, hshape, hfilter⟩ := SubbandFrame.create_returns hb hd hn
  obtain ⟨g, hg, hfg⟩ := hfilter hseveral
  obtain ⟨g', pulse, hg', hrests, hpulse, hrings⟩ := SplittingFilter.create_rings hw hd hseveral
  obtain rfl : g = g' := Except.ok.inj (hg.symm.trans hg')
  obtain ⟨k, cancelled, rest, rfl⟩ := switches_of_not_uniform h
  intro hseamless
  obtain ⟨frames, hframes⟩ : ∃ frames, List.replicate k (cancelled, List.replicate n (0 : Int16)) ++
    (cancelled, pulse) :: (!cancelled, List.replicate n 0) :: rest.map (·, List.replicate n 0) =
      frames := ⟨_, rfl⟩
  have hwhole : ∀ frame ∈ frames, frame.2.length = n := by
    intro frame hframe
    rw [← hframes] at hframe
    simp only [List.mem_append, List.mem_cons, List.mem_map] at hframe
    rcases hframe with hframe | rfl | rfl | ⟨_, -, rfl⟩
    · rw [List.eq_of_mem_replicate hframe]
      exact List.length_replicate
    · exact hpulse
    · exact List.length_replicate
    · exact List.length_replicate
  have hmarks : List.replicate k cancelled ++ cancelled :: (!cancelled) :: rest =
      frames.map (·.1) := by
    rw [← hframes]
    simp [Function.comp_def]
  rw [hmarks] at hseamless
  obtain ⟨outs, hswitch, hstay⟩ := hseamless.play_fresh hd hw hf hshape hfg hwhole
  rw [← hframes] at hswitch hstay
  rw [List.map_append, List.map_replicate, List.map_cons, List.map_cons] at hstay
  exact Histories.play_switch hrests hpulse hrings hswitch hstay rfl

/-- A pattern is seamless exactly if the shape can be split and there is only one band or all frames
go the same way. -/
theorem seamless_iff : Seamless n b pattern ↔ Workable n b ∧ (b = 1 ∨ Uniform pattern) := by
  constructor
  · intro hseamless
    have hw : Workable n b := by
      by_contra hbad
      exact not_seamless_of_fault hb hd hn hbad hseamless
    refine ⟨hw, ?_⟩
    by_cases hone : b = 1
    · exact .inl hone
    refine .inr ?_
    by_contra hbad
    exact not_seamless_of_switch hb hd hn hw hone hbad hseamless
  · rintro ⟨hw, h⟩
    by_cases hone : b = 1
    · exact seamless_of_whole hb hd hn hone
    · exact seamless_of_uniform hb hd hn hw hone (h.resolve_left hone)

end Fresh

/-- At 32 kHz. -/
theorem seamless_iff_two_bands :
    Workable 320 2 ∧ Seamless 320 2 [true, true] ∧ ¬ Seamless 320 2 [false, true] := by
  have hb : 1 ≤ 2 ∧ 2 ≤ 3 := by decide
  have hd : 2 ∣ 320 := by decide
  have hn : 320 < storageLimit := by decide
  have hw : Workable 320 2 := .inr (.inl ⟨rfl, by decide⟩)
  refine ⟨hw, (seamless_iff hb hd hn).mpr ⟨hw, .inr ⟨true, by simp⟩⟩, ?_⟩
  intro hseamless
  obtain ⟨-, hone | ⟨cancelled, hall⟩⟩ := (seamless_iff hb hd hn).mp hseamless
  · exact absurd hone (by decide)
  · exact absurd ((hall false (by simp)).trans (hall true (by simp)).symm) (by decide)

/-- A pulse at the end of a frame without echo cancellation, and a silent frame with it: in the
second frame, the second sample of what is heard of the pulse is 2623 where it should be 3395. -/
theorem pulse_lost :
    ∃ (f : SubbandFrame) (outs : List (Bool × List Int16)) (relayed : List (List Int16)),
      (SubbandFrame.create 320 2).run = .ok (.ok f) ∧
        play (Bypass.engines Float32 48000)
          [.plain 320 2 false (List.replicate 319 0 ++ [20000]),
            .plain 320 2 true (List.replicate 320 0)] (bypass f) = .ok outs ∧
        outs.map (·.1) = [false, true] ∧
        f.relay [List.replicate 319 0 ++ [20000], List.replicate 320 0] = .ok relayed ∧
        outs.map (·.2) ≠ relayed := by
  obtain ⟨f, hf⟩ : ∃ f, (SubbandFrame.create 320 2).run = .ok (.ok f) := ⟨_, rfl⟩
  have hvalues : ((SubbandFrame.create 320 2).run >>= fun
      | .error _ => .error .outOfRange
      | .ok f =>
        play (Bypass.engines Float32 48000)
          [.plain 320 2 false (List.replicate 319 0 ++ [20000]),
            .plain 320 2 true (List.replicate 320 0)] (bypass f) >>= fun outs =>
          f.relay [List.replicate 319 0 ++ [20000], List.replicate 320 0] >>= fun relayed =>
            .ok (outs.map (·.1), (outs.map (·.2))[1]?.bind (·[1]?), relayed[1]?.bind (·[1]?))) =
      .ok ([false, true], some 2623, some 3395) := by
    decide +kernel
  rw [hf, ok_bind] at hvalues
  obtain ⟨outs, houts, hvalues⟩ := bind_eq_ok.mp hvalues
  obtain ⟨relayed, hrelayed, hvalues⟩ := bind_eq_ok.mp hvalues
  rw [Except.ok.injEq, Prod.mk.injEq, Prod.mk.injEq] at hvalues
  obtain ⟨hmarks, hlost, hkept⟩ := hvalues
  refine ⟨f, outs, relayed, hf, houts, hmarks, hrelayed, ?_⟩
  intro heq
  rw [heq, hkept] at hlost
  exact absurd hlost (by decide)

end Lane

end Duplex
