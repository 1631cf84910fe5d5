import Duplex.Proofs.Cuts

/-!
# Separation: channels and directions share nothing

A splitting filter for several channels keeps a filter for each of them, which remembers what it has
split apart from what it has merged. `ChannelBuffer.only` is one channel of a buffer as a buffer of its
own. A call does to each channel what the filter of that channel does to it alone (`call_only`), and it
neither looks at what is remembered of the other direction (`call_remembered`) nor changes it
(`call_keeps`). Runs of calls inherit both, so that a filter for several channels is as many filters,
and each of them is two (`SplittingFilter.calls_are_independent`).
-/

namespace Duplex

open Signal Duplex.Filter

/-! ### One channel of a buffer -/

namespace ChannelBuffer

variable {α : Type} {x y : ChannelBuffer α} {c n b : Nat}

/-- One channel of a buffer as a buffer of its own. A buffer without that channel stays as it is. -/
def only (x : ChannelBuffer α) (c : Nat) : ChannelBuffer α :=
  if h : c < x.channels then
    { frames := x.frames, channels := 1, bands := x.bands, data := x.samplesOf c
      bands_pos := x.bands_pos, channels_pos := Nat.one_pos, bands_dvd := x.bands_dvd
      length_data := by rw [length_samplesOf h, Nat.mul_one] }
  else x

theorem only_hasShape (h : c < x.channels) : (x.only c).HasShape x.frames x.bands := by
  rw [only, dif_pos h]
  exact ⟨rfl, rfl, rfl⟩

theorem only_data (h : c < x.channels) : (x.only c).data = x.samplesOf c := by rw [only, dif_pos h]

/-- A channel is known by its shape and its samples. -/
theorem eq_only (h : c < x.channels) (hy : y.HasShape x.frames x.bands) (hdata : y.data = x.samplesOf c) :
    y = x.only c := by
  have hx := only_hasShape h
  exact ChannelBuffer.ext (hy.frames.trans hx.frames.symm) (hy.channels.trans hx.channels.symm)
    (hy.bands.trans hx.bands.symm) (hdata.trans (only_data h).symm)

end ChannelBuffer

namespace SplittingFilter

variable {n b c : Nat} {f f' g : SplittingFilter}

/-! ### Calls -/

/-- Which way a filter is used. -/
inductive Direction where
  | split
  | merge
  deriving DecidableEq, Repr

def Direction.other : Direction → Direction
  | split => merge
  | merge => split

theorem Direction.eq_other {c d : Direction} (h : c ≠ d) : d = c.other := by
  cases c <;> cases d <;> first | rfl | exact absurd rfl h

/-- A call on a filter: a buffer that is read and a buffer for the result. -/
structure Call where
  direction : Direction
  source : ChannelBuffer Float32
  target : ChannelBuffer Float32

/-- Split or merge, and look at the buffer of the result. -/
def call (f : SplittingFilter) (x : Call) : Checked (SplittingFilter × ChannelBuffer Float32) :=
  match x.direction with
  | .split => f.analysis x.source x.target
  | .merge => f.synthesis x.source x.target

theorem call_splitTwo (filters : List (TwoBand Float32)) (source target : ChannelBuffer Float32) :
    (twoBand filters).call ⟨.split, source, target⟩ =
      (runEach (fun f source c => do splitTwo f (← source.bandsOf c)) source filters 0 target).map
        fun r => (twoBand r.1, r.2) := by
  show (twoBand filters).analysis source target = _
  rw [analysis]
  cases runEach _ source filters 0 target <;> rfl

theorem call_mergeTwo (filters : List (TwoBand Float32)) (source target : ChannelBuffer Float32) :
    (twoBand filters).call ⟨.merge, source, target⟩ =
      (runEach (fun f source c => do mergeTwo f (← source.view c)) source filters 0 target).map
        fun r => (twoBand r.1, r.2) := by
  show (twoBand filters).synthesis source target = _
  rw [synthesis]
  cases runEach _ source filters 0 target <;> rfl

theorem call_splitThree (filters : List ThreeBand) (source target : ChannelBuffer Float32) :
    (threeBand filters).call ⟨.split, source, target⟩ =
      (runEach (fun f source c => do splitThree f (← source.bandsOf c)) source filters 0 target).map
        fun r => (threeBand r.1, r.2) := by
  show (threeBand filters).analysis source target = _
  rw [analysis]
  cases runEach _ source filters 0 target <;> rfl

theorem call_mergeThree (filters : List ThreeBand) (source target : ChannelBuffer Float32) :
    (threeBand filters).call ⟨.merge, source, target⟩ =
      (runEach (fun f source c => do mergeThree f (← source.bandsOf c)) source filters 0 target).map
        fun r => (threeBand r.1, r.2) := by
  show (threeBand filters).synthesis source target = _
  rw [synthesis]
  cases runEach _ source filters 0 target <;> rfl

namespace Call

/-- The buffer that is in bands. -/
def banded (x : Call) : ChannelBuffer Float32 :=
  match x.direction with
  | .split => x.target
  | .merge => x.source

/-- The call on one channel alone. -/
def only (x : Call) (c : Nat) : Call :=
  { x with source := x.source.only c, target := x.target.only c }

/-- Both buffers have the given channels and the same frames, which can be cut into the bands. -/
structure Fits (n b : Nat) (x : Call) : Prop where
  source : x.source.channels = n
  target : x.target.channels = n
  frames : x.target.frames = x.source.frames
  bands : x.banded.bands = b
  size : Workable x.source.frames b

theorem Fits.dvd {x : Call} (h : x.Fits n b) : b ∣ x.source.frames := by
  obtain ⟨d, source, target⟩ := x
  cases d with
  | split => exact h.frames ▸ h.bands ▸ target.bands_dvd
  | merge => exact h.bands ▸ source.bands_dvd

end Call

/-- As many filters as there are channels, for the given number of bands. -/
def ServesAll : SplittingFilter → Nat → Nat → Prop
  | twoBand filters, n, b => b = 2 ∧ filters.length = n
  | threeBand filters, n, b => b = 3 ∧ filters.length = n

/-- The filter of one channel. -/
def only : SplittingFilter → Nat → SplittingFilter
  | twoBand filters, c => twoBand filters[c]?.toList
  | threeBand filters, c => threeBand filters[c]?.toList

/-- Split or merge the only channel. -/
def callOne : Direction → SplittingFilter → List Float32 → Checked (SplittingFilter × List Float32)
  | .split => splitOne
  | .merge => mergeOne

theorem callOne_keeps {d : Direction} {frame : List Float32} (hf : f.Serves b) (hw : Workable n b)
    (hd : b ∣ n) (hl : frame.length = n) : Returns (callOne d f frame) (·.2.length = n) := by
  cases d with
  | split => exact (splitOne_keeps hf hw hd hl).mono fun _ hr => hr.1
  | merge => exact (mergeOne_keeps hf hw hd hl).mono fun _ hr => hr.1

/-- A call on buffers of one channel is the call on the samples. -/
theorem call_eq_callOne {x : Call} {m k : Nat} (hf : f.Serves b) (hsource : x.source.HasShape n m)
    (htarget : x.target.HasShape n k) (hbands : x.banded.bands = b) :
    f.call x = (callOne x.direction f x.source.data).map fun r => (r.1, x.target.writeData 0 r.2) := by
  obtain ⟨d, source, target⟩ := x
  cases d with
  | split =>
    obtain rfl : k = b := htarget.bands.symm.trans hbands
    exact analysis_eq hf hsource htarget
  | merge =>
    obtain rfl : m = b := hsource.bands.symm.trans hbands
    exact synthesis_eq hf hsource htarget

/-! ### Each channel on its own -/

theorem ServesAll.serves (h : f.ServesAll 1 b) : f.Serves b := by cases f <;> exact h

theorem ServesAll.only (h : f.ServesAll n b) (hc : c < n) : (f.only c).Serves b := by
  cases f with
  | twoBand filters =>
    obtain ⟨hb, rfl⟩ := h
    exact ⟨hb, by simp [hc]⟩
  | threeBand filters =>
    obtain ⟨hb, rfl⟩ := h
    exact ⟨hb, by simp [hc]⟩

/-- A filter for each channel is run on its channel, and on nothing else. -/
theorem runEach_only {φ : Type} {run : φ → ChannelBuffer Float32 → Nat → Checked (φ × List Float32)}
    {one : φ → List Float32 → Checked (φ × List Float32)} {source target : ChannelBuffer Float32}
    {filters : List φ} (hsource : filters.length = source.channels)
    (htarget : target.channels = source.channels)
    (hrun : ∀ f, ∀ c < source.channels, run f source c = one f (source.samplesOf c))
    (hone : ∀ f xs, xs.length = source.frames → Returns (one f xs) (·.2.length = target.frames)) :
    ∃ filters' target', runEach run source filters 0 target = .ok (filters', target') ∧
      (filters'.length = filters.length ∧ target'.dims = target.dims) ∧
      ∀ c f, filters[c]? = some f → ∃ f', filters'[c]? = some f' ∧
        one f (source.samplesOf c) = .ok (f', target'.samplesOf c) := by
  -- A filter need not return on a channel that is not there, so there any result serves.
  have hall (f : φ) (c : Nat) : ∃ r : φ × List Float32, c < source.channels →
      one f (source.samplesOf c) = .ok r ∧ r.2.length = target.frames := by
    by_cases hc : c < source.channels
    · obtain ⟨r, hr⟩ := hone f _ (ChannelBuffer.length_samplesOf hc)
      exact ⟨r, fun _ => hr⟩
    · exact ⟨(f, []), fun h => absurd h hc⟩
  choose result hresult using hall
  obtain ⟨filters', target', heach, hdims, -, hafter⟩ := runEach_channels run result
    (by rw [Nat.zero_add, hsource]) htarget
    (fun f c hc => (hrun f c hc).trans (hresult f c hc).1) fun f c hc => (hresult f c hc).2
  refine ⟨filters', target', heach, hdims, ?_⟩
  intro c f hf
  have hc : c < source.channels := hsource ▸ (List.getElem?_eq_some_iff.mp hf).1
  obtain ⟨hnext, hsamples⟩ := hafter c f hf
  rw [Nat.zero_add] at hnext hsamples
  refine ⟨_, hnext, ?_⟩
  rw [hsamples]
  exact (hresult f c hc).1

/-- What a call on all channels comes to: each channel of the result is what the filter of that
channel makes of its channel. -/
structure Splits (f f' : SplittingFilter) (x : Call) (out : ChannelBuffer Float32) : Prop where
  dims : out.dims = x.target.dims
  channel : ∀ c < x.source.channels,
    callOne x.direction (f.only c) (x.source.samplesOf c) = .ok (f'.only c, out.samplesOf c)

/-- A bank of filters of either kind splits a call if it is run channel by channel. -/
theorem bank_splits {φ : Type} (bank : List φ → SplittingFilter)
    (one : φ → List Float32 → Checked (φ × List Float32))
    {run : φ → ChannelBuffer Float32 → Nat → Checked (φ × List Float32)} {filters : List φ} {x : Call}
    (hserves : ∀ filters, (bank filters).ServesAll filters.length b)
    (honly : ∀ filters c, (bank filters).only c = bank filters[c]?.toList)
    (hone : ∀ g xs, callOne x.direction (bank [g]) xs = (one g xs).map fun r => (bank [r.1], r.2))
    (hcall : (bank filters).call x =
      (runEach run x.source filters 0 x.target).map fun r => (bank r.1, r.2))
    (hrun : ∀ g, ∀ c < x.source.channels, run g x.source c = one g (x.source.samplesOf c))
    (hx : x.Fits filters.length b) :
    ∃ f' out, (bank filters).call x = .ok (f', out) ∧ f'.ServesAll filters.length b ∧
      (bank filters).Splits f' x out := by
  have hchannels : x.target.channels = x.source.channels := hx.target.trans hx.source.symm
  have hreturns (g : φ) (xs : List Float32) (hxs : xs.length = x.source.frames) :
      Returns (one g xs) (·.2.length = x.target.frames) := by
    have hserve : (bank [g]).Serves b := (hserves [g]).serves
    obtain ⟨r, hr, hlength⟩ := callOne_keeps (d := x.direction) hserve hx.size hx.dvd hxs
    rw [hone] at hr
    obtain ⟨r, hreturn, rfl⟩ := map_eq_ok.mp hr
    exact ⟨r, hreturn, hlength.trans hx.frames.symm⟩
  obtain ⟨filters', target', heach, ⟨hl, hdims⟩, hafter⟩ :=
    runEach_only hx.source.symm hchannels hrun hreturns
  refine ⟨bank filters', target', ?_, hl ▸ hserves filters', hdims, ?_⟩
  · rw [hcall, heach]
    rfl
  · intro c hc
    obtain ⟨g, hg⟩ : ∃ g, filters[c]? = some g := ⟨_, List.getElem?_eq_getElem (hx.source ▸ hc)⟩
    obtain ⟨g', hg', hchannel⟩ := hafter c g hg
    have hbefore : (bank filters).only c = bank [g] := by rw [honly, hg]; rfl
    have hbehind : (bank filters').only c = bank [g'] := by rw [honly, hg']; rfl
    rw [hbefore, hbehind, hone, hchannel]
    rfl

theorem call_splits {x : Call} (hf : f.ServesAll n b) (hx : x.Fits n b) :
    ∃ f' out, f.call x = .ok (f', out) ∧ f'.ServesAll n b ∧ f.Splits f' x out := by
  obtain ⟨d, source, target⟩ := x
  cases f with
  | twoBand filters =>
    obtain ⟨rfl, rfl⟩ := hf
    cases d with
    | split =>
      refine bank_splits twoBand splitTwo (fun _ => ⟨rfl, rfl⟩) (fun _ _ => rfl) (fun _ _ => rfl)
        (call_splitTwo filters source target) ?_ hx
      intro g c hc
      rw [ChannelBuffer.bandsOf_eq hc, ok_bind]
    | merge =>
      refine bank_splits twoBand (fun g xs => mergeTwo g { data := xs, perBand := xs.length / 2 })
        (fun _ => ⟨rfl, rfl⟩) (fun _ _ => rfl) (fun _ _ => rfl)
        (call_mergeTwo filters source target) ?_ hx
      intro g c hc
      have hbands : source.bands = 2 := hx.bands
      rw [ChannelBuffer.view_eq hc, ok_bind, ChannelBuffer.length_samplesOf hc, ChannelBuffer.perBand,
        hbands]
  | threeBand filters =>
    obtain ⟨rfl, rfl⟩ := hf
    cases d with
    | split =>
      refine bank_splits threeBand splitThree (fun _ => ⟨rfl, rfl⟩) (fun _ _ => rfl) (fun _ _ => rfl)
        (call_splitThree filters source target) ?_ hx
      intro g c hc
      rw [ChannelBuffer.bandsOf_eq hc, ok_bind]
    | merge =>
      refine bank_splits threeBand mergeThree (fun _ => ⟨rfl, rfl⟩) (fun _ _ => rfl) (fun _ _ => rfl)
        (call_mergeThree filters source target) ?_ hx
      intro g c hc
      rw [ChannelBuffer.bandsOf_eq hc, ok_bind]

/-- The filter of a channel does to that channel alone what the call does to it among the others. -/
theorem call_only {x : Call} (hf : f.ServesAll n b) (hx : x.Fits n b) :
    ∃ f' out, f.call x = .ok (f', out) ∧ (f'.ServesAll n b ∧ out.channels = n) ∧
      ∀ c < n, (f.only c).call (x.only c) = .ok (f'.only c, out.only c) := by
  obtain ⟨f', out, hcall, hf', hsplits⟩ := call_splits hf hx
  obtain ⟨hframes, hchannels, hbands⟩ :
      out.frames = x.target.frames ∧ out.channels = x.target.channels ∧ out.bands = x.target.bands := by
    simpa [ChannelBuffer.dims] using hsplits.dims
  refine ⟨f', out, hcall, ⟨hf', hchannels.trans hx.target⟩, ?_⟩
  intro c hc
  have hsource : c < x.source.channels := hx.source.symm ▸ hc
  have htarget : c < x.target.channels := hx.target.symm ▸ hc
  have hout : c < out.channels := hchannels.symm ▸ htarget
  have hshape := ChannelBuffer.only_hasShape htarget
  have hbanded : (x.only c).banded.bands = b := by
    obtain ⟨d, source, target⟩ := x
    cases d with
    | split => exact hshape.bands.trans hx.bands
    | merge => exact (ChannelBuffer.only_hasShape hsource).bands.trans hx.bands
  have hone : (f.only c).call (x.only c) =
      (callOne x.direction (f.only c) (x.source.samplesOf c)).map
        fun r => (r.1, (x.target.only c).writeData 0 r.2) := by
    rw [← ChannelBuffer.only_data hsource]
    exact call_eq_callOne (hf.only hc) (ChannelBuffer.only_hasShape hsource) (hx.frames ▸ hshape) hbanded
  rw [hone, hsplits.channel c hsource]
  refine congrArg (fun y => Except.ok (f'.only c, y)) (ChannelBuffer.eq_only hout ?_ ?_)
  · exact ⟨hshape.frames.trans hframes.symm, hshape.channels, hshape.bands.trans hbands.symm⟩
  · exact hshape.writeData_all ((ChannelBuffer.length_samplesOf hout).trans hframes)

/-- A run on all channels is a run on each of them. -/
theorem runs_only {calls : List Call} (hf : f.ServesAll n b) (h : ∀ x ∈ calls, x.Fits n b) :
    ∃ f' results, runChecked call f calls = .ok (f', results) ∧
      (∀ result ∈ results, result.channels = n) ∧
      ∀ c < n, runChecked call (f.only c) (calls.map (·.only c)) =
        .ok (f'.only c, results.map (·.only c)) := by
  induction calls generalizing f with
  | nil => exact ⟨f, [], rfl, by simp, fun c _ => rfl⟩
  | cons x calls ih =>
    obtain ⟨f₁, out, hone, ⟨hf₁, hout⟩, honly⟩ := call_only hf (h x List.mem_cons_self)
    obtain ⟨f', results, hrest, hresults, honlys⟩ :=
      ih hf₁ fun y hy => h y (List.mem_cons_of_mem x hy)
    refine ⟨f', out :: results, ?_, ?_, ?_⟩
    · rw [runChecked, hone, ok_bind]
      dsimp only
      rw [hrest]
      rfl
    · intro result hresult
      rcases List.mem_cons.mp hresult with rfl | hresult
      · exact hout
      · exact hresults result hresult
    · intro c hc
      rw [List.map_cons, runChecked, honly c hc, ok_bind]
      dsimp only
      rw [honlys c hc]
      rfl

/-! ### Each direction on its own -/

/-- What a filter remembers of one direction. -/
def remembered : Direction → SplittingFilter → SplittingFilter
  | .split => forgetMerge
  | .merge => forgetSplit

section Banks

variable {φ γ : Type} {get : ChannelBuffer Float32 → Nat → Checked γ}
  {one : φ → γ → Checked (φ × List Float32)} {forget : φ → φ} {source : ChannelBuffer Float32}

/-- A bank whose filters forget what is not looked at gives the same. -/
theorem runEach_forget (hone : ∀ f xs, one (forget f) xs = (one f xs).map fun r => (forget r.1, r.2))
    (filters : List φ) (first : Nat) (target : ChannelBuffer Float32) :
    runEach (fun f source c => do one f (← get source c)) source (filters.map forget) first target =
      (runEach (fun f source c => do one f (← get source c)) source filters first target).map
        fun r => (r.1.map forget, r.2) := by
  induction filters generalizing first target with
  | nil => rfl
  | cons f filters ih =>
    rw [List.map_cons, runEach, runEach]
    by_cases hfirst : first < source.channels
    · rw [if_pos hfirst, if_pos hfirst]
      cases get source first with
      | error e => rfl
      | ok xs =>
        rw [ok_bind, ok_bind, hone]
        cases one f xs with
        | error e => rfl
        | ok r =>
          simp only [Except.map, ok_bind]
          cases target.writeBands first 0 r.2 with
          | error e => rfl
          | ok target =>
            simp only [ok_bind, ih]
            cases runEach _ source filters (first + 1) target <;> rfl
    · rw [if_neg hfirst, if_neg hfirst]
      rfl

/-- A bank keeps what none of its filters changes. -/
theorem runEach_keeps (hone : ∀ f xs r, one f xs = .ok r → forget r.1 = forget f) {filters : List φ}
    {first : Nat} {target : ChannelBuffer Float32} {r : List φ × ChannelBuffer Float32}
    (h : runEach (fun f source c => do one f (← get source c)) source filters first target = .ok r) :
    r.1.map forget = filters.map forget := by
  induction filters generalizing first target r with
  | nil =>
    cases h
    rfl
  | cons f filters ih =>
    rw [runEach] at h
    by_cases hfirst : first < source.channels
    · rw [if_pos hfirst] at h
      obtain ⟨changed, hchanged, h⟩ := bind_eq_ok.mp h
      obtain ⟨xs, -, hchanged⟩ := bind_eq_ok.mp hchanged
      obtain ⟨written, -, h⟩ := bind_eq_ok.mp h
      obtain ⟨rest, hrest, h⟩ := bind_eq_ok.mp h
      cases h
      rw [List.map_cons, List.map_cons, hone f xs changed hchanged, ih hrest]
    · rw [if_neg hfirst] at h
      cases h
      rfl

end Banks

theorem splitTwo_keeps (f : TwoBand Float32) (frame : List Float32) (r : TwoBand Float32 × List Float32)
    (h : splitTwo f frame = .ok r) : mergingOf r.1 = mergingOf f := by
  unfold splitTwo at h
  split at h <;> cases h
  rfl

theorem mergeTwo_keeps (f : TwoBand Float32) (bands : Bands Float32) (r : TwoBand Float32 × List Float32)
    (h : mergeTwo f bands = .ok r) : splittingOf r.1 = splittingOf f := by
  obtain ⟨low, -, h⟩ := bind_eq_ok.mp h
  obtain ⟨high, -, h⟩ := bind_eq_ok.mp h
  split at h <;> cases h
  rfl

theorem splitThree_keeps (f : ThreeBand) (frame : List Float32) (r : ThreeBand × List Float32)
    (h : splitThree f frame = .ok r) : { r.1 with analysis := [] } = { f with analysis := [] } := by
  unfold splitThree at h
  split at h <;> cases h
  rfl

theorem mergeThree_keeps (f : ThreeBand) (bands : List Float32) (r : ThreeBand × List Float32)
    (h : mergeThree f bands = .ok r) : { r.1 with synthesis := [] } = { f with synthesis := [] } := by
  unfold mergeThree at h
  split at h <;> cases h
  rfl

/-- A call looks only at what is remembered of its direction. -/
theorem call_remembered (f : SplittingFilter) (x : Call) :
    (remembered x.direction f).call x = (f.call x).map fun r => (remembered x.direction r.1, r.2) := by
  obtain ⟨d, source, target⟩ := x
  cases f with
  | twoBand filters =>
    cases d with
    | split =>
      show (twoBand (filters.map splittingOf)).call ⟨.split, source, target⟩ = _
      rw [call_splitTwo, call_splitTwo, runEach_forget splitTwo_forget]
      cases runEach _ source filters 0 target <;> rfl
    | merge =>
      show (twoBand (filters.map mergingOf)).call ⟨.merge, source, target⟩ = _
      rw [call_mergeTwo, call_mergeTwo, runEach_forget mergeTwo_forget]
      cases runEach _ source filters 0 target <;> rfl
  | threeBand filters =>
    cases d with
    | split =>
      show (threeBand (filters.map fun f => { f with synthesis := [] })).call ⟨.split, source, target⟩ = _
      rw [call_splitThree, call_splitThree, runEach_forget splitThree_forget]
      cases runEach _ source filters 0 target <;> rfl
    | merge =>
      show (threeBand (filters.map fun f => { f with analysis := [] })).call ⟨.merge, source, target⟩ = _
      rw [call_mergeThree, call_mergeThree, runEach_forget mergeThree_forget]
      cases runEach _ source filters 0 target <;> rfl

/-- What is remembered of the other direction stays. -/
theorem call_keeps {x : Call} {out : ChannelBuffer Float32} (h : f.call x = .ok (f', out)) :
    remembered x.direction.other f' = remembered x.direction.other f := by
  obtain ⟨d, source, target⟩ := x
  cases f with
  | twoBand filters =>
    cases d with
    | split =>
      rw [call_splitTwo] at h
      obtain ⟨r, hr, ⟨⟩⟩ := map_eq_ok.mp h
      exact congrArg twoBand (runEach_keeps splitTwo_keeps hr)
    | merge =>
      rw [call_mergeTwo] at h
      obtain ⟨r, hr, ⟨⟩⟩ := map_eq_ok.mp h
      exact congrArg twoBand (runEach_keeps mergeTwo_keeps hr)
  | threeBand filters =>
    cases d with
    | split =>
      rw [call_splitThree] at h
      obtain ⟨r, hr, ⟨⟩⟩ := map_eq_ok.mp h
      exact congrArg threeBand (runEach_keeps splitThree_keeps hr)
    | merge =>
      rw [call_mergeThree] at h
      obtain ⟨r, hr, ⟨⟩⟩ := map_eq_ok.mp h
      exact congrArg threeBand (runEach_keeps mergeThree_keeps hr)

/-- Filters that remember the same of the direction of a call answer it alike. -/
theorem call_congr {x : Call} {out : ChannelBuffer Float32}
    (hsame : remembered x.direction f = remembered x.direction g) (h : f.call x = .ok (f', out)) :
    ∃ g', g.call x = .ok (g', out) ∧ remembered x.direction f' = remembered x.direction g' := by
  have hboth := call_remembered f x
  rw [hsame, call_remembered, h] at hboth
  obtain ⟨⟨g', _⟩, hg, heq⟩ := map_eq_ok.mp hboth
  obtain ⟨hg', rfl⟩ := Prod.mk.inj heq
  exact ⟨g', hg, hg'.symm⟩

/-- A run without the calls in the other direction gives the same in this one. -/
theorem runs_filter {calls : List Call} {results : List (ChannelBuffer Float32)} (d : Direction)
    (h : runChecked call f calls = .ok (f', results)) :
    ∃ f'', runChecked call f (calls.filter (·.direction = d)) =
      .ok (f'', ((calls.zip results).filter (·.1.direction = d)).map (·.2)) := by
  have hkept (f g f' : SplittingFilter) (x : Call) (out : ChannelBuffer Float32)
      (hsame : remembered d f = remembered d g) (hx : decide (x.direction = d) = true)
      (hcall : f.call x = .ok (f', out)) :
      ∃ g', g.call x = .ok (g', out) ∧ remembered d f' = remembered d g' := by
    obtain rfl := of_decide_eq_true hx
    exact call_congr hsame hcall
  have hskipped (f g f' : SplittingFilter) (x : Call) (out : ChannelBuffer Float32)
      (hsame : remembered d f = remembered d g) (hx : decide (x.direction = d) = false)
      (hcall : f.call x = .ok (f', out)) : remembered d f' = remembered d g := by
    obtain rfl := Direction.eq_other (of_decide_eq_false hx)
    exact (call_keeps hcall).trans hsame
  obtain ⟨f'', hrun, -⟩ := runChecked_filter hkept hskipped rfl h
  exact ⟨f'', hrun⟩

/-! ### Independence -/

/-- Fresh filters are one for each channel, each as a single one is when it is fresh. -/
theorem create_only (h : create n b = .ok f) :
    f.ServesAll n b ∧ ∃ g, create 1 b = .ok g ∧ ∀ c < n, f.only c = g := by
  have hfilled {φ : Type} {rest : φ} {filters : List φ} (h : filled n rest = .ok filters) :
      filters = List.replicate n rest := by
    rw [filled] at h
    split at h <;> cases h
    rfl
  unfold create at h
  split at h
  · obtain ⟨filters, hfilters, rfl⟩ := map_eq_ok.mp h
    obtain rfl := hfilled hfilters
    refine ⟨⟨rfl, List.length_replicate⟩, twoBand [.rest], rfl, ?_⟩
    intro c hc
    rw [only, List.getElem?_replicate, if_pos hc]
    rfl
  · obtain ⟨filters, hfilters, rfl⟩ := map_eq_ok.mp h
    obtain rfl := hfilled hfilters
    refine ⟨⟨rfl, List.length_replicate⟩, threeBand [.rest], rfl, ?_⟩
    intro c hc
    rw [only, List.getElem?_replicate, if_pos hc]
    rfl
  · cases h

/-- A fresh filter for several channels answers every mix of splitting and merging as so many filters
for one channel. Each channel of each result is what a fresh filter of its own makes of that channel of
the same calls, and without the calls in one direction the results in the other stay as they are. -/
theorem calls_are_independent {calls : List Call} (h : create n b = .ok f)
    (hcalls : ∀ x ∈ calls, x.Fits n b) :
    ∃ f' results, runChecked call f calls = .ok (f', results) ∧
      (∀ result ∈ results, result.channels = n) ∧
      (∃ g, create 1 b = .ok g ∧ ∀ c < n, ∃ g', runChecked call g (calls.map (·.only c)) =
        .ok (g', results.map (·.only c))) ∧
      ∀ d, ∃ f'', runChecked call f (calls.filter (·.direction = d)) =
        .ok (f'', ((calls.zip results).filter (·.1.direction = d)).map (·.2)) := by
  obtain ⟨hserves, g, hg, hfresh⟩ := create_only h
  obtain ⟨f', results, hrun, hchannels, honly⟩ := runs_only hserves hcalls
  refine ⟨f', results, hrun, hchannels, ⟨g, hg, ?_⟩, fun d => runs_filter d hrun⟩
  intro c hc
  rw [← hfresh c hc]
  exact ⟨f'.only c, honly c hc⟩

/-- Two channels in two bands, of one sample each, are split, merged and split again. -/
theorem calls_are_independent_two_channels :
    ∃ (f : SplittingFilter) (data bands : ChannelBuffer Float32) (calls : List Call),
      create 2 2 = .ok f ∧
      ChannelBuffer.create 2 2 1 = .ok data ∧ ChannelBuffer.create 2 2 2 = .ok bands ∧
      calls = [⟨.split, data.writeData 0 [1, 2, 3, 4], bands⟩,
        ⟨.merge, bands.writeData 0 [5, 6, 7, 8], data⟩,
        ⟨.split, data.writeData 0 [9, 10, 11, 12], bands⟩] ∧
      ∃ f' results, runChecked call f calls = .ok (f', results) ∧
        (∀ result ∈ results, result.channels = 2) ∧
        (∃ g, create 1 2 = .ok g ∧ ∀ c < 2, ∃ g', runChecked call g (calls.map (·.only c)) =
          .ok (g', results.map (·.only c))) ∧
        ∀ d, ∃ f'', runChecked call f (calls.filter (·.direction = d)) =
          .ok (f'', ((calls.zip results).filter (·.1.direction = d)).map (·.2)) := by
  obtain ⟨f, hf⟩ : ∃ f, create 2 2 = .ok f := ⟨_, rfl⟩
  obtain ⟨data, hdata⟩ : ∃ x, (ChannelBuffer.create 2 2 1 : Checked (ChannelBuffer Float32)) = .ok x :=
    ⟨_, rfl⟩
  obtain ⟨bands, hbands⟩ : ∃ x, (ChannelBuffer.create 2 2 2 : Checked (ChannelBuffer Float32)) = .ok x :=
    ⟨_, rfl⟩
  refine ⟨f, data, bands, _, hf, hdata, hbands, rfl, calls_are_independent hf ?_⟩
  obtain rfl := Except.ok.inj hdata
  obtain rfl := Except.ok.inj hbands
  have hsize : Workable 2 2 := .inr (.inl ⟨rfl, by decide⟩)
  intro x hx
  simp only [List.mem_cons, List.not_mem_nil, or_false] at hx
  rcases hx with rfl | rfl | rfl
  · exact ⟨rfl, rfl, rfl, rfl, hsize⟩
  · exact ⟨rfl, rfl, rfl, rfl, hsize⟩
  · exact ⟨rfl, rfl, rfl, rfl, hsize⟩

end SplittingFilter

end Duplex
