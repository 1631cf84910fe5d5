import Duplex.Proofs.Conversion

/-!
# Resampling: how much comes out

Where resamplers take fixed blocks and gather their input, what an adapter hands out is counted in
frames, and depends on how many came in only: whole chunks are fed, whole blocks of what was fed are
turned into output, and the rest waits (`Pace.yield`, `AdapterFed.process`). Between two rates in whole
frames per 10 ms a block is no longer than a chunk, so that less than two chunks wait, and none are
added (`AdapterFed.bounds`).
-/

namespace Duplex

open Signal

variable {R : Resampling}

/-! ### Paces -/

/-- The sizes that pace a way between two rates: frames are fed in chunks, and out of every `gatheredIn`
of those that were fed come `madeOut`. -/
structure Pace where
  chunk : Nat
  gatheredIn : Nat
  madeOut : Nat

namespace Pace

/-- Every frame goes through as it comes. -/
def direct : Pace := ⟨1, 1, 1⟩

/-- How many of `n` frames were fed. -/
def fed (p : Pace) (n : Nat) : Nat := n / p.chunk * p.chunk

/-- How many frames come out when so many came in. -/
def yield (p : Pace) (n : Nat) : Nat := p.fed n / p.gatheredIn * p.madeOut

theorem yield_direct (n : Nat) : direct.yield n = n := by simp [direct, yield, fed]

theorem yield_zero (p : Pace) : p.yield 0 = 0 := by simp [yield, fed]

/-- Frames that go on coming in make some come out. -/
theorem exists_yield_lt {p : Pace} (hchunk : 0 < p.chunk) (hin : 0 < p.gatheredIn)
    (hout : 0 < p.madeOut) {frames : Nat} (hframes : 0 < frames) :
    ∃ j, p.yield (j * frames) < p.yield ((j + 1) * frames) := by
  by_contra! hnone
  have hzero (j : Nat) : p.yield (j * frames) = 0 := by
    induction j with
    | zero => rw [Nat.zero_mul, yield_zero]
    | succ j ih =>
      have hle := hnone j
      omega
  -- So many frames are whole chunks that make whole blocks.
  have hpos : 0 < p.yield (p.gatheredIn * p.chunk * frames) := by
    have hwhole : p.gatheredIn * p.chunk * frames = p.gatheredIn * frames * p.chunk :=
      Nat.mul_right_comm _ _ _
    rw [yield, fed, hwhole, Nat.mul_div_cancel _ hchunk, Nat.mul_assoc,
      Nat.mul_div_cancel_left _ hin]
    exact Nat.mul_pos (Nat.mul_pos hframes hchunk) hout
  rw [hzero] at hpos
  exact Nat.lt_irrefl 0 hpos

end Pace

theorem add_div_of_mod (x y : Nat) {b : Nat} (hb : 0 < b) :
    x / b + (x % b + y) / b = (x + y) / b := by
  conv_rhs => rw [← Nat.div_add_mod x b, Nat.add_assoc, Nat.mul_add_div hb]

/-! ### Adapters -/

namespace RateAdapter

variable {a : RateAdapter R} {i o chunk gatheredIn madeOut k m : Nat} {kept : R.State → Nat}

/-- What draining makes of so many staged frames, of which whole chunks are fed. -/
theorem drain_gathers (out : List Int16) (hR : R.Unfailing) (hF : R.Fixed)
    (hlaw : R.Gathers i o a.channels gatheredIn madeOut kept) (hchunk : max (i / 100) 1 = chunk)
    (hs : R.Stands i o chunk a.channels a.resampler) (hkept : kept a.resampler = k)
    (hk : k < gatheredIn) (hm : a.staged.length = m * a.channels) :
    kept (a.drain out).1.resampler = (k + m / chunk * chunk) % gatheredIn ∧
      (a.drain out).1.staged.length = m % chunk * a.channels ∧
      (a.drain out).2.1.length =
        out.length + (k + m / chunk * chunk) / gatheredIn * madeOut * a.channels := by
  have hpos : 0 < chunk := by omega
  have hblock : a.blockSize = chunk * a.channels := by rw [blockSize, hF hs]
  induction a using drain_induction generalizing out m k with
  | short a hshort =>
    have hless : m < chunk := by
      rw [hm, hblock] at hshort
      exact Nat.lt_of_mul_lt_mul_right hshort
    rw [drain_of_lt hshort, Nat.div_eq_of_lt hless, Nat.zero_mul, Nat.add_zero, Nat.mod_eq_of_lt hk,
      Nat.mod_eq_of_lt hless, Nat.div_eq_of_lt hk, Nat.zero_mul, Nat.zero_mul]
    exact ⟨hkept, hm, rfl⟩
  | refused a resampler cause hle hfeed =>
    obtain ⟨made, n, hmade, -⟩ := hR hs (columns_block hle)
    rw [hfeed] at hmade
    exact absurd hmade nofun
  | fed a resampler made hle hfeed ih =>
    have hnext := Resampling.Stands.feed hs (columns_block hle)
    obtain ⟨hstored, hmade⟩ := hlaw.feed (hchunk.symm ▸ hs) (columns_block hle) (by rw [hfeed])
    rw [hfeed] at hnext hstored
    rw [hF hs, hkept] at hstored hmade
    have hmore : chunk ≤ m := by
      rw [hm, hblock] at hle
      exact Nat.le_of_mul_le_mul_right hle a.channels_pos
    have hleft : (a.staged.drop a.blockSize).length = (m - chunk) * a.channels := by
      rw [List.length_drop, hm, hblock, Nat.sub_mul]
    obtain ⟨hwaits, hstaged, hlen⟩ := ih (out ++ render made) hlaw hnext hstored
      (Nat.mod_lt _ hlaw.gatheredIn_pos) hleft (by rw [blockSize]; exact congrArg (· * _) (hF hnext))
    have hfed : (m - chunk) / chunk * chunk + chunk = m / chunk * chunk := by
      rw [← Nat.succ_mul, Nat.succ_eq_add_one, ← Nat.div_eq_sub_div hpos hmore]
    have hsum : k + chunk + (m - chunk) / chunk * chunk = k + m / chunk * chunk := by omega
    rw [drain_fed hle hfeed]
    refine ⟨?_, ?_, ?_⟩
    · rw [hwaits, Nat.mod_add_mod, hsum]
    · rw [hstaged, ← Nat.mod_eq_sub_mod hmore]
    · rw [hlen, List.length_append, length_render hmade, Nat.add_assoc, ← Nat.add_mul, ← Nat.add_mul,
        add_div_of_mod _ _ hlaw.gatheredIn_pos, hsum]

end RateAdapter

/-- So many frames came in since the way between two rates was made: through an adapter they went at
its pace, and without one straight. -/
inductive AdapterFed (p : Pace) (kept : R.State → Nat) (i o channels : Nat) :
    Option (RateAdapter R) → (n : Nat) → Prop
  | direct {n : Nat} (same : i = o) (pace : p = .direct) : AdapterFed p kept i o channels none n
  | adapter {a : RateAdapter R} {n : Nat} (chunk : max (i / 100) 1 = p.chunk)
    (law : R.Gathers i o channels p.gatheredIn p.madeOut kept) (serves : a.Serves i o channels)
    (waits : kept a.resampler = p.fed n % p.gatheredIn)
    (staged : a.staged.length = n % p.chunk * channels) : AdapterFed p kept i o channels (some a) n

namespace AdapterFed

variable {p : Pace} {kept : R.State → Nat} {i o channels n m : Nat} {a : RateAdapter R}
  {adapter : Option (RateAdapter R)}

/-- Nothing came in yet. -/
theorem of_adapterBetween (hR : R.Proportional)
    (h : (adapterBetween i o channels).run = .ok (.ok adapter)) :
    ∃ p kept, AdapterFed p kept i o channels adapter 0 := by
  obtain ⟨heq, rfl⟩ | ⟨-, a, rfl, hmade⟩ := adapterBetween_cases h
  · exact ⟨.direct, fun _ => 0, .direct heq rfl⟩
  · obtain ⟨gatheredIn, madeOut, kept, hlaw⟩ := hR hmade.serves.channels_pos hmade.built
    refine ⟨⟨max (i / 100) 1, gatheredIn, madeOut⟩, kept, .adapter rfl hlaw hmade.serves ?_ ?_⟩
    · rw [hlaw.build hmade.built]
      simp [Pace.fed]
    · rw [hmade.staged, Nat.zero_mod, Nat.zero_mul, List.length_nil]

/-- More frames come in, and as many come out as are due. -/
theorem process (hR : R.Unfailing) (hF : R.Fixed) (h : AdapterFed p kept i o channels (some a) n)
    {input : List Int16} (hlen : input.length = m * channels) :
    AdapterFed p kept i o channels (some (a.process input).1) (n + m) ∧
      p.yield n * channels + (a.process input).2.1.length = p.yield (n + m) * channels := by
  cases h with
  | adapter hchunk hlaw hserves hwaits hstaged =>
    obtain rfl := hserves.channels
    have hpos : 0 < p.chunk := by omega
    have hall : (a.restage (a.staged ++ input)).staged.length = (n % p.chunk + m) * a.channels := by
      rw [RateAdapter.staged_restage, List.length_append, hstaged, hlen, Nat.add_mul]
    have hfed : p.fed n + (n % p.chunk + m) / p.chunk * p.chunk = p.fed (n + m) := by
      rw [Pace.fed, Pace.fed, ← Nat.add_mul, add_div_of_mod n m hpos]
    obtain ⟨hwaits', hstaged', hout⟩ := RateAdapter.drain_gathers
      (a := a.restage (a.staged ++ input)) [] hR hF hlaw hchunk (hchunk ▸ hserves.stands) hwaits
      (Nat.mod_lt _ hlaw.gatheredIn_pos) hall
    rw [Nat.mod_add_mod, hfed] at hwaits'
    rw [Nat.mod_add_mod] at hstaged'
    have hnext := hserves.after_process input
    rw [RateAdapter.process_of_dvd (hlen ▸ Nat.dvd_mul_left _ _)] at hnext ⊢
    refine ⟨.adapter hchunk hlaw hnext hwaits' hstaged', ?_⟩
    rw [hout, List.length_nil, Nat.zero_add]
    show _ + _ * p.madeOut * a.channels = _
    rw [← Nat.add_mul, Pace.yield, ← Nat.add_mul, add_div_of_mod _ _ hlaw.gatheredIn_pos, hfed,
      Pace.yield]

/-- Between two rates in whole frames per 10 ms nothing is added, less than two chunks of input are
kept back, and less than one if all of it comes in whole chunks. -/
theorem bounds (h : AdapterFed p kept i o channels adapter m) (hi : 100 ∣ i) (ho : 100 ∣ o)
    (hpos : 0 < i) (hpos' : 0 < o) (n : Nat) :
    p.yield n * i ≤ n * o ∧
      n * o < p.yield n * i + 2 * (i / 100) * o ∧
      (i / 100 ∣ n → n * o < p.yield n * i + i / 100 * o) := by
  have hchunk_pos : 0 < i / 100 := by omega
  cases h with
  | direct same pace =>
    have hback : 0 < i / 100 * o := Nat.mul_pos hchunk_pos hpos'
    subst same pace
    rw [Pace.yield_direct, Nat.mul_assoc]
    omega
  | adapter hchunk hlaw =>
    have hsize : p.chunk = i / 100 := by omega
    have hle : p.gatheredIn ≤ i / 100 := by
      have := hlaw.gatheredIn_le hi ho
      omega
    obtain ⟨fed, hfed⟩ : ∃ fed, n / p.chunk * p.chunk = fed := ⟨_, rfl⟩
    obtain ⟨used, hused⟩ : ∃ used, fed / p.gatheredIn * p.gatheredIn = used := ⟨_, rfl⟩
    have hyield : p.yield n * i = used * o := by
      rw [Pace.yield, Pace.fed, hfed, Nat.mul_assoc, hlaw.ratio, ← Nat.mul_assoc, hused]
    have hfed_le : fed ≤ n := hfed ▸ Nat.div_mul_le_self n p.chunk
    have hused_le : used ≤ fed := hused ▸ Nat.div_mul_le_self fed p.gatheredIn
    have hfed_lt : n < fed + p.chunk := by
      rw [← hfed]
      exact Nat.lt_div_mul_add (hsize ▸ hchunk_pos)
    have hused_lt : fed < used + p.gatheredIn := by
      rw [← hused]
      exact Nat.lt_div_mul_add hlaw.gatheredIn_pos
    rw [hyield, ← Nat.add_mul, ← Nat.add_mul]
    refine ⟨Nat.mul_le_mul_right o (by omega), Nat.mul_lt_mul_of_pos_right (by omega) hpos', ?_⟩
    intro hdvd
    have hwhole : fed = n := by
      rw [← hfed, hsize]
      exact Nat.div_mul_cancel hdvd
    exact Nat.mul_lt_mul_of_pos_right (by omega) hpos'

/-- To a rate that is not zero, frames that go on coming in make some come out. -/
theorem exists_yield_lt (h : AdapterFed p kept i o channels adapter m) (hpos : 0 < o)
    {frames : Nat} (hframes : 0 < frames) :
    ∃ j, p.yield (j * frames) < p.yield ((j + 1) * frames) := by
  cases h with
  | direct same pace =>
    subst pace
    exact Pace.exists_yield_lt Nat.one_pos Nat.one_pos Nat.one_pos hframes
  | adapter hchunk hlaw =>
    have hout : 0 < p.madeOut * i := by
      rw [hlaw.ratio]
      exact Nat.mul_pos hlaw.gatheredIn_pos hpos
    exact Pace.exists_yield_lt (by omega) hlaw.gatheredIn_pos (Nat.pos_of_mul_pos_right hout) hframes

end AdapterFed

end Duplex
