import Duplex.Proofs.Checked
import Duplex.Proofs.Signal
import Duplex.Resample.Bank

/-!
# Banks keep the laws of resamplings

The tracks of a bank move in step: after every call they store equally many samples (`Bank.Stores`),
so that they make columns of one height. `spectral` therefore refuses no block, takes blocks of one
size, is as it was built after a reset, and gathers its input in the blocks of its plan.
-/

namespace Duplex.Resample

open Signal

/-! ### Tracks -/

namespace Track

variable {plan : Plan} {t : Track} {n : Nat}

/-- So many samples are stored, and the wave that is to be continued is as long as a block. -/
structure Stores (t : Track) (plan : Plan) (n : Nat) : Prop where
  store : t.store.length = n
  overlap : t.overlap.length = plan.blockOut

theorem rest_stores (plan : Plan) : (rest plan).Stores plan 0 := ⟨rfl, List.length_replicate⟩

theorem length_emit (plan : Plan) (bs : List (List Float)) {overlap : List Float}
    (h : overlap.length = plan.blockOut) (out : List Float) :
    (emit plan bs overlap out).1.length = plan.blockOut ∧
      (emit plan bs overlap out).2.length = out.length + bs.length * plan.blockOut := by
  induction bs generalizing overlap out with
  | nil => simp [emit, h]
  | cons b bs ih =>
    have hwave : ((plan.wave b).drop plan.blockOut).length = plan.blockOut := by
      rw [List.length_drop, Plan.length_wave]
      omega
    obtain ⟨hoverlap, hout⟩ := ih hwave
      (out ++ List.zipWith (· + ·) ((plan.wave b).take plan.blockOut) overlap)
    refine ⟨hoverlap, ?_⟩
    rw [emit, hout]
    simp only [List.length_append, List.length_zipWith, List.length_take, Plan.length_wave, h,
      List.length_cons, Nat.succ_mul]
    omega

/-- Whole blocks come out, and what is short of a block is stored. -/
theorem Stores.feed (h : t.Stores plan n) (samples : List Float) :
    (t.feed plan samples).1.Stores plan ((n + samples.length) % plan.blockIn) ∧
      (t.feed plan samples).2.length = (n + samples.length) / plan.blockIn * plan.blockOut := by
  obtain ⟨hoverlap, hout⟩ := length_emit plan (blocks plan.blockIn (t.store ++ samples)) h.overlap []
  have hstore : (t.store ++ samples).length = n + samples.length := by
    rw [List.length_append, h.store]
  refine ⟨⟨?_, hoverlap⟩, ?_⟩
  · show (residue plan.blockIn (t.store ++ samples)).length = _
    rw [length_residue, hstore]
  · show (emit _ _ _ _).2.length = _
    rw [hout, length_blocks plan.blockIn_pos, hstore, List.length_nil, Nat.zero_add]

end Track

/-! ### Banks -/

namespace Bank

variable {b : Bank} {i o chunk channels k n : Nat}

/-- There is a track for each channel, and all of them store so many samples, which are short of a
block. -/
structure Stores (b : Bank) (k : Nat) : Prop where
  channels : b.tracks.length = b.channels
  tracks : ∀ t ∈ b.tracks, t.Stores b.plan k
  short : k < b.plan.blockIn

theorem rest_stores (b : Bank) : b.rest.Stores 0 := by
  refine ⟨List.length_replicate, fun t ht => ?_, b.plan.blockIn_pos⟩
  rw [List.eq_of_mem_replicate ht]
  exact Track.rest_stores b.plan

/-- The tracks move in step, and make columns of one height. -/
theorem Stores.feed (h : b.Stores k) {cols : List (List Float32)} (hcols : Columns b.channels n cols) :
    (b.feed cols).1.Stores ((k + n) % b.plan.blockIn) ∧
      Columns b.channels ((k + n) / b.plan.blockIn * b.plan.blockOut) (b.feed cols).2 := by
  obtain ⟨fed, hfed⟩ : ∃ fed, List.zipWith
      (fun track column => track.feed b.plan (column.map (·.toFloat))) b.tracks cols = fed := ⟨_, rfl⟩
  have hlen : fed.length = b.channels := by
    rw [← hfed, List.length_zipWith, h.channels, hcols.channels, Nat.min_self]
  have hone (f : Track × List Float) (hf : f ∈ fed) :
      f.1.Stores b.plan ((k + n) % b.plan.blockIn) ∧
        f.2.length = (k + n) / b.plan.blockIn * b.plan.blockOut := by
    rw [← hfed] at hf
    obtain ⟨track, htrack, column, hcolumn, rfl⟩ := exists_of_mem_zipWith hf
    have hstores := (h.tracks track htrack).feed (column.map (·.toFloat))
    rwa [List.length_map, hcols.height column hcolumn] at hstores
  simp only [Bank.feed, hfed]
  refine ⟨⟨by simpa using hlen, fun t ht => ?_, Nat.mod_lt _ b.plan.blockIn_pos⟩,
    by simpa using hlen, fun column hcolumn => ?_⟩
  · obtain ⟨f, hf, rfl⟩ := List.mem_map.mp ht
    exact (hone f hf).1
  · obtain ⟨f, hf, rfl⟩ := List.mem_map.mp hcolumn
    rw [List.length_map, (hone f hf).2]

/-- Columns that are filled up with silence to the height of a chunk. -/
theorem columns_fit {cols : List (List Float32)} (h : Columns channels k cols) (chunk : Nat) :
    Columns channels chunk (cols.map (fit chunk 0)) := by
  refine ⟨by rw [List.length_map, h.channels], fun column hcolumn => ?_⟩
  obtain ⟨short, -, rfl⟩ := List.mem_map.mp hcolumn
  exact length_fit _ _ _

/-- There is no bank for a rate of zero. Every other bank is at rest, with a plan between the rates. -/
theorem build_cases {made : Except String Bank} (h : (build i o chunk channels).run = .ok made) :
    (i = 0 ∨ o = 0) ∧ made = .error (zeroRate i o) ∨
      ¬ (i = 0 ∨ o = 0) ∧ ∃ b, made = .ok b ∧ Plan.create i o chunk = .ok b.plan ∧
        b.channels = channels ∧ b.chunk = chunk ∧ b.rest = b := by
  rw [build] at h
  split at h
  case isTrue hzero => exact .inl ⟨hzero, (Except.ok.inj h).symm⟩
  case isFalse hzero =>
    refine .inr ⟨hzero, ?_⟩
    dsimp only at h
    split at h
    case isFalse hchunk => cases h
    case isTrue hchunk =>
      rw [run_lift_bind] at h
      obtain ⟨plan, hplan, h⟩ := bind_eq_ok.mp h
      rw [run_lift_bind] at h
      obtain ⟨tracks, htracks, h⟩ := bind_eq_ok.mp h
      rw [filled] at htracks
      split at htracks
      · obtain rfl := Except.ok.inj htracks
        exact ⟨_, (Except.ok.inj h).symm, hplan, rfl, rfl, rfl⟩
      · cases htracks

/-- What is kept of a bank that was built: at rest it would be as it was built, and its tracks move in
step. -/
structure Kept (i o chunk channels : Nat) (b : Bank) : Prop where
  built : (build i o chunk channels).run = .ok (.ok b.rest)
  plan : Plan.create i o chunk = .ok b.plan
  channels : b.channels = channels
  chunk : b.chunk = chunk
  stores : ∃ k, b.Stores k

theorem kept_of_build (h : (build i o chunk channels).run = .ok (.ok b)) :
    Kept i o chunk channels b ∧ b.Stores 0 := by
  obtain ⟨-, hmade⟩ | ⟨-, b', hmade, hplan, hchannels, hchunk, hrest⟩ := build_cases h
  · cases hmade
  · obtain rfl := Except.ok.inj hmade
    have hstores : b.Stores 0 := hrest ▸ b.rest_stores
    exact ⟨⟨hrest.symm ▸ h, hplan, hchannels, hchunk, 0, hstores⟩, hstores⟩

theorem Kept.feed (h : Kept i o chunk channels b) {cols : List (List Float32)}
    (hcols : Columns channels n cols) : Kept i o chunk channels (b.feed cols).1 := by
  obtain ⟨k, hstores⟩ := h.stores
  exact ⟨h.built, h.plan, h.channels, h.chunk, _, (hstores.feed (h.channels.symm ▸ hcols)).1⟩

/-- Whatever is done to a bank, it is kept. -/
theorem kept_of_stands {s : spectral.State} (h : spectral.Stands i o chunk channels s) :
    Kept i o chunk channels s := by
  induction h with
  | build hbuild => exact (kept_of_build hbuild).1
  | feed _ hcols ih => exact ih.feed hcols
  | @finish s _ _ _ hcols ih => exact ih.feed (columns_fit hcols (Bank.chunk s))
  | @reset s _ ih => exact ⟨ih.built, ih.plan, ih.channels, ih.chunk, 0, rest_stores s⟩

end Bank

/-! ### Laws -/

variable {i o channels k n : Nat}

theorem spectral_unfailing : spectral.Unfailing := by
  intro i o chunk channels s block hs hblock
  obtain ⟨k, hstores⟩ := (Bank.kept_of_stands hs).stores
  rw [← (Bank.kept_of_stands hs).channels] at hblock ⊢
  exact ⟨_, _, rfl, (hstores.feed hblock).2⟩

theorem spectral_fixed : spectral.Fixed := fun hs => (Bank.kept_of_stands hs).chunk

theorem spectral_renewed : spectral.Renewed := fun hs => (Bank.kept_of_stands hs).built

theorem spectral_refusesZeroRates : spectral.RefusesZeroRates := by
  intro i o chunk channels made hc hmade
  obtain ⟨hzero, rfl⟩ | ⟨hzero, b, rfl, -⟩ := Bank.build_cases hmade
  · exact iff_of_true ⟨_, rfl⟩ hzero
  · exact iff_of_false (by simp) hzero

theorem spectral_fewerChannels : spectral.FewerChannels := by
  intro i o chunk channels fewer s _ hfewer h
  change (Bank.build i o chunk channels).run = _ at h
  show ∃ s', (Bank.build i o chunk fewer).run = _
  rw [Bank.build] at h ⊢
  split at h
  case isTrue => cases h
  case isFalse hzero =>
    rw [if_neg hzero]
    dsimp only at h ⊢
    split at h
    case isFalse => cases h
    case isTrue hchunk =>
      rw [run_lift_bind] at h
      obtain ⟨plan, hplan, h⟩ := bind_eq_ok.mp h
      rw [run_lift_bind] at h
      obtain ⟨tracks, htracks, -⟩ := bind_eq_ok.mp h
      have hlimit : channels < storageLimit := by
        by_contra hover
        rw [filled, if_neg hover] at htracks
        cases htracks
      rw [dif_pos hchunk, run_lift_bind, hplan, ok_bind, run_lift_bind, filled,
        if_pos (Nat.lt_of_le_of_lt hfewer hlimit)]
      exact ⟨_, rfl⟩

/-- The blocks that a chunk completes, with the one that was begun before. -/
theorem Bank.Kept.feed_room {b₀ b : Bank} {chunk : Nat}
    (h₀ : Bank.Kept i o chunk channels b₀) (h : Bank.Kept i o chunk channels b)
    {cols : List (List Float32)} (hcols : Columns channels chunk cols) :
    ∃ m ≤ spectral.room b₀, Columns channels m (b.feed cols).2 := by
  obtain ⟨k, hstores⟩ := h.stores
  have hplan : b.plan = b₀.plan := Except.ok.inj (h.plan.symm.trans h₀.plan)
  have hout := (hstores.feed (h.channels.symm ▸ hcols)).2
  rw [h.channels] at hout
  refine ⟨_, ?_, hout⟩
  show _ ≤ (b₀.chunk / b₀.plan.blockIn + 1) * b₀.plan.blockOut
  rw [← hplan, h₀.chunk]
  refine Nat.mul_le_mul_right _ ?_
  have hshort := hstores.short
  calc (k + chunk) / b.plan.blockIn
      ≤ (b.plan.blockIn + chunk) / b.plan.blockIn := Nat.div_le_div_right (by omega)
    _ = chunk / b.plan.blockIn + 1 := Nat.add_div_left _ b.plan.blockIn_pos

theorem spectral_roomy : spectral.Roomy where
  feed hbuild hs hblock hmade := by
    have hkept := Bank.kept_of_stands hs
    obtain rfl := Except.ok.inj hmade
    exact (Bank.kept_of_build hbuild).1.feed_room hkept (hkept.chunk ▸ hblock)
  finish hbuild hs hcols hmade := by
    have hkept := Bank.kept_of_stands hs
    obtain rfl := Except.ok.inj hmade
    exact (Bank.kept_of_build hbuild).1.feed_room hkept (hkept.chunk ▸ Bank.columns_fit hcols _)

/-! ### Blocks of a plan -/

/-- The block sizes are the same multiple of the rates without their common divisor. -/
theorem Plan.create_sizes {plan : Plan} {chunk : Nat} (h : Plan.create i o chunk = .ok plan) :
    plan.blockIn = blockScale i o chunk * (i / i.gcd o) ∧
      plan.blockOut = blockScale i o chunk * (o / i.gcd o) := by
  rw [Plan.create] at h
  split at h
  · obtain rfl := Except.ok.inj h
    exact ⟨rfl, rfl⟩
  · cases h

/-- Blocks are in the ratio of the rates. -/
theorem Plan.create_ratio {plan : Plan} {chunk : Nat} (h : Plan.create i o chunk = .ok plan) :
    plan.blockOut * i = plan.blockIn * o := by
  obtain ⟨hin, hout⟩ := Plan.create_sizes h
  have hi : i / i.gcd o * o = o / i.gcd o * i := by
    rw [Nat.div_mul_right_comm (Nat.gcd_dvd_left i o), Nat.div_mul_right_comm (Nat.gcd_dvd_right i o),
      Nat.mul_comm]
  rw [hin, hout, Nat.mul_assoc, Nat.mul_assoc, hi]

/-- Between rates in whole frames per 10 ms a block is no longer than a chunk of 10 ms. -/
theorem Plan.create_blockIn_le {plan : Plan} (h : Plan.create i o (max (i / 100) 1) = .ok plan)
    (hi : 100 ∣ i) (ho : 100 ∣ o) : plan.blockIn ≤ max (i / 100) 1 := by
  obtain ⟨hin, -⟩ := Plan.create_sizes h
  obtain ⟨chunk, hchunk⟩ : ∃ chunk, max (i / 100) 1 = chunk := ⟨_, rfl⟩
  obtain ⟨unit, hunit⟩ : ∃ unit, i / i.gcd o = unit := ⟨_, rfl⟩
  rw [hchunk] at hin ⊢
  have hunit_pos : 0 < unit := by
    refine Nat.pos_of_ne_zero fun hzero => ?_
    have hpos := plan.blockIn_pos
    rw [hin, hunit, hzero] at hpos
    exact Nat.lt_irrefl 0 hpos
  have hle : unit ≤ chunk := by
    have hpos : 0 < i := Nat.pos_of_ne_zero fun hzero => by simp [← hunit, hzero] at hunit_pos
    have hdiv : i / i.gcd o ≤ i / 100 :=
      Nat.div_le_div_left (Nat.le_of_dvd (Nat.gcd_pos_of_pos_left _ hpos) (Nat.dvd_gcd hi ho)) (by omega)
    omega
  rw [hin, blockScale, hunit]
  by_cases hhalf : unit ≤ chunk / 2
  · have hmul := Nat.div_mul_le_self (chunk / 2 + unit - 1) unit
    omega
  · -- A longer unit is more than half a chunk by itself.
    have hone : (chunk / 2 + unit - 1) / unit ≤ 1 := by
      rw [Nat.div_le_iff_le_mul_add_pred hunit_pos]
      omega
    have hmul := Nat.mul_le_mul_right unit hone
    omega

/-- How much the first track stores. -/
def Bank.stored (b : Bank) : Nat := (b.tracks.head?.map (·.store.length)).getD 0

theorem Bank.Stores.stored {b : Bank} (h : b.Stores k) (hc : 0 < b.channels) : b.stored = k := by
  obtain ⟨t, tracks, ht⟩ := List.exists_cons_of_length_pos (h.channels.symm ▸ hc)
  have hfirst := h.tracks t (ht ▸ List.mem_cons_self)
  rw [Bank.stored, ht]
  exact hfirst.store

theorem spectral_proportional : spectral.Proportional := by
  intro i o channels b₀ hc hbuild
  obtain ⟨hkept₀, -⟩ := Bank.kept_of_build hbuild
  refine ⟨b₀.plan.blockIn, b₀.plan.blockOut, Bank.stored, b₀.plan.blockIn_pos,
    Plan.create_ratio hkept₀.plan, Plan.create_blockIn_le hkept₀.plan, ?_, ?_⟩
  · intro b hb
    obtain ⟨hkept, hstores⟩ := Bank.kept_of_build hb
    exact hstores.stored (hkept.channels.symm ▸ hc)
  · intro b block made hs hblock hmade
    have hkept := Bank.kept_of_stands hs
    obtain ⟨k, hstores⟩ := hkept.stores
    have hc' : 0 < b.channels := hkept.channels.symm ▸ hc
    obtain ⟨hnext, hout⟩ := hstores.feed (hkept.channels.symm ▸ hblock)
    have hplan : b.plan = b₀.plan := Except.ok.inj (hkept.plan.symm.trans hkept₀.plan)
    obtain rfl := Except.ok.inj hmade
    rw [hplan] at hnext hout
    rw [hstores.stored hc']
    exact ⟨hnext.stored hc', hkept.channels ▸ hout⟩

end Duplex.Resample
