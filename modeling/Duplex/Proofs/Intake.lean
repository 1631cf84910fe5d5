import Duplex.Intake
import Duplex.Proofs.Adapter
import Duplex.Proofs.ByteRing

/-!
# Intakes: what is queued and what is taken off

`Intake.emit` is what an intake makes of incoming bytes before it queues them. As long as the
resampler refuses no block, it does not see how the bytes were cut (`emit_append`): a frame or a block
that is cut in two is completed by the next push. A push without a drop appends what is emitted to the
queue, and a read takes the front of it.
-/

namespace Duplex

open Signal
open Pcm (Layout)

variable {R : Resampling}

/-! ### Adapters between two rates -/

/-- There is an adapter just where the rates differ, as it is made between them. -/
theorem adapterBetween_cases {inputRate outputRate channels : Nat} {adapter : Option (RateAdapter R)}
    (h : (adapterBetween inputRate outputRate channels).run = .ok (.ok adapter)) :
    inputRate = outputRate ∧ adapter = none ∨
      inputRate ≠ outputRate ∧ ∃ a, adapter = some a ∧ a.Made inputRate outputRate channels := by
  rw [adapterBetween] at h
  split at h
  case isTrue heq =>
    rw [run_pure, Except.ok.injEq, Except.ok.injEq] at h
    exact .inl ⟨heq, h.symm⟩
  case isFalse hne =>
    rw [map_eq_pure_bind] at h
    obtain ⟨a, ha, h⟩ := attempt_bind_eq_ok.mp h
    rw [run_pure, Except.ok.injEq, Except.ok.injEq] at h
    exact .inr ⟨hne, a, h.symm, RateAdapter.made_of_create ha⟩

/-- The way from one rate to another: an adapter where they differ, and none where they do not. -/
structure Leads (adapter : Option (RateAdapter R)) (i o n : Nat) : Prop where
  none_iff : adapter = none ↔ i = o
  serves : ∀ a, adapter = some a → a.Serves i o n

namespace Leads

variable {adapter : Option (RateAdapter R)} {i o n : Nat}

theorem of_adapterBetween (h : (adapterBetween i o n).run = .ok (.ok adapter)) : Leads adapter i o n := by
  obtain ⟨heq, rfl⟩ | ⟨hne, a, rfl, hmade⟩ := adapterBetween_cases h
  · exact ⟨⟨fun _ => heq, fun _ => rfl⟩, nofun⟩
  · exact ⟨⟨nofun, fun heq => absurd heq hne⟩, fun a' ha' => Option.some.inj ha' ▸ hmade.serves⟩

theorem reset (h : Leads adapter i o n) : Leads (adapter.map (·.reset)) i o n := by
  refine ⟨?_, ?_⟩
  · rw [Option.map_eq_none_iff]
    exact h.none_iff
  · intro a ha
    obtain ⟨a', ha', rfl⟩ := Option.map_eq_some_iff.mp ha
    exact (h.serves a' ha').reset

theorem after_process {a : RateAdapter R} (h : Leads (some a) i o n) (samples : List Int16) :
    Leads (some (a.process samples).1) i o n := by
  refine ⟨⟨nofun, fun heq => absurd (h.none_iff.mpr heq) nofun⟩, ?_⟩
  rintro _ ⟨⟩
  exact (h.serves a rfl).after_process samples

/-- Where a reset renews resamplers, the way that is reset is a new one. -/
theorem renewed (hR : R.Renewed) (h : Leads adapter i o n) :
    (adapterBetween i o n).run = .ok (.ok (adapter.map (·.reset))) := by
  cases hadapter : adapter with
  | none =>
    rw [adapterBetween, if_pos (h.none_iff.mp hadapter)]
    rfl
  | some a =>
    have hne : i ≠ o := fun heq => absurd (hadapter.symm.trans (h.none_iff.mpr heq)) nofun
    rw [adapterBetween, if_neg hne, map_eq_pure_bind, ExceptT.run_bind,
      (h.serves a hadapter).renewed hR]
    rfl

end Leads

/-- From the rate of a stream to any other there is an adapter, or the reason why there is none. -/
theorem adapterBetween_answers {inputRate : Nat} (outputRate : Nat) {channels : Nat}
    (hi : minSampleRate ≤ inputRate) (hchannels : channels ≤ 2) :
    Returns (adapterBetween (R := R) inputRate outputRate channels).run fun _ => True := by
  rw [adapterBetween]
  split
  · exact returns_ok trivial
  · rw [map_eq_pure_bind]
    exact attempt_bind_answers (RateAdapter.create_answers outputRate hi hchannels)
      fun _ => returns_ok trivial

namespace Intake

/-- What every intake of a session with the given layout keeps: it maps to that layout, its adapter
leads from the rate of the stream to that of processing, and it carries less than a frame. -/
structure Sound (i : Intake R) (l : Layout) : Prop where
  layout : i.layout = l
  adapter : Leads i.adapter i.format.rate i.rate l.channels
  carry_lt : i.carry.length < i.format.channels * 2

/-- The adapter of an intake, if it has one, is refused no block. -/
def Unfailing (i : Intake R) : Prop := i.adapter.isSome → R.Unfailing

theorem unfailing_of_none {i : Intake R} (h : i.adapter = none) : i.Unfailing := by
  intro hsome
  rw [h] at hsome
  exact absurd hsome nofun

theorem Unfailing.elim {i : Intake R} (h : i.Unfailing) {a : RateAdapter R} (ha : i.adapter = some a) :
    R.Unfailing := by
  refine h ?_
  rw [ha]
  rfl

theorem frame_pos (i : Intake R) : 0 < i.format.channels * 2 :=
  Nat.mul_pos (Layout.channels_pos _) Nat.two_pos

/-! ### Making an intake -/

theorem create_cases {format : StreamFormat} {rate : Nat} {l : Layout} {ring : ByteRing} {i : Intake R}
    (h : (create format rate l ring).run = .ok (.ok i)) :
    ∃ adapter, (adapterBetween format.rate rate l.channels).run = .ok (.ok adapter) ∧
      i = { format, rate, layout := l, adapter, ring, carry := [] } := by
  obtain ⟨adapter, hadapter, h⟩ := attempt_bind_eq_ok.mp h
  rw [run_pure, Except.ok.injEq, Except.ok.injEq] at h
  exact ⟨adapter, hadapter, h.symm⟩

theorem create_sound {format : StreamFormat} {rate : Nat} {l : Layout} {ring : ByteRing} {i : Intake R}
    (h : (create format rate l ring).run = .ok (.ok i)) : i.Sound l := by
  obtain ⟨adapter, hadapter, rfl⟩ := create_cases h
  exact ⟨rfl, .of_adapterBetween hadapter, frame_pos _⟩

theorem Sound.flush {i : Intake R} {l : Layout} (h : i.Sound l) : i.flush.Sound l :=
  ⟨h.layout, h.adapter.reset, i.frame_pos⟩

/-- Another format comes with the adapter from its rate, and starts empty. -/
theorem setFormat_eq_ok {i j : Intake R} {format : StreamFormat} :
    (i.setFormat format).run = .ok (.ok j) ↔ ∃ adapter,
      (adapterBetween format.rate i.rate i.layout.channels).run = .ok (.ok adapter) ∧
        j = { i with format, adapter }.flush := by
  rw [setFormat, attempt_bind_eq_ok]
  simp only [run_pure, Except.ok.injEq, eq_comm]

theorem setFormat_sound {i j : Intake R} {l : Layout} {format : StreamFormat} (hi : i.Sound l)
    (h : (i.setFormat format).run = .ok (.ok j)) : j.Sound l := by
  obtain ⟨adapter, hadapter, rfl⟩ := setFormat_eq_ok.mp h
  rw [hi.layout] at hadapter
  exact ⟨hi.layout, (Leads.of_adapterBetween hadapter).reset, frame_pos _⟩

/-- A new format is taken or refused. -/
theorem setFormat_answers (i : Intake R) (format : StreamFormat) :
    Returns (i.setFormat format).run fun _ => True :=
  attempt_bind_answers
    (adapterBetween_answers i.rate format.minSampleRate_le i.layout.channels_le_two)
    fun _ => returns_ok trivial

/-! ### Incoming bytes -/

/-- Map, resample and encode the whole frames of the carried and the incoming bytes, as far as the
resampler goes. -/
def emit (i : Intake R) (bytes : List UInt8) : Intake R × List UInt8 :=
  let carry := i.carry ++ bytes
  let frame := i.format.channels * 2
  let converted := { i with carry := residue frame carry }.convert
    (Pcm.decode (blocks frame carry).flatten)
  (converted.1, Pcm.encode converted.2.1)

/-- Whether the resampler takes the whole frames of the carried and the incoming bytes. -/
def outcome (i : Intake R) (bytes : List UInt8) : Except RateAdapter.Error Unit :=
  (i.convert (Pcm.decode (blocks (i.format.channels * 2) (i.carry ++ bytes)).flatten)).2.2

variable {i : Intake R} {l : Layout}

/-- Converting changes nothing but the adapter. -/
theorem convert_same (i : Intake R) (samples : List Int16) :
    (i.convert samples).1 = { i with adapter := (i.convert samples).1.adapter } := by
  simp only [convert]
  split <;> rfl

/-- The intake with other bytes carried. -/
def recarry (i : Intake R) (carry : List UInt8) : Intake R := { i with carry }

/-- Converting does not look at the carried bytes. -/
theorem convert_recarry (i : Intake R) (carry : List UInt8) (samples : List Int16) :
    (i.recarry carry).convert samples =
      ((i.convert samples).1.recarry carry, (i.convert samples).2) := by
  obtain ⟨_, _, _, adapter, _, _⟩ := i
  cases adapter <;> rfl

/-- What is emitted is queued, unless the resampler fails. -/
theorem push_eq (i : Intake R) (bytes : List UInt8) :
    i.push bytes =
      match i.outcome bytes with
      | .error e => ((i.emit bytes).1, .error e)
      | .ok () =>
        (((i.emit bytes).1.enqueue (i.emit bytes).2).1,
          .ok ((i.emit bytes).1.enqueue (i.emit bytes).2).2) := by
  have hconvert := i.convert_recarry (residue (i.format.channels * 2) (i.carry ++ bytes))
    (Pcm.decode (blocks (i.format.channels * 2) (i.carry ++ bytes)).flatten)
  simp only [recarry] at hconvert
  have hcarry : (i.carry ++ bytes).drop ((i.carry ++ bytes).length / (i.format.channels * 2) *
      (i.format.channels * 2)) = residue (i.format.channels * 2) (i.carry ++ bytes) := rfl
  rw [push, emit, outcome, take_eq_flatten_blocks i.frame_pos]
  cases hout : (i.convert
      (Pcm.decode (blocks (i.format.channels * 2) (i.carry ++ bytes)).flatten)).2.2 with
  | error e => simp only [hcarry, hconvert, hout]
  | ok => simp only [hcarry, hconvert, hout]

theorem push_ok (h : i.outcome bytes = .ok ()) :
    i.push bytes = (((i.emit bytes).1.enqueue (i.emit bytes).2).1,
      .ok ((i.emit bytes).1.enqueue (i.emit bytes).2).2) := by
  rw [push_eq, h]

theorem push_failed {e : RateAdapter.Error} (h : i.outcome bytes = .error e) :
    i.push bytes = ((i.emit bytes).1, .error e) := by
  rw [push_eq, h]

theorem convert_sound (h : i.Sound l) (samples : List Int16) : (i.convert samples).1.Sound l := by
  cases ha : i.adapter with
  | none =>
    simp only [Intake.convert, ha]
    exact h
  | some a =>
    simp only [Intake.convert, ha]
    have hleads := h.adapter
    rw [ha] at hleads
    exact ⟨h.layout, hleads.after_process _, h.carry_lt⟩

/-- An unfailing resampler takes everything, and whole frames come out. -/
theorem convert_ok (h : i.Sound l) (hi : i.Unfailing) {samples : List Int16}
    (hsamples : i.format.layout.channels ∣ samples.length) :
    (i.convert samples).2.2 = .ok () ∧ l.channels ∣ (i.convert samples).2.1.length := by
  cases ha : i.adapter with
  | none =>
    simp only [convert, ha, h.layout, Layout.length_remap hsamples, true_and]
    exact Nat.dvd_mul_left _ _
  | some a =>
    simp only [convert, ha]
    exact (h.adapter.serves a ha).process_ok (hi.elim ha) _

/-- Whole frames are converted on their own. -/
theorem convert_append (h : i.Sound l) (hi : i.Unfailing) {xs ys : List Int16}
    (hx : i.format.layout.channels ∣ xs.length) (hy : i.format.layout.channels ∣ ys.length) :
    i.convert (xs ++ ys) =
      (((i.convert xs).1.convert ys).1, (i.convert xs).2.1 ++ ((i.convert xs).1.convert ys).2.1,
        ((i.convert xs).1.convert ys).2.2) := by
  have hmapped {zs : List Int16} (hz : i.format.layout.channels ∣ zs.length) :
      l.channels ∣ (i.format.layout.remap i.layout zs).length := by
    rw [Layout.length_remap hz, h.layout]
    exact Nat.dvd_mul_left _ _
  cases ha : i.adapter with
  | none => simp only [convert, ha, Layout.remap_append hx]
  | some a =>
    have hserves := h.adapter.serves a ha
    have happend := RateAdapter.process_append (hserves.process_ok (hi.elim ha) _).1
      (hserves.channels.symm ▸ hmapped hx) (hserves.channels.symm ▸ hmapped hy)
    simp only [convert, ha, Layout.remap_append hx, happend]

theorem convert_nil (h : i.Sound l) (hi : i.Unfailing) : i.convert [] = (i, [], .ok ()) := by
  have hmapped : i.format.layout.remap i.layout [] = [] := by
    cases i.format.layout <;> cases i.layout <;> rfl
  cases ha : i.adapter with
  | none => simp only [convert, ha, hmapped]
  | some a =>
    simp only [convert, ha, hmapped, (h.adapter.serves a ha).process_nil (hi.elim ha)]
    rw [← ha]

/-- Emitting converts the whole frames and carries the rest. -/
theorem emit_eq (i : Intake R) (bytes : List UInt8) :
    i.emit bytes =
      ((i.convert (Pcm.decode (blocks (i.format.channels * 2) (i.carry ++ bytes)).flatten)).1.recarry
          (residue (i.format.channels * 2) (i.carry ++ bytes)),
        Pcm.encode
          (i.convert (Pcm.decode (blocks (i.format.channels * 2) (i.carry ++ bytes)).flatten)).2.1) := by
  have h := i.convert_recarry (residue (i.format.channels * 2) (i.carry ++ bytes))
    (Pcm.decode (blocks (i.format.channels * 2) (i.carry ++ bytes)).flatten)
  simp only [recarry] at h
  simp only [emit, h]
  rfl

/-- Emitting leaves the ring and the formats alone. -/
theorem emit_same (i : Intake R) (bytes : List UInt8) :
    (i.emit bytes).1 = { i with
      carry := residue (i.format.channels * 2) (i.carry ++ bytes)
      adapter := (i.emit bytes).1.adapter } := by
  rw [emit_eq, convert_same]
  rfl

theorem emit_sound (h : i.Sound l) (bytes : List UInt8) : (i.emit bytes).1.Sound l := by
  have hconvert := convert_sound h
    (Pcm.decode (blocks (i.format.channels * 2) (i.carry ++ bytes)).flatten)
  refine ⟨by rw [emit_same]; exact h.layout, ?_, ?_⟩
  · rw [emit_eq]
    rw [convert_same] at hconvert ⊢
    exact hconvert.adapter
  · rw [emit_same]
    exact length_residue_lt i.frame_pos _

/-- There is an adapter after a conversion just when there was one. -/
theorem isSome_convert (i : Intake R) (samples : List Int16) :
    (i.convert samples).1.adapter.isSome = i.adapter.isSome := by
  cases ha : i.adapter with
  | none => simp only [convert, ha]
  | some a => simp only [convert, ha, Option.isSome_some]

theorem Unfailing.emit (hi : i.Unfailing) (bytes : List UInt8) : (i.emit bytes).1.Unfailing := by
  intro hsome
  rw [emit_eq] at hsome
  exact hi ((i.isSome_convert _).symm.trans hsome)

/-- Nothing comes of no bytes. -/
theorem emit_nil (h : i.Sound l) (hi : i.Unfailing) : i.emit [] = (i, []) := by
  simp only [emit, List.append_nil, blocks_of_length_lt h.carry_lt, residue_of_length_lt h.carry_lt,
    List.flatten_nil, Pcm.decode_nil, convert_nil h hi, Pcm.encode_nil]

theorem dvd_length_flatten_blocks (i : Intake R) (bytes : List UInt8) :
    i.format.channels * 2 ∣ (blocks (i.format.channels * 2) bytes).flatten.length := by
  rw [← take_eq_flatten_blocks i.frame_pos, List.length_take,
    Nat.min_eq_left (Nat.div_mul_le_self _ _)]
  exact Nat.dvd_mul_left _ _

/-- The samples of whole frames. -/
theorem dvd_length_decode_blocks (i : Intake R) (bytes : List UInt8) : i.format.layout.channels ∣
    (Pcm.decode (blocks (i.format.channels * 2) bytes).flatten).length := by
  obtain ⟨k, hk⟩ := i.dvd_length_flatten_blocks bytes
  rw [Pcm.length_decode, hk, Nat.mul_right_comm, Nat.mul_div_cancel _ Nat.two_pos]
  exact Nat.dvd_mul_right _ _

/-- An unfailing resampler takes whatever comes in, and whole frames are emitted. -/
theorem outcome_ok (h : i.Sound l) (hi : i.Unfailing) (bytes : List UInt8) :
    i.outcome bytes = .ok () ∧ l.channels * 2 ∣ (i.emit bytes).2.length := by
  obtain ⟨hok, hwhole⟩ := convert_ok h hi (i.dvd_length_decode_blocks (i.carry ++ bytes))
  refine ⟨hok, ?_⟩
  rw [emit_eq, Pcm.length_encode, Nat.mul_comm l.channels]
  exact Nat.mul_dvd_mul_left 2 hwhole

/-- An unfailing resampler fails no push. -/
theorem push_answers (h : i.Sound l) (hi : i.Unfailing) (bytes : List UInt8) :
    ∃ dropped, (i.push bytes).2 = .ok dropped := by
  rw [push_ok (outcome_ok h hi bytes).1]
  exact ⟨_, rfl⟩

/-- Emitting does not see how the bytes were cut. -/
theorem emit_append (h : i.Sound l) (hi : i.Unfailing) (xs ys : List UInt8) :
    i.emit (xs ++ ys) =
      (((i.emit xs).1.emit ys).1, (i.emit xs).2 ++ ((i.emit xs).1.emit ys).2) := by
  have hn := i.frame_pos
  have hframes := i.dvd_length_decode_blocks
  have heven := Nat.dvd_trans (Nat.dvd_mul_left 2 _) (i.dvd_length_flatten_blocks (i.carry ++ xs))
  have hformat : (i.emit xs).1.format = i.format := by rw [emit_same]
  have hcarry : (i.emit xs).1.carry = residue (i.format.channels * 2) (i.carry ++ xs) := by
    rw [emit_same]
  rw [emit_eq (i.emit xs).1, hformat, hcarry, emit_eq i xs, emit_eq i (xs ++ ys),
    ← List.append_assoc, blocks_append_left hn (i.carry ++ xs), residue_append_left hn (i.carry ++ xs),
    List.flatten_append, Pcm.decode_append heven, convert_append h hi (hframes _) (hframes _)]
  simp only [convert_recarry, Pcm.encode_append]
  rfl

/-- The intake with another ring. -/
def rering (i : Intake R) (ring : ByteRing) : Intake R := { i with ring }

/-- Emitting does not look at the ring. -/
theorem emit_rering (i : Intake R) (ring : ByteRing) (bytes : List UInt8) :
    (i.rering ring).emit bytes = ((i.emit bytes).1.rering ring, (i.emit bytes).2) := by
  obtain ⟨_, _, _, adapter, _, _⟩ := i
  cases adapter <;> rfl

theorem outcome_rering (i : Intake R) (ring : ByteRing) (bytes : List UInt8) :
    (i.rering ring).outcome bytes = i.outcome bytes := by
  obtain ⟨_, _, _, adapter, _, _⟩ := i
  cases adapter <;> rfl

/-! ### Queueing -/

/-- Without a drop all bytes are queued. -/
theorem enqueue_of_kept (i : Intake R) {bytes : List UInt8} (h : (i.enqueue bytes).2 = 0) :
    (i.enqueue bytes).1.ring.toList = i.ring.toList ++ bytes := by
  simp only [enqueue, ByteRing.write_count, List.length_take] at h
  have hfree := Nat.div_mul_le_self i.ring.free (i.layout.channels * 2)
  simp only [enqueue]
  rw [List.take_of_length_le (by omega), ByteRing.toList_write_of_le (by omega)]

theorem push_sound (h : i.Sound l) (bytes : List UInt8) : (i.push bytes).1.Sound l := by
  have he := emit_sound h bytes
  cases hout : i.outcome bytes with
  | error e =>
    rw [push_failed hout]
    exact he
  | ok done =>
    rw [push_ok hout]
    exact ⟨he.layout, he.adapter, he.carry_lt⟩

theorem read_sound (h : i.Sound l) (n : Nat) : (i.read n).1.Sound l := ⟨h.layout, h.adapter, h.carry_lt⟩

/-! ### Taking off -/

theorem read_eq (i : Intake R) (n : Nat) :
    i.read n = ({ i with ring := i.ring.skip (min n i.ring.avail) }, i.ring.toList.take n) := by
  have htake : i.ring.toList.take (min n i.ring.avail) = i.ring.toList.take n := by
    rw [← i.ring.length_toList, ← List.take_eq_take_min]
  have hlen : (i.ring.toList.take n).length = min n i.ring.avail := by simp
  have hroom : (i.ring.toList.take n).length ≤ (List.replicate n (0 : UInt8)).length := by
    rw [hlen, List.length_replicate]
    exact Nat.min_le_left _ _
  simp only [read, ByteRing.read_eq, List.length_replicate, htake]
  rw [← hlen, take_overlay hroom]

/-- The bytes that stay queued after a read. -/
theorem toList_read (i : Intake R) (n : Nat) :
    (i.read n).1.ring.toList = i.ring.toList.drop n := by
  rw [read_eq]
  show (i.ring.skip (min n i.ring.avail)).toList = _
  rw [ByteRing.toList_skip (by omega)]
  rcases Nat.le_total n i.ring.avail with h | h
  · rw [Nat.min_eq_left h]
  · rw [Nat.min_eq_right h, List.drop_of_length_le (by simp),
      List.drop_of_length_le (by simpa using h)]

theorem avail_read (i : Intake R) (n : Nat) : (i.read n).1.avail = i.avail - n := by
  show (i.read n).1.ring.avail = i.ring.avail - n
  rw [← ByteRing.length_toList, toList_read, List.length_drop, ByteRing.length_toList]

theorem capacity_read (i : Intake R) (n : Nat) : (i.read n).1.ring.capacity = i.ring.capacity := by
  rw [read_eq]
  rfl

/-! ### Streams -/

theorem push_same (i : Intake R) (bytes : List UInt8) :
    (i.push bytes).1 = (i.emit bytes).1.rering (i.push bytes).1.ring := by
  cases hout : i.outcome bytes with
  | error e => rw [push_failed hout]; rfl
  | ok done => rw [push_ok hout]; rfl

/-- A push fails with the resampler only. -/
theorem push_error {bytes : List UInt8} {e : RateAdapter.Error} (h : (i.push bytes).2 = .error e) :
    ∃ cause, e = .resample cause := by
  cases hout : i.outcome bytes with
  | ok done =>
    rw [push_ok hout] at h
    exact absurd h nofun
  | error e' =>
    rw [push_failed hout] at h
    obtain rfl := Except.error.inj h
    cases ha : i.adapter with
    | none =>
      simp only [outcome, convert, ha] at hout
      exact absurd hout nofun
    | some a =>
      simp only [outcome, convert, ha] at hout
      exact RateAdapter.drain_error hout

theorem push_format (i : Intake R) (bytes : List UInt8) : (i.push bytes).1.format = i.format := by
  rw [push_same, emit_same]
  rfl

theorem capacity_push (i : Intake R) (bytes : List UInt8) :
    (i.push bytes).1.ring.capacity = i.ring.capacity := by
  have hring : (i.emit bytes).1.ring = i.ring := by rw [emit_same]
  cases hout : i.outcome bytes with
  | error e => rw [push_failed hout, hring]
  | ok done =>
    rw [push_ok hout, ← hring]
    rfl

/-- From one state of an intake to another, some bytes came in; the ring may be any. -/
def Follows (i₀ : Intake R) (taken : List UInt8) (i : Intake R) : Prop :=
  i = (i₀.emit taken).1.rering i.ring

theorem Sound.follows (h : i.Sound l) (hi : i.Unfailing) : Follows i [] i := by
  unfold Follows
  rw [emit_nil h hi]
  rfl

theorem Follows.unfailing {i₀ : Intake R} {taken : List UInt8} (h : Follows i₀ taken i)
    (hi : i₀.Unfailing) : i.Unfailing := by
  rw [show i = (i₀.emit taken).1.rering i.ring from h]
  exact hi.emit taken

theorem Follows.emit {i₀ : Intake R} {taken : List UInt8} (h : Follows i₀ taken i)
    (bytes : List UInt8) :
    i.emit bytes = (((i₀.emit taken).1.emit bytes).1.rering i.ring,
      ((i₀.emit taken).1.emit bytes).2) := by
  rw [← emit_rering, ← show i = (i₀.emit taken).1.rering i.ring from h]

/-- What is emitted from the beginning, if more bytes come in. -/
theorem Follows.emit_append {i₀ : Intake R} {taken : List UInt8} (h : Follows i₀ taken i)
    (h₀ : i₀.Sound l) (hi : i₀.Unfailing) (bytes : List UInt8) :
    (i₀.emit (taken ++ bytes)).2 = (i₀.emit taken).2 ++ (i.emit bytes).2 := by
  rw [Intake.emit_append h₀ hi, h.emit]

theorem Follows.push {i₀ : Intake R} {taken : List UInt8} (h : Follows i₀ taken i)
    (h₀ : i₀.Sound l) (hi : i₀.Unfailing) (bytes : List UInt8) :
    Follows i₀ (taken ++ bytes) (i.push bytes).1 := by
  unfold Follows
  rw [push_same, Intake.emit_append h₀ hi, h.emit]
  rfl

theorem Follows.read {i₀ : Intake R} {taken : List UInt8} (h : Follows i₀ taken i) (n : Nat) :
    Follows i₀ taken (i.read n).1 := by
  show i.rering _ = (i₀.emit taken).1.rering _
  rw [show i = (i₀.emit taken).1.rering i.ring from h]
  rfl

/-- How an intake gets from one state to another: some bytes came in, and some of what was queued
and emitted was taken off. -/
structure Ahead (i₀ : Intake R) (taken used : List UInt8) (i : Intake R) : Prop where
  same : Follows i₀ taken i
  queue : i₀.ring.toList ++ (i₀.emit taken).2 = used ++ i.ring.toList

theorem Sound.ahead (h : i.Sound l) (hi : i.Unfailing) : Ahead i [] [] i := by
  refine ⟨h.follows hi, ?_⟩
  rw [emit_nil h hi, List.append_nil, List.nil_append]

/-- Bytes come in without a drop. -/
theorem Ahead.push {i₀ : Intake R} {taken used bytes : List UInt8} (h : Ahead i₀ taken used i)
    (h₀ : i₀.Sound l) (hi : i₀.Unfailing) (hkept : (i.push bytes).2 = .ok 0) :
    Ahead i₀ (taken ++ bytes) used (i.push bytes).1 := by
  refine ⟨h.same.push h₀ hi bytes, ?_⟩
  have hring : (i.emit bytes).1.ring = i.ring := by rw [emit_same]
  cases hout : i.outcome bytes with
  | error e =>
    rw [push_failed hout] at hkept
    exact absurd hkept nofun
  | ok done =>
    rw [push_ok hout] at hkept
    rw [push_ok hout, enqueue_of_kept _ (Except.ok.inj hkept), hring, h.same.emit_append h₀ hi,
      ← List.append_assoc, h.queue, List.append_assoc]

/-- Queued bytes are taken off. -/
theorem Ahead.read {i₀ : Intake R} {taken used : List UInt8} (h : Ahead i₀ taken used i) (n : Nat) :
    Ahead i₀ taken (used ++ i.ring.toList.take n) (i.read n).1 := by
  refine ⟨h.same.read n, ?_⟩
  rw [h.queue, toList_read, List.append_assoc, List.take_append_drop]

end Intake

end Duplex
