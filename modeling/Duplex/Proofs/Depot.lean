import Duplex.Proofs.Feeder
import Duplex.Proofs.Window

/-!
# Depots: all that a rate adapter stores

A `Depot` stores six things for a `Converter`: the state of the converter, the frames that are staged,
the storage that the converter writes its output to, the bytes that are carried, and two buffers for
samples. Of these a reset clears the first, the second and the fourth. What stays in the others is
written over before it is read: depots that are equal in what a reset clears are `Twins`, and answer
alike. So a depot that was reset, or flushed, answers as a new one (`Depot.cleared_answers`).
-/

namespace Duplex

open Signal
open RateAdapter (render)

/-! ### Converters -/

/-- What a converter leaves: its state, what it wrote to the start of the storage of each channel, and
how many frames it reports, if it did not fail. -/
structure Outcome (σ ε : Type) where
  state : σ
  written : List (List Float32)
  frames : Except ε Nat

/-- A converter as a machine that may fail. It is fed from columns of input, of which it takes a block,
and finished with columns short of a block, and it is given storage for so many frames of output. -/
structure Converter where
  State : Type
  Input : Type
  Failure : Type
  /-- A sample in the form that the converter takes. -/
  form : Int16 → Input
  channels : Nat
  /-- The frames in the next block. -/
  needed : State → Nat
  /-- The frames that the storage of a channel has room for. -/
  room : Nat
  fresh : State
  reset : State → State
  feed : State → List (List Input) → Outcome State Failure
  finish : State → List (List Input) → Outcome State Failure
  channels_pos : 0 < channels
  needed_pos : ∀ s, 0 < needed s

namespace Converter

variable (c : Converter)

/-- A column of the same height for each channel. -/
structure Level {α : Type} (columns : List (List α)) : Prop where
  channels : columns.length = c.channels
  height : ∃ k, ∀ column ∈ columns, column.length = k

/-- Storage for the output of each channel. -/
structure Stored (output : List (List Float32)) : Prop where
  channels : output.length = c.channels
  room : ∀ store ∈ output, store.length = c.room

/-- Every frame that is reported has room and was written. -/
structure Writes (o : Outcome c.State c.Failure) (n : Nat) : Prop where
  room : n ≤ c.room
  channels : o.written.length = c.channels
  frames : ∀ column ∈ o.written, n ≤ column.length

/-- The state is good, and what is reported was written. -/
structure Safe (good : c.State → Prop) (o : Outcome c.State c.Failure) : Prop where
  good : good o.state
  writes : ∀ n, o.frames = .ok n → c.Writes o n

/-- In its good states a converter writes what it reports of a block or of columns to finish with, and a
reset makes it fresh. -/
structure Sound (good : c.State → Prop) : Prop where
  fresh : good c.fresh
  reset : ∀ s, good s → c.reset s = c.fresh
  feed : ∀ s staged, good s → c.Level staged → c.needed s ≤ (staged.headD []).length →
    c.Safe good (c.feed s staged)
  finish : ∀ s staged, good s → c.Level staged → c.Safe good (c.finish s staged)

end Converter

/-! ### Depots -/

/-- Storage around a converter. -/
structure Depot (c : Converter) where
  state : c.State
  /-- The frames short of a block, a column for each channel. -/
  staged : List (List c.Input)
  /-- Where the converter writes its output. -/
  output : List (List Float32)
  /-- The bytes short of a frame. -/
  carry : List UInt8
  /-- The samples decoded last. -/
  samplesIn : List Int16
  /-- The samples made last. -/
  samplesOut : List Int16

namespace Depot

variable {c : Converter}

/-- A new depot. -/
def create (c : Converter) : Depot c where
  state := c.fresh
  staged := List.replicate c.channels []
  output := List.replicate c.channels (List.replicate c.room 0)
  carry := []
  samplesIn := []
  samplesOut := []

/-- Stage the samples of whole frames, each on its channel; an incomplete last frame is ignored. -/
def stage (d : Depot c) (input : List Int16) : Depot c :=
  { d with
    staged := (blocks c.channels input).foldl
      (fun staged frame => List.zipWith (fun column v => column ++ [c.form v]) staged frame)
      d.staged }

/-- Drop a block of every channel. -/
def unstage (d : Depot c) : Depot c := { d with staged := d.staged.map (·.drop (c.needed d.state)) }

/-- A block less is staged. -/
theorem length_unstage {d : Depot c} (h : c.needed d.state ≤ (d.staged.headD []).length) :
    (d.unstage.staged.headD []).length < (d.staged.headD []).length := by
  have hpos := c.needed_pos d.state
  rw [unstage]
  cases hstaged : d.staged with
  | nil =>
    rw [hstaged, List.headD_nil, List.length_nil] at h
    omega
  | cons first rest =>
    rw [hstaged, List.headD_cons] at h
    simp only [List.map_cons, List.headD_cons, List.length_drop]
    omega

/-- Keep what the converter left. -/
def absorb (d : Depot c) (o : Outcome c.State c.Failure) : Depot c :=
  { d with
    state := o.state
    output := d.output.mapIdx fun i store => overlay store 0 (o.written.getD i []) }

/-- The first frames of the output, rounded and interleaved. -/
def made (d : Depot c) (n : Nat) : List Int16 := render (d.output.map (·.take n))

/-- Feed blocks as long as the first channel has one, and append what they make to `out`. If the
converter fails, its block stays staged. -/
def drain (d : Depot c) (out : List Int16) : Depot c × List Int16 × Except c.Failure Unit :=
  if _h : c.needed d.state ≤ (d.staged.headD []).length then
    let fed := d.absorb (c.feed d.state d.staged)
    match (c.feed d.state d.staged).frames with
    | .error e => (fed, out, .error e)
    | .ok n => drain { fed with staged := d.unstage.staged } (out ++ fed.made n)
  else (d, out, .ok ())
termination_by (d.staged.headD []).length
decreasing_by exact length_unstage _h

/-- Convert interleaved samples onto the end of `out`, and count the samples appended. -/
def process (d : Depot c) (input out : List Int16) : Depot c × List Int16 × Except c.Failure Nat :=
  let (d, made, result) := (d.stage input).drain out
  (d, made, result.map fun _ => made.length - out.length)

/-- Convert bytes onto the end of `out`, and count the bytes appended; those of an incomplete last frame
wait for the next call. The samples go through the two buffers, which are emptied first. If the
converter fails, nothing is appended. -/
def processBytes (d : Depot c) (input out : List UInt8) :
    Depot c × List UInt8 × Except c.Failure Nat :=
  let carry := d.carry ++ input
  let whole := carry.length - carry.length % (2 * c.channels)
  let samplesIn := (Pcm.decodeInto (carry.take whole) (fit (whole / 2) 0 (d.samplesIn.take 0))).2
  let (d, samplesOut, result) :=
    { d with carry := carry.drop whole, samplesIn := [], samplesOut := [] }.process samplesIn
      (d.samplesOut.take 0)
  ({ d with samplesIn, samplesOut },
    if result.isOk then out ++ Pcm.encode samplesOut else out, result.map (2 * ·))

/-- Drop what is staged and carried, and the history of the converter. -/
def reset (d : Depot c) : Depot c :=
  { d with state := c.reset d.state, staged := d.staged.map fun _ => [], carry := [] }

/-- Finish with what is staged, append what that makes to `out`, and reset. If the converter fails,
there is no reset. -/
def flush (d : Depot c) (out : List Int16) : Depot c × List Int16 × Except c.Failure Nat :=
  if (d.staged.headD []).isEmpty then (d.reset, out, .ok 0)
  else
    let finished := d.absorb (c.finish d.state d.staged)
    match (c.finish d.state d.staged).frames with
    | .error e => (finished, out, .error e)
    | .ok n => (finished.reset, out ++ finished.made n, .ok (finished.made n).length)

/-! #### Calls -/

/-- A call, with the output that it is to append to. -/
inductive Call where
  | process (input out : List Int16)
  | processBytes (input out : List UInt8)
  | flush (out : List Int16)
  | reset

/-- The output after a call and how much was appended, or why not. -/
inductive Answer (ε : Type) where
  | samples (out : List Int16) (appended : Except ε Nat)
  | bytes (out : List UInt8) (appended : Except ε Nat)
  | done

def perform (d : Depot c) : Call → Depot c × Answer c.Failure
  | .process input out =>
    let (d, out, appended) := d.process input out
    (d, .samples out appended)
  | .processBytes input out =>
    let (d, out, appended) := d.processBytes input out
    (d, .bytes out appended)
  | .flush out =>
    let (d, out, appended) := d.flush out
    (d, .samples out appended)
  | .reset => (d.reset, .done)

/-- A reset, or a flush that succeeds. -/
def Clears (d : Depot c) (call : Call) : Prop :=
  call = .reset ∨ ∃ out out' n, call = .flush out ∧ (d.perform call).2 = .samples out' (.ok n)

/-! ### What is left of the past -/

/-- Depots that are equal in what a reset clears, with their storage in order. -/
structure Twins (good : c.State → Prop) (d d' : Depot c) : Prop where
  state : d.state = d'.state
  staged : d.staged = d'.staged
  carry : d.carry = d'.carry
  good : good d.state
  level : c.Level d.staged
  stored : c.Stored d.output ∧ c.Stored d'.output

variable {d d' : Depot c} {o : Outcome c.State c.Failure}

theorem level_nil {α : Type} : c.Level (List.replicate c.channels ([] : List α)) :=
  ⟨List.length_replicate, 0, fun _ h => by rw [List.eq_of_mem_replicate h, List.length_nil]⟩

theorem stored_absorb (h : c.Stored d.output) : c.Stored (d.absorb o).output := by
  refine ⟨(List.length_mapIdx ..).trans h.channels, ?_⟩
  intro store hstore
  obtain ⟨i, hi, rfl⟩ := List.mem_mapIdx.mp hstore
  rw [length_overlay]
  exact h.room _ (List.getElem_mem hi)

/-- Of what is reported nothing is left of the storage before. -/
theorem made_absorb (h : c.Stored d.output) {n : Nat} (hn : c.Writes o n) :
    (d.absorb o).made n = render (o.written.map (·.take n)) := by
  refine congrArg render (List.ext_getElem ?_ ?_)
  · rw [List.length_map, List.length_map, (stored_absorb h).channels, hn.channels]
  · intro i hi hi'
    have hstore : i < d.output.length := by simpa [absorb] using hi
    have hcolumn : i < o.written.length := by simpa using hi'
    have hroom := h.room _ (List.getElem_mem hstore)
    have hframes := hn.frames _ (List.getElem_mem hcolumn)
    have hfits := hn.room
    simp only [absorb, List.getElem_map, List.getElem_mapIdx, List.getD_eq_getElem _ _ hcolumn, overlay]
    rw [List.take_zero, List.nil_append,
      List.take_append_of_le_length (by rw [List.length_take]; omega), List.take_take]
    congr 1
    omega

/-- Whole frames are staged on every channel. -/
theorem level_stage (h : c.Level d.staged) (input : List Int16) : c.Level (d.stage input).staged := by
  have hframes : ∀ frame ∈ blocks c.channels input, frame.length = c.channels :=
    fun frame hframe => length_of_mem_blocks c.channels_pos hframe
  show c.Level ((blocks c.channels input).foldl _ d.staged)
  generalize blocks c.channels input = frames at hframes
  generalize d.staged = staged at h
  induction frames generalizing staged with
  | nil => exact h
  | cons frame frames ih =>
    refine ih (fun f hf => hframes f (List.mem_cons_of_mem frame hf)) _ ?_
    obtain ⟨hchannels, k, hk⟩ := h
    refine ⟨?_, k + 1, ?_⟩
    · rw [List.length_zipWith, hchannels, hframes frame List.mem_cons_self, Nat.min_self]
    · intro column hcolumn
      obtain ⟨old, hold, v, -, rfl⟩ := exists_of_mem_zipWith hcolumn
      rw [List.length_append, hk old hold, List.length_singleton]

theorem level_unstage (h : c.Level d.staged) : c.Level d.unstage.staged := by
  obtain ⟨hchannels, k, hk⟩ := h
  refine ⟨(List.length_map ..).trans hchannels, k - c.needed d.state, ?_⟩
  intro column hcolumn
  obtain ⟨old, hold, rfl⟩ := List.mem_map.mp hcolumn
  rw [List.length_drop, hk old hold]

namespace Twins

variable {good : c.State → Prop} (h : Twins good d d')

include h

theorem stage (input : List Int16) : Twins good (d.stage input) (d'.stage input) := by
  refine ⟨h.state, ?_, h.carry, h.good, level_stage h.level input, h.stored⟩
  show List.foldl _ d.staged _ = List.foldl _ d'.staged _
  rw [h.staged]

/-- What the converter leaves in both depots is the same, as far as it is reported. -/
theorem absorb (ho : c.Safe good o) :
    Twins good (d.absorb o) (d'.absorb o) ∧
      ∀ n, o.frames = .ok n → (d.absorb o).made n = (d'.absorb o).made n := by
  refine ⟨⟨rfl, h.staged, h.carry, ho.good, h.level, stored_absorb h.stored.1,
    stored_absorb h.stored.2⟩, ?_⟩
  intro n hn
  rw [made_absorb h.stored.1 (ho.writes n hn), made_absorb h.stored.2 (ho.writes n hn)]

theorem unstage : Twins good d.unstage d'.unstage := by
  refine ⟨h.state, ?_, h.carry, h.good, level_unstage h.level, h.stored⟩
  rw [Depot.unstage, Depot.unstage, h.staged, h.state]

end Twins

/-- Bytes are decoded, and what is made is encoded; the buffers keep nothing that was in them. -/
theorem processBytes_eq {input out : List UInt8} {joined : List UInt8} {whole : Nat}
    (hjoined : d.carry ++ input = joined)
    (hwhole : joined.length - joined.length % (2 * c.channels) = whole) {next : Depot c}
    {made : List Int16} {result : Except c.Failure Nat}
    (h : ({ d with carry := joined.drop whole, samplesIn := [], samplesOut := [] } : Depot c).process
      (Pcm.decode (joined.take whole)) [] = (next, made, result)) :
    d.processBytes input out =
      ({ next with samplesIn := Pcm.decode (joined.take whole), samplesOut := made },
        if result.isOk then out ++ Pcm.encode made else out, result.map (2 * ·)) := by
  have hsize : (fit (whole / 2) 0 (d.samplesIn.take 0)).length = (joined.take whole).length / 2 := by
    rw [length_fit, List.length_take, Nat.min_eq_left (by omega)]
  rw [processBytes, hjoined, hwhole, Pcm.decodeInto_whole hsize]
  dsimp only
  rw [List.take_zero, h]

/-! #### One step of a drain -/

theorem drain_of_lt (h : (d.staged.headD []).length < c.needed d.state) (out : List Int16) :
    d.drain out = (d, out, .ok ()) := by
  rw [drain, dif_neg (Nat.not_le_of_lt h)]

theorem drain_of_error (h : c.needed d.state ≤ (d.staged.headD []).length) {e : c.Failure}
    (he : (c.feed d.state d.staged).frames = .error e) (out : List Int16) :
    d.drain out = (d.absorb (c.feed d.state d.staged), out, .error e) := by
  rw [drain, dif_pos h]
  simp only [he]

theorem drain_of_ok (h : c.needed d.state ≤ (d.staged.headD []).length) {n : Nat}
    (hn : (c.feed d.state d.staged).frames = .ok n) (out : List Int16) :
    d.drain out = (d.unstage.absorb (c.feed d.state d.staged)).drain
      (out ++ (d.absorb (c.feed d.state d.staged)).made n) := by
  rw [drain, dif_pos h]
  simp only [hn]
  rfl

namespace Twins

variable {good : c.State → Prop} (hc : c.Sound good)

include hc

theorem drain (h : Twins good d d') (out : List Int16) :
    Twins good (d.drain out).1 (d'.drain out).1 ∧ (d.drain out).2 = (d'.drain out).2 := by
  -- The storage differs from round to round, but of it only what was just written is read.
  induction hn : (d.staged.headD []).length using Nat.strongRecOn generalizing d d' out with
  | ind n ih =>
    have hstate := h.state
    have hstaged := h.staged
    by_cases hblock : c.needed d.state ≤ (d.staged.headD []).length
    · have hsafe := hc.feed d.state d.staged h.good h.level hblock
      obtain ⟨hnext, hmade⟩ := h.absorb hsafe
      have hblock' : c.needed d'.state ≤ (d'.staged.headD []).length := hstate ▸ hstaged ▸ hblock
      cases hframes : (c.feed d.state d.staged).frames with
      | error e =>
        have hframes' : (c.feed d'.state d'.staged).frames = .error e := hstate ▸ hstaged ▸ hframes
        rw [drain_of_error hblock hframes, drain_of_error hblock' hframes', ← hstate, ← hstaged]
        exact ⟨hnext, rfl⟩
      | ok m =>
        have hframes' : (c.feed d'.state d'.staged).frames = .ok m := hstate ▸ hstaged ▸ hframes
        have hother := drain_of_ok hblock' hframes' out
        rw [← hstate, ← hstaged, ← hmade m hframes] at hother
        rw [drain_of_ok hblock hframes, hother]
        exact ih _ (hn ▸ length_unstage hblock) (h.unstage.absorb hsafe).1 _ rfl
    · have hlt := Nat.lt_of_not_le hblock
      have hlt' : (d'.staged.headD []).length < c.needed d'.state := hstate ▸ hstaged ▸ hlt
      rw [drain_of_lt hlt, drain_of_lt hlt']
      exact ⟨h, rfl⟩

theorem process (h : Twins good d d') (input out : List Int16) :
    Twins good (d.process input out).1 (d'.process input out).1 ∧
      (d.process input out).2 = (d'.process input out).2 := by
  obtain ⟨hnext, hanswer⟩ := drain hc (h.stage input) out
  exact ⟨hnext, congrArg (fun r : List Int16 × Except c.Failure Unit =>
    (r.1, r.2.map fun _ => r.1.length - out.length)) hanswer⟩

/-- The buffers are emptied before they are filled. -/
theorem processBytes (h : Twins good d d') (input out : List UInt8) :
    Twins good (d.processBytes input out).1 (d'.processBytes input out).1 ∧
      (d.processBytes input out).2 = (d'.processBytes input out).2 := by
  obtain ⟨joined, hjoined⟩ : ∃ joined, d.carry ++ input = joined := ⟨_, rfl⟩
  obtain ⟨whole, hwhole⟩ : ∃ whole, joined.length - joined.length % (2 * c.channels) = whole := ⟨_, rfl⟩
  have hempty : Twins good { d with carry := joined.drop whole, samplesIn := [], samplesOut := [] }
      { d' with carry := joined.drop whole, samplesIn := [], samplesOut := [] } :=
    ⟨h.state, h.staged, rfl, h.good, h.level, h.stored⟩
  obtain ⟨hnext, hanswer⟩ := process hc hempty
    (Pcm.decodeInto (joined.take whole) (fit (whole / 2) 0 [])).2 []
  rw [Depot.processBytes, Depot.processBytes, ← h.carry, hjoined, hwhole]
  refine ⟨⟨hnext.state, hnext.staged, hnext.carry, hnext.good, hnext.level, hnext.stored⟩, ?_⟩
  exact congrArg (fun r : List Int16 × Except c.Failure Nat =>
    (if r.2.isOk then out ++ Pcm.encode r.1 else out, r.2.map (2 * ·))) hanswer

theorem reset (h : Twins good d d') : Twins good d.reset d'.reset := by
  refine ⟨?_, ?_, rfl, ?_, ?_, h.stored⟩
  · rw [Depot.reset, Depot.reset, h.state]
  · rw [Depot.reset, Depot.reset, h.staged]
  · show good (c.reset d.state)
    rw [hc.reset _ h.good]
    exact hc.fresh
  · show c.Level (d.staged.map fun _ => [])
    rw [List.map_const', h.level.channels]
    exact level_nil

theorem flush (h : Twins good d d') (out : List Int16) :
    Twins good (d.flush out).1 (d'.flush out).1 ∧ (d.flush out).2 = (d'.flush out).2 := by
  have hstate := h.state
  have hstaged := h.staged
  obtain ⟨hnext, hmade⟩ := h.absorb (hc.finish d.state d.staged h.good h.level)
  rw [Depot.flush, Depot.flush, ← hstate, ← hstaged]
  by_cases hempty : (d.staged.headD []).isEmpty
  · rw [if_pos hempty, if_pos hempty]
    exact ⟨reset hc h, rfl⟩
  · rw [if_neg hempty, if_neg hempty]
    cases hframes : (c.finish d.state d.staged).frames with
    | error e => exact ⟨hnext, rfl⟩
    | ok n =>
      refine ⟨reset hc hnext, ?_⟩
      dsimp only
      rw [hmade n hframes]

theorem perform (h : Twins good d d') (call : Call) :
    Twins good (d.perform call).1 (d'.perform call).1 ∧ (d.perform call).2 = (d'.perform call).2 := by
  cases call with
  | process input out =>
    obtain ⟨hnext, hanswer⟩ := process hc h input out
    exact ⟨hnext,
      congrArg (fun r : List Int16 × Except c.Failure Nat => Answer.samples r.1 r.2) hanswer⟩
  | processBytes input out =>
    obtain ⟨hnext, hanswer⟩ := processBytes hc h input out
    exact ⟨hnext,
      congrArg (fun r : List UInt8 × Except c.Failure Nat => Answer.bytes r.1 r.2) hanswer⟩
  | flush out =>
    obtain ⟨hnext, hanswer⟩ := flush hc h out
    exact ⟨hnext,
      congrArg (fun r : List Int16 × Except c.Failure Nat => Answer.samples r.1 r.2) hanswer⟩
  | reset => exact ⟨reset hc h, rfl⟩

theorem create : Twins good (Depot.create c) (Depot.create c) := by
  have hstored : c.Stored (Depot.create c).output := by
    refine ⟨List.length_replicate, ?_⟩
    intro store hstore
    rw [List.eq_of_mem_replicate hstore, List.length_replicate]
  exact ⟨rfl, rfl, rfl, hc.fresh, level_nil, hstored, hstored⟩

theorem run (h : Twins good d d') (calls : List Call) :
    Twins good (runAll Depot.perform d calls).1 (runAll Depot.perform d' calls).1 ∧
      (runAll Depot.perform d calls).2 = (runAll Depot.perform d' calls).2 := by
  have hstep (d d' : Depot c) (call : Call) (h : Twins good d d') :
      Twins good (d.perform call).1 (d'.perform call).1 ∧ (d.perform call).2 = (d'.perform call).2 :=
    perform hc h call
  exact runAll_related hstep h calls

/-- A depot that was reset is a new one, but for the storage. -/
theorem reset_fresh (h : Twins good d d) : Twins good d.reset (Depot.create c) := by
  refine ⟨hc.reset _ h.good, ?_, rfl, ?_, (reset hc h).level, h.stored.1, (create hc).stored.1⟩
  · show (d.staged.map fun _ => []) = List.replicate c.channels []
    rw [List.map_const', h.level.channels]
  · exact (reset hc h).good

/-- A flush that succeeds ends in a reset. -/
theorem flush_fresh (h : Twins good d d) {out out' : List Int16} {n : Nat}
    (hflush : (d.flush out).2 = (out', .ok n)) : Twins good (d.flush out).1 (Depot.create c) := by
  rw [Depot.flush] at hflush ⊢
  by_cases hempty : (d.staged.headD []).isEmpty
  · rw [if_pos hempty]
    exact reset_fresh hc h
  · rw [if_neg hempty] at hflush ⊢
    cases hframes : (c.finish d.state d.staged).frames with
    | error e =>
      simp only [hframes] at hflush
      exact absurd (Prod.mk.inj hflush).2 (by simp)
    | ok n => exact reset_fresh hc (h.absorb (hc.finish d.state d.staged h.good h.level)).1

/-- Whatever clears a depot makes it a new one, but for the storage. -/
theorem clears (h : Twins good d d) {call : Call} (hcall : d.Clears call) :
    Twins good (d.perform call).1 (Depot.create c) := by
  rcases hcall with rfl | ⟨out, out', n, rfl, hanswer⟩
  · exact reset_fresh hc h
  · have hflush : (d.flush out).2 = (out', .ok n) := by
      obtain ⟨hout, happended⟩ := Answer.samples.inj hanswer
      exact Prod.ext hout happended
    exact flush_fresh hc h hflush

end Twins

/-- A new depot has nothing to flush. -/
theorem flush_create (c : Converter) (out : List Int16) :
    ((create c).perform (.flush out)).2 = .samples out (.ok 0) := by
  have hempty : ((create c).staged.headD []).isEmpty := by
    obtain ⟨n, hn⟩ := Nat.exists_eq_succ_of_ne_zero c.channels_pos.ne'
    rw [create, hn]
    rfl
  have hflush : (create c).flush out = ((create c).reset, out, .ok 0) := by rw [flush, if_pos hempty]
  rw [perform, hflush]

/-- Whatever was called before, after a reset or a flush that succeeds a depot answers all further calls
as a new one does; a second flush appends nothing. -/
theorem cleared_answers {good : c.State → Prop} (hc : c.Sound good) (history : List Call) {last : Call}
    (hlast : (runAll perform (create c) history).1.Clears last) :
    let cleared := ((runAll perform (create c) history).1.perform last).1
    (∀ later, (runAll perform cleared later).2 = (runAll perform (create c) later).2) ∧
      ∀ out, (cleared.perform (.flush out)).2 = .samples out (.ok 0) := by
  intro cleared
  have hfit := (Twins.run hc (Twins.create hc) history).1
  have hcleared : Twins good cleared (create c) := Twins.clears hc hfit hlast
  refine ⟨fun later => (Twins.run hc hcleared later).2, fun out => ?_⟩
  rw [(Twins.perform hc hcleared (.flush out)).2, flush_create]

end Depot

end Duplex
