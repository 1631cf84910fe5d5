import Duplex.Proofs.Buffer
import Duplex.Proofs.Runs

/-!
# Dual buffers: one content behind two copies

A dual buffer is looked at in either form, or claimed in one form and changed. Whatever the order of
these calls, it stands for one content, a `Copy` in the form that was claimed last: a view in that
form is the content itself, a view in the other form is the content with every sample converted, and
only a claim changes it (`run_presents_content`). The copies are also kept with a flag each
(`FlaggedCopies`), of which one is always set.
-/

namespace Duplex

open Signal

/-! ### Buffers of one shape -/

namespace ChannelBuffer

variable {α β : Type}

/-- The buffer with every sample converted. -/
def map (f : α → β) (x : ChannelBuffer α) : ChannelBuffer β where
  frames := x.frames
  channels := x.channels
  bands := x.bands
  data := x.data.map f
  bands_pos := x.bands_pos
  channels_pos := x.channels_pos
  bands_dvd := x.bands_dvd
  length_data := by rw [List.length_map, x.length_data]

theorem length_data_eq {x : ChannelBuffer α} {y : ChannelBuffer β} (h : x.dims = y.dims) :
    x.data.length = y.data.length := by
  obtain ⟨hframes, hchannels, -⟩ : x.frames = y.frames ∧ x.channels = y.channels ∧ x.bands = y.bands :=
    by simpa [dims] using h
  rw [x.length_data, y.length_data, hframes, hchannels]

/-- Nothing is left of a copy that the converted samples of another one are written over. -/
theorem writeData_map {x : ChannelBuffer β} {y : ChannelBuffer α} (h : x.dims = y.dims) (f : α → β) :
    x.writeData 0 (y.data.map f) = y.map f := by
  obtain ⟨hframes, hchannels, hbands⟩ :
      x.frames = y.frames ∧ x.channels = y.channels ∧ x.bands = y.bands := by simpa [dims] using h
  refine ChannelBuffer.ext hframes hchannels hbands ?_
  have hlength : (y.data.map f).length = x.data.length := by
    rw [List.length_map, length_data_eq h]
  exact overlay_all hlength

end ChannelBuffer

/-! ### Calls -/

/-- Audio in one form. -/
inductive Copy where
  | ints (x : ChannelBuffer Int16)
  | floats (x : ChannelBuffer Float32)

/-- A call on a dual buffer: a look in one form, or a claim of one form and what is then done to the
samples. -/
inductive Access where
  | readInts
  | readFloats
  | claimInts (change : List Int16 → List Int16)
  | claimFloats (change : List Float32 → List Float32)

namespace Access

/-- Whether a call is only a look. -/
def IsRead : Access → Prop
  | readInts | readFloats => True
  | claimInts _ | claimFloats _ => False

end Access

namespace Copy

/-- The audio as integers: floats are rounded. -/
def asInts : Copy → ChannelBuffer Int16
  | ints x => x
  | floats x => x.map Pcm.round

/-- The audio as floats. -/
def asFloats : Copy → ChannelBuffer Float32
  | ints x => x.map Pcm.widen
  | floats x => x

/-- A call on audio in one form, and the view that it gives. A claim starts from the view. -/
def access (c : Copy) : Access → Copy × Copy
  | .readInts => (c, ints c.asInts)
  | .readFloats => (c, floats c.asFloats)
  | .claimInts change => (ints (c.asInts.writeData 0 (change c.asInts.data)), ints c.asInts)
  | .claimFloats change => (floats (c.asFloats.writeData 0 (change c.asFloats.data)), floats c.asFloats)

/-- A look leaves the audio as it is. -/
theorem access_of_isRead {a : Access} (h : a.IsRead) (c : Copy) : (c.access a).1 = c := by
  cases a with
  | readInts => rfl
  | readFloats => rfl
  | claimInts change => exact absurd h id
  | claimFloats change => exact absurd h id

end Copy

namespace DualBuffer

/-- A call on a dual buffer, and the view that it gives, before any change. -/
def access (b : DualBuffer) : Access → DualBuffer × Copy
  | .readInts => (b.syncInts, .ints b.syncInts.intCopy)
  | .readFloats => (b.syncFloats, .floats b.syncFloats.floatCopy)
  | .claimInts change =>
    (b.write 0 (change b.claimInts.intCopy.data), .ints b.claimInts.intCopy)
  | .claimFloats change =>
    (b.write 0 (change b.claimFloats.floatCopy.data), .floats b.claimFloats.floatCopy)

/-! ### The content -/

/-- The buffer stands for a content: both copies have one shape, and what is read in either form is
the content in that form. -/
structure Presents (b : DualBuffer) (c : Copy) : Prop where
  dims : b.intCopy.dims = b.floatCopy.dims
  ints : b.ints = c.asInts
  floats : b.floats = c.asFloats

@[simp] theorem intCopy_syncInts (b : DualBuffer) : b.syncInts.intCopy = b.ints := by
  obtain ⟨i, f, fresh⟩ := b
  cases fresh <;> rfl

/-- Freshening one copy is not noticed in the other form. -/
@[simp] theorem floats_syncInts (b : DualBuffer) : b.syncInts.floats = b.floats := by
  obtain ⟨i, f, fresh⟩ := b
  cases fresh <;> rfl

@[simp] theorem ints_syncFloats (b : DualBuffer) : b.syncFloats.ints = b.ints := by
  obtain ⟨i, f, fresh⟩ := b
  cases fresh <;> rfl

theorem dims_syncInts (b : DualBuffer) :
    b.syncInts.intCopy.dims = b.intCopy.dims ∧ b.syncInts.floatCopy = b.floatCopy := by
  obtain ⟨i, f, fresh⟩ := b
  cases fresh <;> exact ⟨rfl, rfl⟩

theorem dims_syncFloats (b : DualBuffer) :
    b.syncFloats.floatCopy.dims = b.floatCopy.dims ∧ b.syncFloats.intCopy = b.intCopy := by
  obtain ⟨i, f, fresh⟩ := b
  cases fresh <;> exact ⟨rfl, rfl⟩

namespace Presents

variable {b : DualBuffer} {c : Copy} (h : b.Presents c)

include h

theorem readInts : b.syncInts.Presents c := by
  obtain ⟨hint, hfloat⟩ := dims_syncInts b
  refine ⟨?_, ?_, ?_⟩
  · rw [hint, hfloat, h.dims]
  · rw [ints_syncInts, h.ints]
  · rw [floats_syncInts, h.floats]

theorem readFloats : b.syncFloats.Presents c := by
  obtain ⟨hfloat, hint⟩ := dims_syncFloats b
  refine ⟨?_, ?_, ?_⟩
  · rw [hint, hfloat, h.dims]
  · rw [ints_syncFloats, h.ints]
  · rw [floats_syncFloats, h.floats]

/-- What is written into the claimed integers is the content from then on. -/
theorem claimInts (src : List Int16) :
    (b.write 0 src).Presents (.ints (c.asInts.writeData 0 src)) := by
  obtain ⟨hint, hfloat⟩ := dims_syncInts b
  have hcopy : (b.write 0 src).intCopy = c.asInts.writeData 0 src := by
    rw [← h.ints, ← intCopy_syncInts]
    rfl
  have hother : (b.write 0 src).floatCopy = b.floatCopy := hfloat
  have hdims : (b.write 0 src).intCopy.dims = (b.write 0 src).floatCopy.dims := by
    rw [hother, ← h.dims, ← hint]
    rfl
  refine ⟨hdims, hcopy, ?_⟩
  have hview : (b.write 0 src).floats =
      (b.write 0 src).floatCopy.writeData 0 ((b.write 0 src).intCopy.data.map Pcm.widen) := rfl
  rw [hview, ChannelBuffer.writeData_map hdims.symm, hcopy]
  rfl

theorem claimFloats (src : List Float32) :
    (b.write 0 src).Presents (.floats (c.asFloats.writeData 0 src)) := by
  obtain ⟨hfloat, hint⟩ := dims_syncFloats b
  have hcopy : (b.write 0 src).floatCopy = c.asFloats.writeData 0 src := by
    rw [← h.floats, ← floatCopy_syncFloats]
    rfl
  have hother : (b.write 0 src).intCopy = b.intCopy := hint
  have hdims : (b.write 0 src).intCopy.dims = (b.write 0 src).floatCopy.dims := by
    rw [hother, h.dims, ← hfloat]
    rfl
  refine ⟨hdims, ?_, hcopy⟩
  have hview : (b.write 0 src).ints =
      (b.write 0 src).intCopy.writeData 0 ((b.write 0 src).floatCopy.data.map Pcm.round) := rfl
  rw [hview, ChannelBuffer.writeData_map hdims, hcopy]
  rfl

/-- A call does to the buffer what it does to the content, and gives the same view. -/
theorem access (a : Access) :
    (b.access a).1.Presents (c.access a).1 ∧ (b.access a).2 = (c.access a).2 := by
  cases a with
  | readInts =>
    refine ⟨h.readInts, ?_⟩
    rw [DualBuffer.access, Copy.access, intCopy_syncInts, h.ints]
  | readFloats =>
    refine ⟨h.readFloats, ?_⟩
    rw [DualBuffer.access, Copy.access, floatCopy_syncFloats, h.floats]
  | claimInts change =>
    have hview : b.claimInts.intCopy = c.asInts := (intCopy_syncInts b).trans h.ints
    rw [DualBuffer.access, Copy.access, hview]
    exact ⟨h.claimInts _, rfl⟩
  | claimFloats change =>
    have hview : b.claimFloats.floatCopy = c.asFloats := (floatCopy_syncFloats b).trans h.floats
    rw [DualBuffer.access, Copy.access, hview]
    exact ⟨h.claimFloats _, rfl⟩

end Presents

/-- The parts of a new buffer. -/
theorem create_cases {frames channels bands : Nat} {b : DualBuffer}
    (h : create frames channels bands = .ok b) :
    b.fresh = .both ∧ ChannelBuffer.create frames channels bands = .ok b.intCopy ∧
      ChannelBuffer.create frames channels bands = .ok b.floatCopy := by
  obtain ⟨intCopy, hints, h⟩ := bind_eq_ok.mp h
  obtain ⟨floatCopy, hfloats, h⟩ := bind_eq_ok.mp h
  obtain rfl := Except.ok.inj h
  exact ⟨rfl, hints, hfloats⟩

/-- A new buffer is silent in both forms. -/
theorem create_presents {frames channels bands : Nat} {b : DualBuffer}
    (h : create frames channels bands = .ok b) : b.Presents (.ints b.intCopy) := by
  obtain ⟨intCopy, floatCopy, fresh⟩ := b
  obtain ⟨rfl, hints, hfloats⟩ : fresh = .both ∧ _ ∧ _ := create_cases h
  rw [ChannelBuffer.create] at hints hfloats
  split_ifs at hints hfloats with hbands hchannels hdvd hroom
  obtain rfl := Except.ok.inj hints
  obtain rfl := Except.ok.inj hfloats
  refine ⟨rfl, rfl, ?_⟩
  have hzero : Pcm.widen 0 = 0 := by decide +kernel
  refine ChannelBuffer.ext rfl rfl rfl ?_
  show List.replicate (frames * channels) (0 : Float32) =
    (List.replicate (frames * channels) (0 : Int16)).map Pcm.widen
  rw [List.map_replicate, hzero]

end DualBuffer

/-! ### Flags -/

/-- The two copies of a dual buffer, and for each of them whether it is valid. -/
structure FlaggedCopies where
  intsValid : Bool
  intCopy : ChannelBuffer Int16
  floatsValid : Bool
  floatCopy : ChannelBuffer Float32

namespace FlaggedCopies

/-- Convert the floats if the integers are not valid. -/
def refreshInts (p : FlaggedCopies) : FlaggedCopies :=
  if p.intsValid then p
  else { p with
    intCopy := p.intCopy.writeData 0 (p.floatCopy.data.map Pcm.round)
    intsValid := true }

/-- Convert the integers if the floats are not valid. -/
def refreshFloats (p : FlaggedCopies) : FlaggedCopies :=
  if p.floatsValid then p
  else { p with
    floatCopy := p.floatCopy.writeData 0 (p.intCopy.data.map Pcm.widen)
    floatsValid := true }

/-- A call refreshes the copy of its form; a claim of that copy takes the other flag away. -/
def access (p : FlaggedCopies) : Access → FlaggedCopies × Copy
  | .readInts => (p.refreshInts, .ints p.refreshInts.intCopy)
  | .readFloats => (p.refreshFloats, .floats p.refreshFloats.floatCopy)
  | .claimInts change =>
    let p := { p.refreshInts with floatsValid := false }
    ({ p with intCopy := p.intCopy.writeData 0 (change p.intCopy.data) }, .ints p.intCopy)
  | .claimFloats change =>
    let p := { p.refreshFloats with intsValid := false }
    ({ p with floatCopy := p.floatCopy.writeData 0 (change p.floatCopy.data) }, .floats p.floatCopy)

/-- The copies of a dual buffer with their flags. -/
def ofBuffer (b : DualBuffer) : FlaggedCopies where
  intsValid := b.fresh ≠ .floatsOnly
  intCopy := b.intCopy
  floatsValid := b.fresh ≠ .intsOnly
  floatCopy := b.floatCopy

/-- One of the flags is set. -/
theorem valid_ofBuffer (b : DualBuffer) :
    (ofBuffer b).intsValid = true ∨ (ofBuffer b).floatsValid = true := by
  obtain ⟨i, f, fresh⟩ := b
  cases fresh with
  | both => exact .inl rfl
  | intsOnly => exact .inl rfl
  | floatsOnly => exact .inr rfl

/-- Keeping flags comes to the same. -/
theorem access_ofBuffer (b : DualBuffer) (a : Access) :
    (ofBuffer b).access a = (ofBuffer (b.access a).1, (b.access a).2) := by
  obtain ⟨i, f, fresh⟩ := b
  cases a <;> cases fresh <;> rfl

theorem run_ofBuffer (b : DualBuffer) (accesses : List Access) :
    runAll access (ofBuffer b) accesses =
      (ofBuffer (runAll DualBuffer.access b accesses).1, (runAll DualBuffer.access b accesses).2) := by
  induction accesses generalizing b with
  | nil => rfl
  | cons a accesses ih => rw [runAll_cons, runAll_cons, access_ofBuffer, ih]

end FlaggedCopies

/-! ### Runs of calls -/

namespace Copy

/-- Looks leave the audio as it is. -/
theorem run_reads {reads : List Access} (h : ∀ a ∈ reads, a.IsRead) (c : Copy) :
    (runAll access c reads).1 = c := by
  induction reads with
  | nil => rfl
  | cons a reads ih =>
    have hone : (c.access a).1 = c := access_of_isRead (h a List.mem_cons_self) c
    rw [runAll_cons, hone]
    exact ih fun a' ha' => h a' (List.mem_cons_of_mem a ha')

end Copy

namespace DualBuffer

variable {b : DualBuffer} {c : Copy}

theorem Presents.run (h : b.Presents c) (accesses : List Access) :
    (runAll DualBuffer.access b accesses).1.Presents (runAll Copy.access c accesses).1 ∧
      (runAll DualBuffer.access b accesses).2 = (runAll Copy.access c accesses).2 :=
  runAll_related (fun _ _ a h => h.access a) h accesses

/-- The same content is there after looks. -/
theorem Presents.reads (h : b.Presents c) {reads : List Access} (hreads : ∀ a ∈ reads, a.IsRead) :
    (runAll DualBuffer.access b reads).1.Presents c := by
  have hrun := (h.run reads).1
  rwa [Copy.run_reads hreads] at hrun

/-- Whatever calls are made on a new buffer: they give the views that the content alone gives, which
is in the form claimed last, and the buffer stands for that content afterwards. Of the two validity
flags one is set. Looks change no later view, and what a claim leaves in its view, all of it, is the
content until the next claim. -/
theorem run_presents_content {frames channels bands : Nat}
    (h : create frames channels bands = .ok b) (accesses : List Access) :
    let run := runAll access b accesses
    let content := runAll Copy.access (.ints b.intCopy) accesses
    let flagged := runAll FlaggedCopies.access ⟨true, b.intCopy, true, b.floatCopy⟩ accesses
    (run.2 = content.2 ∧ run.1.Presents content.1) ∧
    (flagged = (.ofBuffer run.1, run.2) ∧
      (flagged.1.intsValid = true ∨ flagged.1.floatsValid = true)) ∧
    ∀ reads : List Access, (∀ a ∈ reads, a.IsRead) →
      (∀ later, (runAll access (runAll access run.1 reads).1 later).2 =
        (runAll access run.1 later).2) ∧
      (∀ change, (runAll access run.1 (.claimInts change :: reads)).1.Presents
        (.ints (run.1.ints.writeData 0 (change run.1.ints.data)))) ∧
      ∀ change, (runAll access run.1 (.claimFloats change :: reads)).1.Presents
        (.floats (run.1.floats.writeData 0 (change run.1.floats.data))) := by
  intro run content flagged
  obtain ⟨hpresents, hviews⟩ := (create_presents h).run accesses
  have hflagged : flagged = (.ofBuffer run.1, run.2) := by
    have hfresh : (⟨true, b.intCopy, true, b.floatCopy⟩ : FlaggedCopies) = .ofBuffer b := by
      obtain ⟨i, f, fresh⟩ := b
      obtain rfl : fresh = .both := (create_cases h).1
      rfl
    show runAll FlaggedCopies.access _ accesses = _
    rw [hfresh]
    exact FlaggedCopies.run_ofBuffer b accesses
  refine ⟨⟨hviews, hpresents⟩, ⟨hflagged, ?_⟩, ?_⟩
  · rw [hflagged]
    exact FlaggedCopies.valid_ofBuffer run.1
  · intro reads hreads
    refine ⟨?_, ?_, ?_⟩
    · intro later
      rw [((hpresents.reads hreads).run later).2, (hpresents.run later).2]
    · intro change
      have hclaim := (hpresents.access (.claimInts change)).1
      rw [Copy.access, ← hpresents.ints] at hclaim
      exact hclaim.reads hreads
    · intro change
      have hclaim := (hpresents.access (.claimFloats change)).1
      rw [Copy.access, ← hpresents.floats] at hclaim
      exact hclaim.reads hreads

/-- Integers, of which the first is then replaced by a float between two integers: it is rounded for
those who ask for integers, and stays as it is for the others until integers are claimed again. -/
theorem run_presents_content_rounded :
    ∃ b, create 2 1 1 = .ok b ∧
      let run := runAll access b [.claimInts fun _ => [10, 20], .claimFloats fun _ => [99.5]]
      (run.1.ints.data = [100, 20] ∧ run.1.floats.data = [99.5, 20]) ∧
      (runAll access (runAll access run.1 [.readInts]).1 [.readFloats]).2 =
        (runAll access run.1 [.readFloats]).2 ∧
      (runAll access run.1 [.claimInts fun xs => xs.reverse, .readInts]).1.floats.data = [20, 100] := by
  obtain ⟨b, hb⟩ : ∃ b, create 2 1 1 = .ok b := ⟨_, rfl⟩
  have hread : ∀ a ∈ [Access.readInts], a.IsRead := fun a ha => List.mem_singleton.mp ha ▸ trivial
  obtain ⟨⟨-, hpresents⟩, -, hreads⟩ :=
    run_presents_content hb [.claimInts fun _ => [10, 20], .claimFloats fun _ => [99.5]]
  obtain ⟨hlater, hints, -⟩ := hreads [.readInts] hread
  obtain rfl := Except.ok.inj hb
  refine ⟨_, rfl, ⟨?_, ?_⟩, hlater [.readFloats], ?_⟩
  · rw [hpresents.ints]
    decide +kernel
  · rw [hpresents.floats]
    decide +kernel
  · rw [(hints fun xs => xs.reverse).floats, hpresents.ints]
    decide +kernel

end DualBuffer

end Duplex
