import Duplex.Proofs.Resampling
import Duplex.Proofs.Runs

/-!
# Resamplers: machines that take a stream block by block

A `Resampler` is any machine that takes blocks of so many frames, one column for each channel, and
answers with columns of output. Its blocks of a stream of interleaved samples are cut from the
columns of that stream (`Resampler.blocksOf`). When a stream goes on, its blocks go on with those of
what was short of a block, and so do the state that the machine is left in and the output that is
`heard` of it (`stateAfter_append`, `heard_append`).
-/

namespace Duplex

open Signal
open RateAdapter (render)

/-! ### Columns -/

namespace Signal

variable {α β : Type} {n k : Nat}

/-- The columns of whole rows go on with those of what follows. -/
theorem columns_append (hn : 0 < n) {xs : List α} (h : n ∣ xs.length) (ys : List α) :
    columns n (xs ++ ys) = List.zipWith (· ++ ·) (columns n xs) (columns n ys) := by
  unfold columns
  dsimp only
  rw [blocks_append_of_dvd hn h, List.zipWith_map, List.zipWith_self]
  exact List.map_congr_left fun _ _ => List.filterMap_append

/-- A row has one item for each column. -/
theorem columns_of_length_eq {row : List α} (hn : 0 < n) (h : row.length = n) :
    columns n row = row.map ([·]) := by
  refine List.ext_getElem (by rw [length_columns, List.length_map, h]) ?_
  intro i hi _
  have hrow : i < row.length := by rwa [length_columns, ← h] at hi
  simp [columns, blocks_of_length_eq hn h, hrow]

theorem columns_of_length_lt {xs : List α} (h : xs.length < n) :
    columns n xs = List.replicate n [] := by
  rw [columns, blocks_of_length_lt h]
  simp

/-- Of columns of one height that were joined, the upper ones are taken and the lower ones left. -/
theorem map_take_zipWith_append {as bs : List (List α)} (h : as.length = bs.length)
    (hk : ∀ a ∈ as, a.length = k) :
    (List.zipWith (· ++ ·) as bs).map (·.take k) = as ∧
      (List.zipWith (· ++ ·) as bs).map (·.drop k) = bs := by
  induction as generalizing bs with
  | nil => simpa using h.symm
  | cons a as ih =>
    obtain ⟨b, bs, rfl⟩ := List.exists_cons_of_length_eq_add_one h.symm
    obtain ⟨htake, hdrop⟩ := ih (by simpa using h) fun a' ha' => hk a' (List.mem_cons_of_mem a ha')
    obtain rfl := hk a List.mem_cons_self
    simp [htake, hdrop]

end Signal

/-! ### Resamplers -/

/-- A resampler as a machine: it is given blocks of so many frames, as a column of input for each
channel, and answers with columns of output. -/
structure Resampler where
  State : Type
  Input : Type
  /-- A sample in the form that the resampler takes. -/
  form : Int16 → Input
  channels : Nat
  /-- The frames in a block. -/
  block : Nat
  feed : State → List (List Input) → State × List (List Float32)
  reset : State → State
  channels_pos : 0 < channels
  block_pos : 0 < block

/-- The same resampler with a record of the blocks it was handed. -/
def Resampler.recorded (r : Resampler) : Resampler :=
  { r with
    State := r.State × List (List (List r.Input))
    feed := recording r.feed
    reset := fun s => (r.reset s.1, s.2) }

namespace Resampler

variable (r : Resampler)

/-- The interleaved samples in a block. -/
def blockSize : Nat := r.block * r.channels

theorem blockSize_pos : 0 < r.blockSize := Nat.mul_pos r.block_pos r.channels_pos

theorem dvd_blockSize : r.channels ∣ r.blockSize := Nat.dvd_mul_left _ _

theorem div_blockSize (n : Nat) : n / r.channels / r.block = n / r.blockSize := by
  rw [Nat.div_div_eq_div_mul, Nat.mul_comm]
  rfl

/-- The columns of interleaved samples, in the form that is fed. -/
def columnsOf (samples : List Int16) : List (List r.Input) :=
  (columns r.channels samples).map (·.map r.form)

/-- The consecutive blocks of the columns of interleaved samples. -/
def blocksOf (samples : List Int16) : List (List (List r.Input)) :=
  (List.range (samples.length / r.channels / r.block)).map fun i =>
    (r.columnsOf samples).map fun column => (column.drop (i * r.block)).take r.block

/-- The samples of the whole frames in a stream of bytes. -/
def samplesOf (bytes : List UInt8) : List Int16 :=
  Pcm.decode (bytes.take (bytes.length / (2 * r.channels) * (2 * r.channels)))

/-! #### Columns and blocks of a stream -/

variable {r} {samples xs : List Int16}

theorem length_columnsOf (samples : List Int16) : (r.columnsOf samples).length = r.channels := by
  rw [columnsOf, List.length_map, length_columns]

theorem length_of_mem_columnsOf {column : List r.Input} (h : column ∈ r.columnsOf samples) :
    column.length = samples.length / r.channels := by
  obtain ⟨plain, hplain, rfl⟩ := List.mem_map.mp h
  rw [List.length_map, length_of_mem_columns r.channels_pos hplain]

theorem length_headD_columnsOf (samples : List Int16) :
    ((r.columnsOf samples).headD []).length = samples.length / r.channels := by
  obtain ⟨first, rest, hcolumns⟩ := List.exists_cons_of_length_pos
    (r.channels_pos.trans_eq (length_columnsOf samples).symm)
  rw [hcolumns, List.headD_cons]
  exact length_of_mem_columnsOf (hcolumns ▸ List.mem_cons_self)

theorem columnsOf_nil : r.columnsOf [] = List.replicate r.channels [] := by
  rw [columnsOf, columns_of_length_lt r.channels_pos, List.map_replicate]
  rfl

theorem columnsOf_append (h : r.channels ∣ xs.length) (ys : List Int16) :
    r.columnsOf (xs ++ ys) = List.zipWith (· ++ ·) (r.columnsOf xs) (r.columnsOf ys) := by
  rw [columnsOf, columns_append r.channels_pos h, List.map_zipWith, columnsOf, columnsOf,
    List.zipWith_map]
  simp only [List.map_append]

/-- A block of every column is the columns of a block, and what is left of them those of the rest. -/
theorem map_take_columnsOf (h : r.blockSize ≤ samples.length) :
    (r.columnsOf samples).map (·.take r.block) = r.columnsOf (samples.take r.blockSize) ∧
      (r.columnsOf samples).map (·.drop r.block) = r.columnsOf (samples.drop r.blockSize) := by
  have hlength : (samples.take r.blockSize).length = r.blockSize := by
    rw [List.length_take, Nat.min_eq_left h]
  have hjoin := columnsOf_append (r := r) (hlength ▸ r.dvd_blockSize) (samples.drop r.blockSize)
  rw [List.take_append_drop] at hjoin
  rw [hjoin]
  refine map_take_zipWith_append ?_ ?_
  · rw [length_columnsOf, length_columnsOf]
  · intro column hcolumn
    rw [length_of_mem_columnsOf hcolumn, hlength, blockSize, Nat.mul_div_cancel _ r.channels_pos]

theorem blocksOf_of_lt (h : samples.length < r.blockSize) : r.blocksOf samples = [] := by
  rw [blocksOf, div_blockSize, Nat.div_eq_of_lt h]
  rfl

theorem blocksOf_of_le (h : r.blockSize ≤ samples.length) :
    r.blocksOf samples =
      r.columnsOf (samples.take r.blockSize) :: r.blocksOf (samples.drop r.blockSize) := by
  obtain ⟨htake, hdrop⟩ := map_take_columnsOf h
  have hcount : samples.length / r.channels / r.block =
      (samples.drop r.blockSize).length / r.channels / r.block + 1 := by
    rw [div_blockSize, div_blockSize, List.length_drop]
    exact Nat.div_eq_sub_div r.blockSize_pos h
  rw [blocksOf, blocksOf, hcount, List.range_succ_eq_map, List.map_cons, List.map_map, ← htake,
    ← hdrop]
  congr 1
  · simp
  · refine List.map_congr_left ?_
    intro i _
    have hnext : (i + 1) * r.block = r.block + i * r.block := by rw [Nat.succ_mul, Nat.add_comm]
    simp only [Function.comp_apply, Nat.succ_eq_add_one, hnext, List.map_map, ← List.drop_drop]
    rfl

/-- The blocks of the columns are the columns of the blocks. -/
theorem blocksOf_eq (samples : List Int16) :
    r.blocksOf samples = (blocks r.blockSize samples).map r.columnsOf := by
  induction samples using blocks_induction r.blockSize_pos with
  | short samples h => rw [blocksOf_of_lt h, blocks_of_length_lt h, List.map_nil]
  | long samples h ih =>
    rw [blocksOf_of_le h, blocks_of_le_length r.blockSize_pos h, List.map_cons, ih]

theorem blocksOf_append (xs ys : List Int16) :
    r.blocksOf (xs ++ ys) = r.blocksOf xs ++ r.blocksOf (residue r.blockSize xs ++ ys) := by
  rw [blocksOf_eq, blocks_append_left r.blockSize_pos, List.map_append, ← blocksOf_eq, ← blocksOf_eq]

/-- Whole frames have whole samples. -/
theorem dvd_length_samplesOf (bytes : List UInt8) : r.channels ∣ (r.samplesOf bytes).length := by
  rw [samplesOf, Pcm.length_decode, List.length_take, Nat.min_eq_left (Nat.div_mul_le_self _ _),
    Nat.mul_left_comm, Nat.mul_div_cancel_left _ Nat.two_pos]
  exact Nat.dvd_mul_left _ _

theorem samplesOf_append (xs ys : List UInt8) :
    r.samplesOf (xs ++ ys) =
      r.samplesOf xs ++ r.samplesOf (residue (2 * r.channels) xs ++ ys) := by
  have hframe : 0 < 2 * r.channels := Nat.mul_pos Nat.two_pos r.channels_pos
  have heven : 2 ∣ (blocks (2 * r.channels) xs).flatten.length := by
    rw [← take_eq_flatten_blocks hframe, List.length_take,
      Nat.min_eq_left (Nat.div_mul_le_self _ _), Nat.mul_left_comm]
    exact Nat.dvd_mul_right _ _
  rw [samplesOf, samplesOf, samplesOf, take_eq_flatten_blocks hframe, take_eq_flatten_blocks hframe,
    take_eq_flatten_blocks hframe, blocks_append_left hframe, List.flatten_append,
    Pcm.decode_append heven]

/-! #### What is made of a stream -/

variable (r)

/-- The resampler after all blocks of a stream. -/
def stateAfter (s : r.State) (samples : List Int16) : r.State :=
  (runAll r.feed s (r.blocksOf samples)).1

/-- What is heard of a stream: the output for all its blocks. -/
def heard (s : r.State) (samples : List Int16) : List Int16 :=
  (runAll r.feed s (r.blocksOf samples)).2.flatMap render

variable {r}

/-- Of a stream short of a block nothing is fed. -/
theorem fed_of_lt (s : r.State) (h : samples.length < r.blockSize) :
    r.stateAfter s samples = s ∧ r.heard s samples = [] := by
  rw [stateAfter, heard, blocksOf_of_lt h]
  exact ⟨rfl, rfl⟩

/-- Of a longer one a block is fed, and then the rest. -/
theorem fed_of_le {s s' : r.State} {made : List (List Float32)}
    (h : r.blockSize ≤ samples.length)
    (hfeed : r.feed s (r.columnsOf (samples.take r.blockSize)) = (s', made)) :
    r.stateAfter s samples = r.stateAfter s' (samples.drop r.blockSize) ∧
      r.heard s samples = render made ++ r.heard s' (samples.drop r.blockSize) := by
  simp only [stateAfter, heard, blocksOf_of_le h, runAll_cons, hfeed, List.flatMap_cons, and_self]

theorem stateAfter_append (s : r.State) (xs ys : List Int16) :
    r.stateAfter s (xs ++ ys) = r.stateAfter (r.stateAfter s xs) (residue r.blockSize xs ++ ys) := by
  rw [stateAfter, blocksOf_append, runAll_append]
  rfl

theorem heard_nil (s : r.State) : r.heard s [] = [] := by
  have hempty : ([] : List Int16).length < r.blockSize := r.blockSize_pos
  exact (fed_of_lt s hempty).2

theorem heard_append (s : r.State) (xs ys : List Int16) :
    r.heard s (xs ++ ys) =
      r.heard s xs ++ r.heard (r.stateAfter s xs) (residue r.blockSize xs ++ ys) := by
  rw [heard, blocksOf_append, runAll_append, List.flatMap_append]
  rfl

end Resampler

end Duplex
