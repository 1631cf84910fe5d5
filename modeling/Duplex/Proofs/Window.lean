import Duplex.Proofs.Signal
import Mathlib.Data.List.GetD

/-!
# Windows: stretches of a stream

A stream has a sample at every place; `window x t n` are its `n` samples from place `t` on. A filter
that takes a signal frame by frame is told apart from one that takes the stream at once by windows
alone: they are cut, joined, paired and mapped place by place. `item`, `setItem` and `fillFrom` are
the checked accesses of loops that run over places, and `fillFrom_eq` says what such a loop leaves.
-/

namespace Duplex.Signal

variable {α β γ : Type}

/-- A signal as a stream, filled up behind its end. -/
def streamOf (fill : α) (xs : List α) (n : Nat) : α := xs.getD n fill

/-- The samples of a stream from place `t` on. -/
def window (x : Nat → α) (t n : Nat) : List α := (List.range n).map fun i => x (t + i)

@[simp] theorem length_window (x : Nat → α) (t n : Nat) : (window x t n).length = n := by
  simp [window]

@[simp] theorem getElem_window (x : Nat → α) (t n i : Nat) (h : i < (window x t n).length) :
    (window x t n)[i] = x (t + i) := by
  simp [window]

theorem window_zero (x : Nat → α) (t : Nat) : window x t 0 = [] := rfl

theorem window_succ (x : Nat → α) (t n : Nat) : window x t (n + 1) = window x t n ++ [x (t + n)] := by
  simp [window, List.range_succ]

/-- Windows are equal when they are place by place. -/
theorem window_congr {x y : Nat → α} {t u n : Nat} (h : ∀ i < n, x (t + i) = y (u + i)) :
    window x t n = window y u n := by
  refine List.ext_getElem (by simp) ?_
  intro i hi _
  rw [getElem_window, getElem_window]
  exact h i (by simpa using hi)

/-- A list is a window when it has the samples of the stream. -/
theorem eq_window {xs : List α} {x : Nat → α} {t n : Nat} (hl : xs.length = n)
    (h : ∀ i (hi : i < xs.length), xs[i] = x (t + i)) : xs = window x t n := by
  refine List.ext_getElem (by simp [hl]) ?_
  intro i hi _
  rw [getElem_window]
  exact h i hi

theorem eq_window_streamOf (fill : α) (xs : List α) : xs = window (streamOf fill xs) 0 xs.length := by
  refine eq_window rfl ?_
  intro i hi
  rw [Nat.zero_add, streamOf, List.getD_eq_getElem _ _ hi]

/-! ### Cutting and joining -/

theorem window_append (x : Nat → α) (t m n : Nat) :
    window x t m ++ window x (t + m) n = window x t (m + n) := by
  refine eq_window (by simp) ?_
  intro i hi
  by_cases him : i < m
  · rw [List.getElem_append_left (by simpa using him), getElem_window]
  · rw [List.getElem_append_right (by simpa using Nat.le_of_not_lt him), getElem_window,
      length_window]
    congr 1
    omega

theorem drop_window (x : Nat → α) (t n d : Nat) :
    (window x t n).drop d = window x (t + d) (n - d) := by
  refine eq_window (by simp) ?_
  intro i hi
  rw [List.getElem_drop, getElem_window, Nat.add_assoc]

theorem take_window (x : Nat → α) (t n m : Nat) :
    (window x t n).take m = window x t (min m n) := by
  refine eq_window (by simp) ?_
  intro i hi
  rw [List.getElem_take, getElem_window]

/-- Frames of one size are the windows of what they are put together to. -/
theorem frames_eq_windows (fill : α) {n : Nat} {frames : List (List α)}
    (h : ∀ frame ∈ frames, frame.length = n) :
    frames = (List.range frames.length).map fun i =>
      window (streamOf fill frames.flatten) (n * i) n := by
  induction frames with
  | nil => rfl
  | cons frame frames ih =>
    have hframe : frame.length = n := h frame List.mem_cons_self
    have hrest := ih fun f hf => h f (List.mem_cons_of_mem frame hf)
    rw [List.length_cons, List.range_succ_eq_map, List.map_cons, List.map_map]
    congr 1
    · refine eq_window hframe ?_
      intro i hi
      rw [Nat.mul_zero, Nat.zero_add, streamOf, List.flatten_cons, List.getD_append _ _ _ _ hi,
        List.getD_eq_getElem _ _ hi]
    · conv_lhs => rw [hrest]
      refine List.map_congr_left ?_
      intro i _
      refine window_congr ?_
      intro j _
      have hplace : n * (i + 1) + j = frame.length + (n * i + j) := by
        rw [hframe, Nat.mul_succ]
        omega
      show (frames.flatten).getD (n * i + j) fill =
        ((frame :: frames).flatten).getD (n * (i + 1) + j) fill
      rw [List.flatten_cons, hplace, List.getD_append_right _ _ _ _ (Nat.le_add_right _ _),
        Nat.add_sub_cancel_left]

/-- Windows side by side make one. -/
theorem flatMap_windows (x : Nat → α) (t n m : Nat) :
    ((List.range m).flatMap fun i => window x (t + n * i) n) = window x t (n * m) := by
  induction m with
  | zero => rfl
  | succ m ih =>
    rw [List.range_succ, List.flatMap_append, ih, List.flatMap_singleton, window_append, Nat.mul_succ]

/-! ### Place by place -/

@[simp] theorem map_window (f : α → β) (x : Nat → α) (t n : Nat) :
    (window x t n).map f = window (fun i => f (x i)) t n := by
  simp [window]

/-- Two windows are combined as far as both reach. -/
theorem zipWith_window (f : α → β → γ) (x : Nat → α) (y : Nat → β) (t u n m : Nat) :
    List.zipWith f (window x t n) (window y u m) =
      window (fun i => f (x (t + i)) (y (u + i))) 0 (min n m) := by
  refine eq_window (by simp) ?_
  intro i hi
  rw [List.getElem_zipWith, getElem_window, getElem_window, Nat.zero_add]

/-- Two windows at one place are combined there. -/
theorem zipWith_window_same (f : α → β → γ) (x : Nat → α) (y : Nat → β) (t n : Nat) :
    List.zipWith f (window x t n) (window y t n) = window (fun i => f (x i) (y i)) t n := by
  rw [zipWith_window, Nat.min_self]
  refine window_congr ?_
  intro i _
  rw [Nat.zero_add]

/-- Neighbours in a stream. -/
theorem pairs_window (x : Nat → α) (t n : Nat) :
    pairs (window x (2 * t) (2 * n)) = window (fun i => (x (2 * i), x (2 * i + 1))) t n := by
  induction n generalizing t with
  | zero => rfl
  | succ n ih =>
    have hcut : window x (2 * t) (2 * (n + 1)) =
        x (2 * t) :: x (2 * t + 1) :: window x (2 * (t + 1)) (2 * n) := by
      have hjoin := window_append x (2 * t) 2 (2 * n)
      rw [Nat.add_comm 2 (2 * n)] at hjoin
      exact hjoin.symm
    have hjoin := window_append (fun i => (x (2 * i), x (2 * i + 1))) t 1 n
    rw [Nat.add_comm 1 n] at hjoin
    rw [hcut, pairs_cons_cons, ih, ← hjoin]
    rfl

/-- Pairs of a stream put one after another. -/
theorem unpairs_window (x : Nat → α) (t n : Nat) :
    unpairs (window (fun i => (x (2 * i), x (2 * i + 1))) t n) = window x (2 * t) (2 * n) := by
  rw [← pairs_window, unpairs_pairs (length_window x _ _ ▸ Nat.dvd_mul_right 2 n)]

/-- A constant stream. -/
theorem replicate_eq_window (a : α) (t n : Nat) : List.replicate n a = window (fun _ => a) t n := by
  refine eq_window List.length_replicate ?_
  intro i hi
  rw [List.getElem_replicate]

/-- What is folded into a window place by place is folded into the samples. -/
theorem foldl_window {σ : Type} {step : List α → σ → List α} {act : σ → Nat → α → α} {t n : Nat}
    {xs : List σ} (hstep : ∀ s ∈ xs, ∀ x : Nat → α,
      step (window x t n) s = window (fun i => act s i (x i)) t n) (x : Nat → α) :
    xs.foldl step (window x t n) = window (fun i => xs.foldl (fun a s => act s i a) (x i)) t n := by
  induction xs generalizing x with
  | nil => rfl
  | cons s xs ih =>
    rw [List.foldl_cons, hstep s List.mem_cons_self,
      ih fun s' hs' => hstep s' (List.mem_cons_of_mem s hs')]
    rfl

/-! ### Rows and columns -/

theorem blocks_window {m : Nat} (hm : 0 < m) (x : Nat → α) (t n : Nat) :
    blocks m (window x t (m * n)) = (List.range n).map fun i => window x (t + m * i) m := by
  induction n generalizing t with
  | zero => rw [Nat.mul_zero, window_zero, blocks_of_length_lt hm, List.range_zero, List.map_nil]
  | succ n ih =>
    have hcut : window x t (m * (n + 1)) = window x t m ++ window x (t + m) (m * n) := by
      rw [window_append, Nat.mul_succ, Nat.add_comm]
    have hnext (i : Nat) : t + m + m * i = t + m * (i + 1) := by
      rw [Nat.mul_succ, Nat.add_assoc, Nat.add_comm m]
    rw [hcut, blocks_append hm (length_window x t m), ih, List.range_succ_eq_map, List.map_cons,
      List.map_map]
    simp only [hnext, Nat.mul_zero, Nat.add_zero]
    rfl

/-- One sample in `m` of a stream. -/
theorem columns_window {m : Nat} (hm : 0 < m) (x : Nat → α) (t n : Nat) :
    columns m (window x (m * t) (m * n)) =
      (List.range m).map fun c => window (fun i => x (m * i + c)) t n := by
  rw [columns, blocks_window hm]
  refine List.map_congr_left ?_
  intro c hc
  have hitem (i : Nat) : (window x (m * t + m * i) m)[c]? = some (x (m * (t + i) + c)) := by
    rw [List.getElem?_eq_getElem (by simpa using List.mem_range.mp hc), getElem_window, Nat.mul_add]
  rw [List.filterMap_map]
  simp only [Function.comp_def, hitem]
  rw [List.filterMap_eq_map', window]

/-- A stream that goes on with the filling is only cut longer. -/
theorem fit_window {a : α} {x : Nat → α} {m : Nat} (hx : ∀ i, m ≤ i → x i = a) (n : Nat) :
    fit n a (window x 0 m) = window x 0 n := by
  have hfill : List.replicate (n - m) a = window x (min n m) (n - m) := by
    rw [replicate_eq_window a (min n m)]
    refine window_congr ?_
    intro i hi
    exact (hx _ (by omega)).symm
  have hjoin := window_append x 0 (min n m) (n - m)
  have hsize : min n m + (n - m) = n := by omega
  rw [Nat.zero_add, hsize] at hjoin
  rw [fit, take_window, length_window, hfill, hjoin]

/-- The rows of streams side by side. -/
theorem rows_windows (ys : List (Nat → α)) (t n : Nat) :
    (ys.map fun y => window y t n).foldr (fun col rows => List.zipWith (· :: ·) col rows)
      (List.replicate n []) = window (fun i => ys.map (· i)) t n := by
  induction ys with
  | nil => exact replicate_eq_window [] t n
  | cons y ys ih => rw [List.map_cons, List.foldr_cons, ih, zipWith_window_same]; rfl

/-- Streams taken in turn. -/
theorem interleave_windows {m : Nat} (hm : 0 < m) (y : Nat → Nat → α) (t n : Nat) :
    interleave ((List.range m).map fun c => window (y c) t n) =
      window (fun i => y (i % m) (i / m)) (m * t) (m * n) := by
  obtain ⟨z, hz⟩ : ∃ z : Nat → α, (fun i => y (i % m) (i / m)) = z := ⟨_, rfl⟩
  have hrow (i : Nat) : ((List.range m).map y).map (· i) = window z (m * i) m := by
    rw [List.map_map, window]
    refine List.map_congr_left ?_
    intro c hc
    have hc : c < m := List.mem_range.mp hc
    have hcolumn : (m * i + c) % m = c := by rw [Nat.mul_add_mod, Nat.mod_eq_of_lt hc]
    have hplace : (m * i + c) / m = i := by
      rw [Nat.mul_add_div hm, Nat.div_eq_of_lt hc, Nat.add_zero]
    simp only [← hz, Function.comp_apply, hcolumn, hplace]
  have hrows := rows_windows ((List.range m).map y) t n
  simp only [hrow] at hrows
  have hjoin := flatMap_windows z (m * t) m n
  have hplace (i : Nat) : m * t + m * i = m * (t + i) := (Nat.mul_add m t i).symm
  simp only [hplace] at hjoin
  obtain ⟨first, cols, hcols⟩ :
      ∃ first cols, (List.range m).map (fun c => window (y c) t n) = first :: cols :=
    List.exists_cons_of_length_pos (by simpa using hm)
  have hfirst : first.length = n := by
    have hmem : first ∈ (List.range m).map fun c => window (y c) t n := hcols ▸ List.mem_cons_self
    obtain ⟨c, -, rfl⟩ := List.mem_map.mp hmem
    exact length_window _ t n
  rw [List.map_map, Function.comp_def, hcols] at hrows
  rw [hcols, interleave, hfirst, hrows, hz, ← hjoin, List.flatMap_def, window]

/-! ### Loops over places -/

/-- The item at a place, which has to exist. -/
def item (xs : List α) (i : Nat) : Checked α :=
  match xs[i]? with
  | some a => .ok a
  | none => .error .outOfRange

/-- Replace the item at a place, which has to exist. -/
def setItem (xs : List α) (i : Nat) (a : α) : Checked (List α) :=
  if i < xs.length then .ok (xs.set i a) else .error .outOfRange

theorem item_eq_ok {xs : List α} {i : Nat} {a : α} (h : xs[i]? = some a) : item xs i = .ok a := by
  rw [item, h]

theorem item_window (x : Nat → α) (t : Nat) {n i : Nat} (h : i < n) :
    item (window x t n) i = .ok (x (t + i)) := by
  refine item_eq_ok ?_
  rw [List.getElem?_eq_getElem (by simpa using h), getElem_window]

theorem setItem_eq_ok {xs : List α} {i : Nat} (h : i < xs.length) (a : α) :
    setItem xs i a = .ok (xs.set i a) := if_pos h

theorem setItem_window (x : Nat → α) {n i : Nat} (h : i < n) (a : α) :
    setItem (window x 0 n) i a = .ok (window (fun j => if j = i then a else x j) 0 n) := by
  rw [setItem_eq_ok (by simpa using h)]
  refine congrArg Except.ok (eq_window (by simp) ?_)
  intro j hj
  rw [List.getElem_set, Nat.zero_add]
  by_cases hji : j = i
  · rw [if_pos hji.symm, if_pos hji]
  · rw [if_neg (Ne.symm hji), if_neg hji, getElem_window, Nat.zero_add]

/-- Set so many items from place `k` on, one after another; a value may depend on those that are
already set. -/
def fillFrom (value : Nat → List α → Checked α) : (k n : Nat) → List α → Checked (List α)
  | _, 0, out => .ok out
  | k, n + 1, out => do
    let a ← value k out
    let out ← setItem out k a
    fillFrom value (k + 1) n out

theorem item_window_append (x : Nat → α) {n i : Nat} (h : i < n) (rest : List α) :
    item (window x 0 n ++ rest) i = .ok (x i) := by
  refine item_eq_ok ?_
  rw [List.getElem?_append_left (by simpa using h), List.getElem?_eq_getElem (by simpa using h),
    getElem_window, Nat.zero_add]

/-- A loop whose every value, given the ones before, is the sample of a stream at its place leaves
that stream, and what was behind it. -/
theorem fillFrom_window {value : Nat → List α → Checked α} {y : Nat → α} {k n : Nat} {rest : List α}
    (hroom : n ≤ rest.length)
    (hvalue : ∀ i < n, value (k + i) (window y 0 (k + i) ++ rest.drop i) = .ok (y (k + i))) :
    fillFrom value k n (window y 0 k ++ rest) = .ok (window y 0 (k + n) ++ rest.drop n) := by
  induction n generalizing k rest with
  | zero => rfl
  | succ n ih =>
    obtain ⟨old, rest, rfl⟩ : ∃ old rest', rest = old :: rest' :=
      List.exists_cons_of_length_pos (by omega)
    have hfirst := hvalue 0 (Nat.succ_pos n)
    rw [Nat.add_zero, List.drop_zero] at hfirst
    have hset : setItem (window y 0 k ++ old :: rest) k (y k) = .ok (window y 0 (k + 1) ++ rest) := by
      rw [setItem_eq_ok (by simp), List.set_append_right _ _ (by simp), length_window, Nat.sub_self,
        List.set_cons_zero, window_succ, Nat.zero_add, List.append_assoc, List.singleton_append]
    have hnext (i : Nat) (hi : i < n) :
        value (k + 1 + i) (window y 0 (k + 1 + i) ++ rest.drop i) = .ok (y (k + 1 + i)) := by
      have hplace : k + 1 + i = k + (i + 1) := by omega
      rw [hplace]
      exact hvalue (i + 1) (by omega)
    rw [fillFrom, hfirst, ok_bind, hset, ok_bind, ih (by simpa using hroom) hnext, Nat.add_assoc k 1 n,
      Nat.add_comm 1 n, List.drop_succ_cons]

end Duplex.Signal
