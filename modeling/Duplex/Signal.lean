import Duplex.Fault

/-!
# Signals: runs of samples as lists

Samples and bytes travel as lists. This module holds the few operations on them that the audio
code shares: storage of a given size (`filled`), writing over a part of a list (`overlay`), checked
slices, pairing neighbours (`pairs`, `unpairs`) and cutting into blocks of one size (`blocks`,
`columns`, `interleave`). Long inputs are walked with an accumulator, so they need no stack.
-/

namespace Duplex.Signal

variable {α β : Type}

/-- So many items, or more, cannot be stored, and to ask for them is a fault. The limit stands for the
memory that there is: 2⁴⁰ samples are terabytes, and no frame, block or ring of a stream comes near. -/
def storageLimit : Nat := 0x10000000000

/-- Storage for `n` items, all of them `a`. -/
def filled (n : Nat) (a : α) : Checked (List α) :=
  if n < storageLimit then .ok (List.replicate n a) else .error .outOfRange

/-- Write `src` over `dest` from index `start` on; what falls past the end is dropped. -/
def overlay (dest : List α) (start : Nat) (src : List α) : List α :=
  dest.take start ++ (src.take (dest.length - start) ++ dest.drop (start + src.length))

@[simp] theorem length_overlay (dest : List α) (start : Nat) (src : List α) :
    (overlay dest start src).length = dest.length := by
  simp only [overlay, List.length_append, List.length_take, List.length_drop]
  omega

@[simp] theorem overlay_nil (dest : List α) (start : Nat) : overlay dest start [] = dest := by
  simp [overlay]

/-- The `len` items from index `start` on, all of which have to exist. -/
def slice (xs : List α) (start len : Nat) : Checked (List α) :=
  if start + len ≤ xs.length then .ok ((xs.drop start).take len) else .error .outOfRange

/-- Exactly `n` items: the first ones of `xs`, then as many of `fill` as are missing. -/
def fit (n : Nat) (fill : α) (xs : List α) : List α :=
  xs.take n ++ List.replicate (n - xs.length) fill

@[simp] theorem length_fit (n : Nat) (fill : α) (xs : List α) : (fit n fill xs).length = n := by
  simp only [fit, List.length_append, List.length_take, List.length_replicate]
  omega

theorem fit_of_length_eq {n : Nat} {fill : α} {xs : List α} (h : xs.length = n) :
    fit n fill xs = xs := by
  simp [fit, h, List.take_of_length_le]

/-! ### Neighbours -/

private def pairsOnto : List (α × α) → List α → List (α × α)
  | acc, a :: b :: rest => pairsOnto ((a, b) :: acc) rest
  | acc, _ => acc.reverse

/-- Each item at an even index with its right neighbour; an unpaired last item is dropped. -/
def pairs (xs : List α) : List (α × α) := pairsOnto [] xs

/-- The items of the pairs in order. -/
def unpairs (ps : List (α × α)) : List α := ps.flatMap fun p => [p.1, p.2]

private theorem pairsOnto_eq :
    ∀ (acc : List (α × α)) (xs : List α), pairsOnto acc xs = acc.reverse ++ pairsOnto [] xs
  | acc, a :: b :: rest => by
    rw [pairsOnto, pairsOnto, pairsOnto_eq ((a, b) :: acc) rest, pairsOnto_eq [(a, b)] rest]
    simp
  | acc, [] => by simp [pairsOnto]
  | acc, [a] => by simp [pairsOnto]

@[simp] theorem pairs_nil : pairs ([] : List α) = [] := rfl

@[simp] theorem pairs_singleton (a : α) : pairs [a] = [] := rfl

@[simp] theorem pairs_cons_cons (a b : α) (rest : List α) :
    pairs (a :: b :: rest) = (a, b) :: pairs rest := by
  rw [pairs, pairsOnto, pairsOnto_eq]
  rfl

@[simp] theorem unpairs_nil : unpairs ([] : List (α × α)) = [] := rfl

@[simp] theorem unpairs_cons (p : α × α) (ps : List (α × α)) :
    unpairs (p :: ps) = p.1 :: p.2 :: unpairs ps := rfl

@[simp] theorem length_unpairs (ps : List (α × α)) : (unpairs ps).length = 2 * ps.length := by
  induction ps with
  | nil => rfl
  | cons p ps ih => simp [ih]; omega

@[simp] theorem pairs_unpairs (ps : List (α × α)) : pairs (unpairs ps) = ps := by
  induction ps with
  | nil => rfl
  | cons p ps ih => simp [ih]

/-! ### Blocks -/

private def blocksOnto (n : Nat) : Nat → List (List α) → List α → List (List α)
  | 0, acc, _ => acc.reverse
  | k + 1, acc, xs => blocksOnto n k (xs.take n :: acc) (xs.drop n)

/-- The consecutive blocks of `n` items; items short of a block are dropped, and there are no
blocks of zero items. -/
def blocks (n : Nat) (xs : List α) : List (List α) := blocksOnto n (xs.length / n) [] xs

private theorem blocksOnto_eq (n k : Nat) (acc : List (List α)) (xs : List α) :
    blocksOnto n k acc xs = acc.reverse ++ blocksOnto n k [] xs := by
  induction k generalizing acc xs with
  | zero => simp [blocksOnto]
  | succ k ih =>
    rw [blocksOnto, blocksOnto, ih (xs.take n :: acc), ih [xs.take n]]
    simp

theorem blocks_of_length_lt {n : Nat} {xs : List α} (h : xs.length < n) : blocks n xs = [] := by
  simp [blocks, Nat.div_eq_of_lt h, blocksOnto]

theorem blocks_append {n : Nat} (hn : 0 < n) {x : List α} (hx : x.length = n) (xs : List α) :
    blocks n (x ++ xs) = x :: blocks n xs := by
  have hk : (x ++ xs).length / n = xs.length / n + 1 := by
    rw [List.length_append, hx, Nat.add_comm, Nat.add_div_right _ hn]
  rw [blocks, hk, blocksOnto, blocksOnto_eq]
  simp [blocks, ← hx]

/-- The items at index `c` of each block of `n`, for every `c` below `n`. -/
def columns (n : Nat) (xs : List α) : List (List α) :=
  let rows := blocks n xs
  (List.range n).map fun c => rows.filterMap (·[c]?)

/-- The rows of equally long columns, one item of each column after another. -/
def interleave (cols : List (List α)) : List α :=
  match cols with
  | [] => []
  | first :: _ =>
    (cols.foldr (fun col rows => List.zipWith (· :: ·) col rows)
      (List.replicate first.length [])).flatten

end Duplex.Signal
