/-!
# Regions: numbered slots for bytes

A `Region` has a slot for every number. It stores the slots up to the last one that was given or
set, and the slots past that hold zero, so that a large region takes no more room than its use.
-/

namespace Duplex

structure Region where
  /-- The slots up to the last one that was given or set. -/
  stored : Array UInt8

namespace Region

/-- The region of zeros. -/
def zeros : Region := ⟨#[]⟩

/-- The byte in slot `i`. -/
def get (r : Region) (i : Nat) : UInt8 := r.stored.getD i 0

/-- Put a byte into slot `i`. -/
def set (r : Region) (i : Nat) (b : UInt8) : Region :=
  if i < r.stored.size then ⟨r.stored.setIfInBounds i b⟩
  else ⟨(r.stored ++ Array.replicate (i - r.stored.size) 0).push b⟩

/-- The bytes in `n` slots from slot `start` on. -/
def slice (r : Region) (start n : Nat) : List UInt8 := (List.range' start n).map r.get

@[simp] theorem get_zeros (i : Nat) : zeros.get i = 0 := by simp [zeros, get]

theorem get_set (r : Region) (i : Nat) (b : UInt8) (j : Nat) :
    (r.set i b).get j = if j = i then b else r.get j := by
  unfold get set
  split
  case isTrue h =>
    by_cases hj : j = i
    · simp [hj, h]
    · simp [hj, Ne.symm hj]
  case isFalse h =>
    have hs : (r.stored ++ Array.replicate (i - r.stored.size) (0 : UInt8)).size = i := by
      simp; omega
    simp only [Array.getD_eq_getD_getElem?, Array.getElem?_push, hs]
    by_cases hj : j = i
    · simp [hj]
    · simp only [hj, if_false]
      by_cases hl : j < r.stored.size
      · rw [Array.getElem?_append_left hl]
      · rw [Array.getElem?_append_right (by omega), Array.getElem?_replicate,
          Array.getElem?_eq_none (Nat.not_lt.mp hl)]
        split <;> rfl

@[simp] theorem length_slice (r : Region) (start n : Nat) : (r.slice start n).length = n := by
  simp [slice]

end Region

end Duplex
