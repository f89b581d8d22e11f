import Mathlib.Data.List.Rotate
import Rbtrace.Lib.Bytes

/-!
# Circular overwriting is a sliding window

A log of fixed capacity that overwrites its oldest entries keeps the list `l` of
cells and the position `j` of the oldest one; read from `j` around, it is
`l.rotate j`.  Writing a block `b` at `j` and moving `j` behind it drops as many
old entries as `b` is long and appends `b` — provided the block does not run over
the end of the cells.

So the log read in order is at every moment a suffix of everything ever written
(`rotate_splice_suffix`), which is all a reader can ask of it.  When all writes are
blocks of one size that divides the capacity, which suffix it is can be said exactly:
the last blocks, as many as fit (`BlockLog`).
-/

universe u

namespace List

variable {α : Type u}

/-- Rotating by a position inside the list exchanges the two parts it cuts. -/
theorem rotate_append_of_length (l r : List α) {j : Nat} (hj : j = l.length) :
    (l ++ r).rotate j = r ++ l := by
  rw [hj, rotate_append_length_eq]

/-- **One circular write.** -/
theorem rotate_splice (z : α) {l b : List α} {j : Nat} (h : j + b.length ≤ l.length) :
    (l.splice z j b).rotate (j + b.length) = (l.rotate j).drop b.length ++ b := by
  have hj : j ≤ l.length := by omega
  have hlen : j + b.length = (l.take j ++ b).length := by
    rw [length_append, length_take, Nat.min_eq_left hj]
  rw [splice_of_le z hj, rotate_append_of_length _ _ hlen, rotate_eq_drop_append_take hj,
    drop_append_of_le_length (by rw [length_drop]; omega), drop_drop, append_assoc]

/-- The same, read from where the block was written: the block comes first. -/
theorem rotate_splice_left (z : α) {l b : List α} {j : Nat} (h : j + b.length ≤ l.length) :
    (l.splice z j b).rotate j = b ++ (l.rotate j).drop b.length := by
  have hj : j ≤ l.length := by omega
  have hlen : (l.take j).length = j := length_take_of_le hj
  rw [splice_of_le z hj, append_assoc, rotate_append_of_length _ _ hlen.symm, append_assoc,
    rotate_eq_drop_append_take hj, drop_append_of_le_length (by rw [length_drop]; omega), drop_drop]

/-- **Sliding window.**  If the log read from its oldest entry is a suffix of the
history, it still is after a circular write. -/
theorem rotate_splice_suffix (z : α) {l b h : List α} {j : Nat} (hle : j + b.length ≤ l.length)
    (hs : l.rotate j <:+ h) : (l.splice z j b).rotate (j + b.length) <:+ h ++ b := by
  rw [rotate_splice z hle]
  obtain ⟨t, rfl⟩ := hs
  refine ⟨t ++ (l.rotate j).take b.length, ?_⟩
  rw [append_assoc, ← append_assoc (take _ _), take_append_drop, append_assoc]

/-! A block that does run over the end makes the log longer.  It may then drop fewer old
entries than it has, but what is left is still in order. -/

/-- If the log read from its oldest entry is in the order of the history, it still is
after a write at that entry, however long. -/
theorem rotate_splice_sublist (z : α) {l b h : List α} {j : Nat} (hj : j ≤ l.length)
    (hs : l.rotate j <+ h) : (l.splice z j b).rotate (j + b.length) <+ h ++ b := by
  have hlen : j + b.length = (l.take j ++ b).length := by
    rw [length_append, length_take, Nat.min_eq_left hj]
  have hdrop : l.drop (j + b.length) <+ l.drop j := by
    rw [← drop_drop]
    exact drop_sublist _ _
  rw [rotate_eq_drop_append_take hj] at hs
  rw [splice_of_le z hj, rotate_append_of_length _ _ hlen, ← append_assoc]
  exact ((hdrop.append_right _).trans hs).append_right b

/-- A write that reaches the end leaves the log in order from its first cell on. -/
theorem splice_sublist (z : α) {l b h : List α} {j : Nat} (hj : j ≤ l.length)
    (hend : l.length ≤ j + b.length) (hs : l.rotate j <+ h) : l.splice z j b <+ h ++ b := by
  have htake : l.take j <+ l.rotate j := by
    rw [rotate_eq_drop_append_take hj]
    exact sublist_append_right _ _
  rw [splice_of_le z hj, drop_eq_nil_of_le hend, append_nil]
  exact (htake.trans hs).append_right b

/-! ## Logs of blocks -/

/-- `l` is a log of at most `k` blocks of `n` items, after the blocks `bs` have been
written to it one after the other, each to block `i % k` if it was the `i`-th. -/
structure BlockLog (k n : Nat) (bs : List (List α)) (l : List α) : Prop where
  length_block : ∀ b ∈ bs, b.length = n
  length_eq : l.length = min bs.length k * n
  rotate_eq : l.rotate (bs.length % k * n) = (bs.drop (bs.length - k)).flatten

namespace BlockLog

variable {k n : Nat} {bs : List (List α)} {l : List α}

theorem empty (k n : Nat) : BlockLog k n ([] : List (List α)) [] :=
  ⟨by simp, by simp, by simp⟩

/-- The next write goes to a place inside the log or at its end. -/
theorem next_le (h : BlockLog k n bs l) (hk : 0 < k) : bs.length % k * n ≤ l.length := by
  rw [h.length_eq]
  refine Nat.mul_le_mul_right n (Nat.le_min.2 ⟨Nat.mod_le _ _, (Nat.mod_lt _ hk).le⟩)

/-- A log that is not full yet is everything that was written. -/
theorem eq_flatten (h : BlockLog k n bs l) (hlt : bs.length < k) : l = bs.flatten := by
  have hr := h.rotate_eq
  rwa [Nat.mod_eq_of_lt hlt,
    show bs.length * n = l.length by rw [h.length_eq, Nat.min_eq_left hlt.le],
    rotate_length, Nat.sub_eq_zero_of_le hlt.le, drop_zero] at hr

theorem succ_mod_eq (hk : 0 < k) (m : Nat) :
    (m + 1) % k = if m % k + 1 = k then 0 else m % k + 1 := by
  have hlt := Nat.mod_lt m hk
  rw [← Nat.mod_add_mod]
  split
  · rename_i h
    rw [h, Nat.mod_self]
  · exact Nat.mod_eq_of_lt (by omega)

/-- What is left of a full log without its oldest block. -/
theorem drop_flatten (h : BlockLog k n bs l) (hk : 0 < k) (hfull : k ≤ bs.length) :
    (bs.drop (bs.length - k)).flatten.drop n = (bs.drop (bs.length + 1 - k)).flatten := by
  have hlt : bs.length - k < bs.length := by omega
  rw [drop_eq_getElem_cons hlt, flatten_cons, drop_left' (h.length_block _ (getElem_mem hlt))]
  congr 2
  omega

/-- A block fits where the oldest one is. -/
theorem next_add_le (h : BlockLog k n bs l) (hk : 0 < k) (hfull : k ≤ bs.length) :
    bs.length % k * n + n ≤ l.length := by
  rw [h.length_eq, Nat.min_eq_right hfull, ← Nat.succ_mul]
  exact Nat.mul_le_mul_right n (Nat.mod_lt _ hk)

/-- **Writing a block.** -/
theorem push (h : BlockLog k n bs l) (hk : 0 < k) (z : α) {b : List α} (hb : b.length = n) :
    BlockLog k n (bs ++ [b]) (l.splice z (bs.length % k * n) b) := by
  have hblock : ∀ c ∈ bs ++ [b], c.length = n := by
    intro c hc
    rcases mem_append.1 hc with hc | hc
    · exact h.length_block c hc
    · rw [mem_singleton.1 hc, hb]
  have hlast : (bs ++ [b]).length = bs.length + 1 := by simp
  have hmod := succ_mod_eq hk bs.length
  rcases Nat.lt_or_ge bs.length k with hlt | hge
  · -- the log still grows
    have hpos : bs.length % k * n = l.length := by
      rw [Nat.mod_eq_of_lt hlt, h.length_eq, Nat.min_eq_left hlt.le]
    have hlen : (l ++ b).length = min (bs.length + 1) k * n := by
      rw [length_append, h.length_eq, hb, Nat.min_eq_left hlt.le, Nat.min_eq_left hlt, Nat.succ_mul]
    rw [hpos, splice_length]
    refine ⟨hblock, by rw [hlast, hlen], ?_⟩
    have hrot : (l ++ b).rotate ((bs.length + 1) % k * n) = l ++ b := by
      rw [hmod, Nat.mod_eq_of_lt hlt]
      split
      · rw [Nat.zero_mul, rotate_zero]
      · rw [show (bs.length + 1) * n = (l ++ b).length by rw [hlen, Nat.min_eq_left hlt],
          rotate_length]
    rw [hlast, hrot, Nat.sub_eq_zero_of_le hlt, drop_zero, flatten_append, h.eq_flatten hlt,
      flatten_singleton]
  · -- the oldest block is overwritten
    have hmin : min bs.length k = k := Nat.min_eq_right hge
    have hfit : bs.length % k * n + b.length ≤ l.length := hb ▸ h.next_add_le hk hge
    have hlen : (l.splice z (bs.length % k * n) b).length = k * n := by
      rw [length_splice, Nat.max_eq_left hfit, h.length_eq, hmin]
    refine ⟨hblock, by rw [hlast, hlen, Nat.min_eq_right (by omega)], ?_⟩
    have hrot : (l.splice z (bs.length % k * n) b).rotate ((bs.length + 1) % k * n) =
        (l.splice z (bs.length % k * n) b).rotate (bs.length % k * n + b.length) := by
      rw [hmod, hb, ← Nat.succ_mul]
      split
      · rename_i hwrap
        rw [Nat.succ_eq_add_one, hwrap, ← hlen, rotate_length, Nat.zero_mul, rotate_zero]
      · rfl
    rw [hlast, hrot, rotate_splice z hfit, h.rotate_eq, hb, h.drop_flatten hk hge,
      drop_append_of_le_length (by omega), flatten_append, flatten_singleton]

/-- **Writing a block without moving on**: the log is read from the new block. -/
theorem rotate_splice_of_full (h : BlockLog k n bs l) (hk : 0 < k) (hfull : k ≤ bs.length) (z : α)
    {b : List α} (hb : b.length = n) :
    (l.splice z (bs.length % k * n) b).rotate (bs.length % k * n) =
      b ++ (bs.drop (bs.length + 1 - k)).flatten := by
  have hfit : bs.length % k * n + b.length ≤ l.length := hb ▸ h.next_add_le hk hfull
  rw [rotate_splice_left z hfit, h.rotate_eq, hb, h.drop_flatten hk hfull]
end BlockLog

end List
